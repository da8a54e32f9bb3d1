import SrasMage.Run
import Mathlib.Algebra.Order.Ring.Int
import Mathlib.Data.List.Count

/-!
This module contains the pool of trusted threads of an enclave (`psw/urts/tcs.cpp`).
-/

namespace Urts

open List

abbrev HostId := Nat
abbrev TrustThread := Nat

inductive TcsPolicy where
  | bind
  | unbind
deriving DecidableEq

inductive EcallCmd where
  | initEnclave
  | uninitEnclave
  | other
deriving DecidableEq

def EcallCmd.isSpecial : EcallCmd → Bool
  | .other => false
  | _ => true

structure Pool where
  freeThreadVector : List TrustThread
  unallocatedThreads : List TrustThread
  threadList : List (HostId × TrustThread)
  utilityThread : Option TrustThread
  tcsMinPool : Nat
  reference : TrustThread → Int
  created : Nat

namespace Pool

def init (tcsMinPool : Nat) : Pool := ⟨[], [], [], none, tcsMinPool, fun _ => 0, 0⟩

variable (p : Pool)

variable (h : HostId) (policy : TcsPolicy) (t : TrustThread)

def addToFreeThreadVector : Pool := { p with freeThreadVector := p.freeThreadVector ++ [t] }

def getFreeThread : Option (TrustThread × Pool) :=
  match p.freeThreadVector.getLast? with
  | none => none
  | some t => some (t, { p with freeThreadVector := p.freeThreadVector.dropLast })

def getBoundThread : Option TrustThread := p.threadList.lookup h

def bindThread : Pool :=
  match p.threadList with
  | [] => { p with threadList := [(h, t)] }
  | head :: rest =>
    if (p.threadList.lookup h).isSome then p else { p with threadList := head :: (h, t) :: rest }

def setReference (n : Int) : Pool := { p with reference := Function.update p.reference t n }

def increaseRef : Pool := p.setReference t (p.reference t + 1)
def decreaseRef : Pool := p.setReference t (p.reference t - 1)

def unbindThread : Pool :=
  match p.threadList.lookup h with
  | none => p
  | some t =>
    { (p.setReference t 0).addToFreeThreadVector t with threadList := p.threadList.eraseP (·.1 = h) }

def addThread (isUnallocated dynamic : Bool) : Pool :=
  let t := p.created
  let p := { p.setReference t 0 with created := p.created + 1 }
  if isUnallocated then { p with unallocatedThreads := p.unallocatedThreads ++ [t] }
  else if dynamic && p.utilityThread.isNone then { p with utilityThread := some t }
  else p.addToFreeThreadVector t

def collect (policy : TcsPolicy) (threadSet : List HostId) :
    List (HostId × TrustThread) → List (HostId × TrustThread) × List TrustThread
  | [] => ([], [])
  | (h, t) :: rest =>
    let (kept, free) := collect policy threadSet rest
    match policy with
    | .bind =>
      if h ∈ threadSet then ((h, t) :: kept, free)
      else if p.reference t = 0 then (kept, t :: free)
      else (kept, free)
    | .unbind =>
      if p.reference t = 0 then (kept, t :: free)
      else ((h, t) :: kept, free)

def garbageCollect (threadSet : List HostId) : Nat × Pool :=
  let (kept, free) := p.collect policy threadSet p.threadList
  (free.length, { p with threadList := kept, freeThreadVector := p.freeThreadVector ++ free })

def takeFreeThread (threadSet : List HostId) (h : HostId) : Option TrustThread × Pool :=
  match p.getFreeThread with
  | some (t, p) => (some t, p.bindThread h t)
  | none =>
    let (nrFree, p) := p.garbageCollect policy threadSet
    if nrFree = 0 then (none, p)
    else
      match p.getFreeThread with
      | some (t, p) => (some t, p.bindThread h t)
      | none => (none, p)

def acquireBound (threadSet : List HostId) (h : HostId) : Option TrustThread × Pool :=
  match p.getBoundThread h with
  | some t => if p.utilityThread ≠ some t then (some t, p) else p.takeFreeThread policy threadSet h
  | none => p.takeFreeThread policy threadSet h

def needToNewThread : Bool :=
  if p.unallocatedThreads.isEmpty then false
  else if p.tcsMinPool = 0 ∧ p.freeThreadVector.length > p.tcsMinPool then false
  else if p.tcsMinPool ≠ 0 ∧ p.freeThreadVector.length ≥ p.tcsMinPool then false
  else true

def newThread (made : Bool) : Bool × Pool :=
  match p.utilityThread with
  | none => (false, p)
  | some _ =>
    match p.unallocatedThreads.getLast? with
    | none => (true, p)
    | some t =>
      if made then
        (true, { p.addToFreeThreadVector t with unallocatedThreads := p.unallocatedThreads.dropLast })
      else (false, p)

def fillTcsMiniPool (p : Pool) : List Bool → Pool
  | [] => p
  | made :: rest =>
    if p.needToNewThread then
      let (ok, p) := p.newThread made
      if ok then p.fillTcsMiniPool rest else p
    else p

structure Surroundings where
  threadSet : List HostId
  threadSet' : List HostId
  made : List Bool

def acquireSpecial (h : HostId) (cmd : EcallCmd) (env : Surroundings) : Option TrustThread × Pool :=
  match p.utilityThread with
  | some t =>
    if cmd = .uninitEnclave then
      (some t, { (p.unbindThread h).bindThread h t with utilityThread := none })
    else (some t, p)
  | none => p.acquireBound policy env.threadSet h

def acquireOther (h : HostId) (env : Surroundings) : Option TrustThread × Pool :=
  match p.acquireBound policy env.threadSet h with
  | (some t, p) => (some t, p)
  | (none, p) =>
    if p.utilityThread.isSome then (p.fillTcsMiniPool env.made).acquireBound policy env.threadSet' h
    else (none, p)

def acquireThread (h : HostId) (cmd : EcallCmd) (env : Surroundings) : Option TrustThread × Pool :=
  let (t, p) := if cmd.isSpecial then p.acquireSpecial policy h cmd env else p.acquireOther policy h env
  match t with
  | some t => (some t, p.increaseRef t)
  | none => (none, p)

end Pool

structure PoolState where
  pool : Pool
  holds : HostId → TrustThread → Nat

inductive PoolStep where
  | acquire (h : HostId) (cmd : EcallCmd) (env : Pool.Surroundings)
  | release (h : HostId) (t : TrustThread)
  | add (isUnallocated dynamic : Bool)
  | new (made : Bool)
  | collect (threadSet : List HostId)

namespace PoolState

def init (tcsMinPool : Nat) : PoolState := ⟨.init tcsMinPool, fun _ _ => 0⟩

variable (s : PoolState)

def setHolds (h : HostId) (t : TrustThread) (n : Nat) : PoolState :=
  { s with holds := Function.update s.holds h (Function.update (s.holds h) t n) }

def step (policy : TcsPolicy) : PoolStep → Option PoolState
  | .acquire h cmd env =>
    match s.pool.acquireThread policy h cmd env with
    | (none, pool) => some { s with pool := pool }
    | (some t, pool) => some ({ s with pool := pool }.setHolds h t (s.holds h t + 1))
  | .release h t =>
    if s.holds h t = 0 then none
    else some ({ s with pool := s.pool.decreaseRef t }.setHolds h t (s.holds h t - 1))
  | .add isUnallocated dynamic => some { s with pool := s.pool.addThread isUnallocated dynamic }
  | .new made => some { s with pool := (s.pool.newThread made).2 }
  | .collect threadSet => some { s with pool := (s.pool.garbageCollect policy threadSet).2 }

end PoolState

namespace Pool

def places (p : Pool) (t : TrustThread) : Nat :=
  p.freeThreadVector.count t + p.unallocatedThreads.count t + (p.threadList.map Prod.snd).count t
    + p.utilityThread.toList.count t

variable {p p' : Pool} {h : HostId} {t : TrustThread}

theorem places_addToFreeThreadVector (x : TrustThread) :
    (p.addToFreeThreadVector t).places x = p.places x + [t].count x := by
  simp only [places, addToFreeThreadVector, count_append]
  omega

theorem getFreeThread_eq_some (hfree : p.getFreeThread = some (t, p')) :
    ∃ free, p.freeThreadVector = free ++ [t] ∧ p' = { p with freeThreadVector := free } := by
  unfold getFreeThread at hfree
  split at hfree
  . cases hfree
  next last hlast =>
  cases hfree
  obtain ⟨free, hconcat⟩ := List.getLast?_eq_some_iff.1 hlast
  refine ⟨free, hconcat, ?_⟩
  rw [hconcat, dropLast_concat]

theorem threadList_bindThread (hnew : p.threadList.lookup h = none) :
    (p.bindThread h t).threadList.Perm ((h, t) :: p.threadList)
      ∧ { p.bindThread h t with threadList := p.threadList } = p := by
  unfold bindThread
  split
  . next hnil =>
    rw [hnil]
    exact ⟨List.Perm.refl _, by rw [← hnil]⟩
  next head rest hcons =>
  rw [hcons] at hnew
  rw [hcons, hnew, if_neg (by simp)]
  exact ⟨List.Perm.swap _ _ _, by rw [← hcons]⟩

theorem places_bindThread (hnew : p.threadList.lookup h = none) (x : TrustThread) :
    (p.bindThread h t).places x = p.places x + [t].count x := by
  obtain ⟨hperm, hrest⟩ := threadList_bindThread (t := t) hnew
  have hcount := (hperm.map Prod.snd).count_eq x
  have hfree := congrArg freeThreadVector hrest
  have hunallocated := congrArg unallocatedThreads hrest
  have hutility := congrArg utilityThread hrest
  dsimp only at hfree hunallocated hutility
  unfold places
  rw [hfree, hunallocated, hutility, hcount]
  simp only [map_cons, count_cons, count_nil]
  omega

variable {l : List (HostId × TrustThread)}

theorem perm_eraseP_of_lookup (hlookup : l.lookup h = some t) : l.Perm ((h, t) :: l.eraseP (·.1 = h)) := by
  induction l with
  | nil => cases hlookup
  | cons node rest ih =>
    obtain ⟨h', t'⟩ := node
    by_cases heq : h' = h
    . subst heq
      simp only [lookup_cons_self, Option.some.injEq] at hlookup
      subst hlookup
      rw [eraseP_cons_of_pos (by simp)]
    have hne : (h == h') = false := by
      rw [beq_eq_false_iff_ne]
      exact fun h => heq h.symm
    rw [lookup_cons, hne] at hlookup
    rw [eraseP_cons_of_neg (by simpa using heq)]
    exact ((ih hlookup).cons _).trans (List.Perm.swap _ _ _)

theorem lookup_eq_none_iff_notMem : l.lookup h = none ↔ h ∉ l.map Prod.fst := by
  rw [lookup_eq_none_iff]
  simp only [mem_map, not_exists, not_and, bne_iff_ne, ne_eq]
  constructor
  . intro hall node hnode heq
    exact hall node hnode heq.symm
  intro hall node hnode heq
  exact hall node hnode heq.symm

theorem count_collect {policy : TcsPolicy} {threadSet : List HostId}
    (hdead : policy = .bind → ∀ node ∈ l, node.1 ∉ threadSet → p.reference node.2 = 0) (x : TrustThread) :
    ((p.collect policy threadSet l).1.map Prod.snd).count x + (p.collect policy threadSet l).2.count x
      = (l.map Prod.snd).count x := by
  induction l with
  | nil => rfl
  | cons node rest ih =>
    obtain ⟨h, t⟩ := node
    have hrest := ih fun hbind node hnode => hdead hbind node (mem_cons_of_mem _ hnode)
    unfold collect
    dsimp only
    split
    . split
      . simp only [map_cons, count_cons]
        omega
      next hnot =>
      rw [if_pos (hdead rfl (h, t) (mem_cons_self ..) hnot)]
      simp only [map_cons, count_cons]
      omega
    . split
      . simp only [map_cons, count_cons]
        omega
      simp only [map_cons, count_cons]
      omega

theorem sublist_collect (policy : TcsPolicy) (threadSet : List HostId) (l : List (HostId × TrustThread)) :
    (p.collect policy threadSet l).1.Sublist l := by
  induction l with
  | nil => exact List.Sublist.refl _
  | cons node rest ih =>
    unfold collect
    dsimp only
    split
    . split
      . exact ih.cons_cons _
      . split <;> exact ih.cons _
    split
    . exact ih.cons _
    . exact ih.cons_cons _

theorem reference_of_notMem_collect {policy : TcsPolicy} {threadSet : List HostId}
    (hdead : policy = .bind → ∀ node ∈ l, node.1 ∉ threadSet → p.reference node.2 = 0)
    {node : HostId × TrustThread} (hmem : node ∈ l) (hnot : node ∉ (p.collect policy threadSet l).1) :
    p.reference node.2 = 0 := by
  induction l with
  | nil => cases hmem
  | cons first rest ih =>
    obtain ⟨h, t⟩ := first
    have hrest := fun hbind node hnode => hdead hbind node (mem_cons_of_mem _ hnode)
    unfold collect at hnot
    dsimp only at hnot
    rcases mem_cons.1 hmem with rfl | hmem
    . split at hnot
      . split at hnot
        . exact absurd (mem_cons_self ..) hnot
        . next hnotin => exact hdead rfl _ (mem_cons_self ..) hnotin
      split at hnot
      . assumption
      . exact absurd (mem_cons_self ..) hnot
    apply ih hrest hmem
    intro hin
    apply hnot
    split
    . split
      . exact mem_cons_of_mem _ hin
      . split <;> exact hin
    split
    . exact hin
    . exact mem_cons_of_mem _ hin

end Pool

end Urts
