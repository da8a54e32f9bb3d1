import Mathlib.Data.List.Nodup
import SrasMage.Urts.ThreadPool

/-!
This module contains what holds in every run of the pool of trusted threads.
-/

namespace Urts

open Prod List Function

namespace PoolState

variable {s : PoolState} {p p' : Pool} {h : HostId} {t : TrustThread} {policy : TcsPolicy}

def Owned (s : PoolState) (h : HostId) (t : TrustThread) : Prop :=
  s.pool.reference t = s.holds h t ∧ ∀ h', h' ≠ h → s.holds h' t = 0

def Idle (s : PoolState) (t : TrustThread) : Prop := s.pool.reference t = 0 ∧ ∀ h, s.holds h t = 0

theorem Idle.owned (hidle : s.Idle t) (h : HostId) : s.Owned h t :=
  ⟨by rw [hidle.1, hidle.2]; rfl, fun h' _ => hidle.2 h'⟩

theorem Owned.idle (howned : s.Owned h t) (hzero : s.pool.reference t = 0) : s.Idle t := by
  refine ⟨hzero, ?_⟩
  intro h'
  by_cases heq : h' = h
  . rw [howned.1] at hzero
    rw [heq]
    exact Int.ofNat_eq_zero.1 hzero
  . exact howned.2 h' heq

structure Inv (s : PoolState) : Prop where
  places : ∀ t, s.pool.places t = if t < s.pool.created then 1 else 0
  keys : (s.pool.threadList.map fst).Nodup
  bound : ∀ node ∈ s.pool.threadList, s.Owned node.1 node.2
  unbound : ∀ t, t ∉ s.pool.threadList.map snd → s.pool.utilityThread ≠ some t → s.Idle t
  utility : ∀ t, s.pool.utilityThread = some t → ∃ h, s.Owned h t

theorem Inv.places_le (hinv : Inv s) (t : TrustThread) : s.pool.places t ≤ 1 := by
  rw [hinv.places]
  split <;> omega

theorem count_utility (hutility : p.utilityThread = some t) : p.utilityThread.toList.count t = 1 := by
  rw [hutility]
  simp

theorem Inv.idle_of_count (hinv : Inv s)
    (hcount : 1 ≤ s.pool.freeThreadVector.count t + s.pool.unallocatedThreads.count t) : s.Idle t := by
  have hle := hinv.places_le t
  unfold Pool.places at hle
  apply hinv.unbound
  . rw [← count_eq_zero]
    omega
  intro hutility
  have := count_utility hutility
  omega

theorem Inv.utility_ne (hinv : Inv s) (hmem : (h, t) ∈ s.pool.threadList) : s.pool.utilityThread ≠ some t := by
  intro hutility
  have hle := hinv.places_le t
  have hone := count_utility hutility
  have hpos : 0 < (s.pool.threadList.map snd).count t := by
    apply count_pos_iff.2
    exact mem_map_of_mem (f := snd) hmem
  unfold Pool.places at hle
  omega

variable {threadSet : List HostId} {x : TrustThread} {h' : HostId}

theorem Inv.host_unique (hinv : Inv s) (hmem : (h, t) ∈ s.pool.threadList) (hmem' : (h', t) ∈ s.pool.threadList) :
    h' = h := by
  have hnodup : (s.pool.threadList.map snd).Nodup := by
    rw [nodup_iff_count_le_one]
    intro x
    have hle := hinv.places_le x
    unfold Pool.places at hle
    omega
  have heq := inj_on_of_nodup_map hnodup hmem' hmem rfl
  exact congrArg fst heq

structure Moves (s : PoolState) (p' : Pool) : Prop where
  places : ∀ t, p'.places t = s.pool.places t
  created : p'.created = s.pool.created
  reference : p'.reference = s.pool.reference
  utility : p'.utilityThread = s.pool.utilityThread
  keys : (p'.threadList.map fst).Nodup
  joins : ∀ node ∈ p'.threadList, node ∈ s.pool.threadList ∨ s.Idle node.2
  leaves : ∀ node ∈ s.pool.threadList, node ∈ p'.threadList ∨ s.Idle node.2

def withPool (s : PoolState) (p : Pool) : PoolState := { s with pool := p }

theorem idle_withPool (href : p.reference = s.pool.reference) : (s.withPool p).Idle t ↔ s.Idle t := by
  unfold Idle withPool
  rw [href]

theorem owned_withPool (href : p.reference = s.pool.reference) : (s.withPool p).Owned h t ↔ s.Owned h t := by
  unfold Owned withPool
  rw [href]

theorem Moves.refl (hinv : Inv s) : Moves s s.pool :=
  ⟨fun _ => rfl, rfl, rfl, rfl, hinv.keys, fun _ hnode => .inl hnode, fun _ hnode => .inl hnode⟩

theorem Moves.trans (hmoves : Moves s p) (hmoves' : Moves (s.withPool p) p') : Moves s p' where
  places t := (hmoves'.places t).trans (hmoves.places t)
  created := hmoves'.created.trans hmoves.created
  reference := hmoves'.reference.trans hmoves.reference
  utility := hmoves'.utility.trans hmoves.utility
  keys := hmoves'.keys
  joins := by
    intro node hnode
    rcases hmoves'.joins node hnode with hnode | hidle
    . exact hmoves.joins node hnode
    . exact .inr ((idle_withPool hmoves.reference).1 hidle)
  leaves := by
    intro node hnode
    rcases hmoves.leaves node hnode with hnode | hidle
    . rcases hmoves'.leaves node hnode with hnode | hidle
      . exact .inl hnode
      . exact .inr ((idle_withPool hmoves.reference).1 hidle)
    . exact .inr hidle

theorem Inv.moves (hinv : Inv s) (hmoves : Moves s p) : Inv (s.withPool p) where
  places t := by
    change p.places t = if t < p.created then 1 else 0
    rw [hmoves.places, hmoves.created, hinv.places]
  keys := hmoves.keys
  bound := by
    intro node hnode
    rw [owned_withPool hmoves.reference]
    rcases hmoves.joins node hnode with hnode | hidle
    . exact hinv.bound node hnode
    . exact hidle.owned _
  unbound := by
    intro t hnot hutility
    rw [idle_withPool hmoves.reference]
    by_cases hmem : t ∈ s.pool.threadList.map snd
    . obtain ⟨node, hnode, rfl⟩ := mem_map.1 hmem
      rcases hmoves.leaves node hnode with hnode | hidle
      . exact absurd (mem_map_of_mem hnode) hnot
      . exact hidle
    . apply hinv.unbound t hmem
      rw [← hmoves.utility]
      exact hutility
  utility := by
    intro t ht
    obtain ⟨h, howned⟩ := hinv.utility t (hmoves.utility ▸ ht)
    exact ⟨h, (owned_withPool hmoves.reference).2 howned⟩

def Collectable (policy : TcsPolicy) (s : PoolState) (threadSet : List HostId) : Prop :=
  policy = .bind → ∀ node ∈ s.pool.threadList, node.1 ∉ threadSet → s.pool.reference node.2 = 0

theorem Collectable.moves (hcollect : Collectable policy s threadSet) (hmoves : Moves s p) :
    Collectable policy (s.withPool p) threadSet := by
  intro hbind node hnode hnot
  change p.reference node.2 = 0
  rw [hmoves.reference]
  rcases hmoves.joins node hnode with hnode | hidle
  . exact hcollect hbind node hnode hnot
  . exact hidle.1

theorem moves_garbageCollect (hinv : Inv s) (hcollect : Collectable policy s threadSet) :
    Moves s (s.pool.garbageCollect policy threadSet).2 where
  places t := by
    have hcount := Pool.count_collect hcollect t
    unfold Pool.garbageCollect Pool.places
    dsimp only
    rw [count_append]
    omega
  created := rfl
  reference := rfl
  utility := rfl
  keys := ((Pool.sublist_collect policy threadSet s.pool.threadList).map fst).nodup hinv.keys
  joins node hnode := .inl ((Pool.sublist_collect policy threadSet s.pool.threadList).subset hnode)
  leaves := by
    intro node hnode
    by_cases hkept : node ∈ (s.pool.collect policy threadSet s.pool.threadList).1
    . exact .inl hkept
    . exact .inr ((hinv.bound node hnode).idle (Pool.reference_of_notMem_collect hcollect hnode hkept))

theorem moves_newThread (hinv : Inv s) (made : Bool) : Moves s (s.pool.newThread made).2 := by
  unfold Pool.newThread
  split
  . exact Moves.refl hinv
  split
  . exact Moves.refl hinv
  next t hlast =>
  split
  . obtain ⟨rest, hconcat⟩ := List.getLast?_eq_some_iff.1 hlast
    refine ⟨?_, rfl, rfl, rfl, hinv.keys, fun _ hnode => .inl hnode, fun _ hnode => .inl hnode⟩
    intro x
    unfold Pool.places Pool.addToFreeThreadVector
    dsimp only
    rw [hconcat, dropLast_concat, count_append, count_append]
    omega
  . exact Moves.refl hinv

theorem moves_fillTcsMiniPool (hinv : Inv s) (made : List Bool) : Moves s (s.pool.fillTcsMiniPool made) := by
  induction made generalizing s with
  | nil => exact Moves.refl hinv
  | cons first rest ih =>
    unfold Pool.fillTcsMiniPool
    split
    . have hnew := moves_newThread hinv first
      dsimp only
      split
      . exact hnew.trans (ih (hinv.moves hnew))
      . exact hnew
    . exact Moves.refl hinv

theorem moves_bindFree (hinv : Inv s) (hnew : s.pool.threadList.lookup h = none)
    (hfree : s.pool.getFreeThread = some (t, p)) :
    Moves s (p.bindThread h t) ∧ (h, t) ∈ (p.bindThread h t).threadList := by
  obtain ⟨free, hconcat, hpool⟩ := Pool.getFreeThread_eq_some hfree
  have hlist : p.threadList = s.pool.threadList := by rw [hpool]
  have hidle : s.Idle t := by
    apply hinv.idle_of_count
    rw [hconcat, count_append, count_singleton_self]
    omega
  have hnew' : p.threadList.lookup h = none := by rw [hlist, hnew]
  obtain ⟨hperm, hrest⟩ := Pool.threadList_bindThread (t := t) hnew'
  rw [hlist] at hperm
  refine ⟨⟨?_, ?_, ?_, ?_, ?_, ?_, ?_⟩, hperm.mem_iff.2 (mem_cons_self ..)⟩
  . intro x
    rw [Pool.places_bindThread hnew', hpool]
    unfold Pool.places
    dsimp only
    rw [hconcat, count_append]
    omega
  . exact (congrArg Pool.created hrest).trans (by rw [hpool])
  . exact (congrArg Pool.reference hrest).trans (by rw [hpool])
  . exact (congrArg Pool.utilityThread hrest).trans (by rw [hpool])
  . rw [(hperm.map fst).nodup_iff, map_cons, nodup_cons]
    exact ⟨Pool.lookup_eq_none_iff_notMem.1 hnew, hinv.keys⟩
  . intro node hnode
    rcases mem_cons.1 (hperm.mem_iff.1 hnode) with rfl | hnode
    . exact .inr hidle
    . exact .inl hnode
  . intro node hnode
    exact .inl (hperm.mem_iff.2 (mem_cons_of_mem _ hnode))

def Gets (s : PoolState) (h : HostId) (r : Option TrustThread × Pool) : Prop :=
  Moves s r.2 ∧ ∀ t, r.1 = some t → (h, t) ∈ r.2.threadList

theorem gets_takeFreeThread (hinv : Inv s) (hnew : s.pool.threadList.lookup h = none)
    (hcollect : Collectable policy s threadSet) : Gets s h (s.pool.takeFreeThread policy threadSet h) := by
  unfold Pool.takeFreeThread
  split
  . next t p hfree =>
    obtain ⟨hmoves, hmem⟩ := moves_bindFree hinv hnew hfree
    refine ⟨hmoves, ?_⟩
    intro t' ht'
    cases ht'
    exact hmem
  have hmoves := moves_garbageCollect hinv hcollect
  dsimp only
  split
  . exact ⟨hmoves, fun _ hnone => by cases hnone⟩
  split
  . next t p hfree =>
    have hnew' : (s.pool.garbageCollect policy threadSet).2.threadList.lookup h = none := by
      rw [Pool.lookup_eq_none_iff_notMem] at hnew ⊢
      intro hmem
      apply hnew
      exact ((Pool.sublist_collect policy threadSet s.pool.threadList).map fst).subset hmem
    obtain ⟨hmoves', hmem⟩ := moves_bindFree (hinv.moves hmoves) hnew' hfree
    refine ⟨hmoves.trans hmoves', ?_⟩
    intro t' ht'
    cases ht'
    exact hmem
  . exact ⟨hmoves, fun _ hnone => by cases hnone⟩

theorem gets_acquireBound (hinv : Inv s) (hcollect : Collectable policy s threadSet) :
    Gets s h (s.pool.acquireBound policy threadSet h) := by
  unfold Pool.acquireBound Pool.getBoundThread
  split
  . next t hlookup =>
    have hmem : (h, t) ∈ s.pool.threadList :=
      (Pool.perm_eraseP_of_lookup hlookup).mem_iff.2 (mem_cons_self ..)
    rw [if_pos (hinv.utility_ne hmem)]
    refine ⟨Moves.refl hinv, ?_⟩
    intro t' ht'
    cases ht'
    exact hmem
  . next hnew => exact gets_takeFreeThread hinv hnew hcollect

theorem gets_acquireOther (hinv : Inv s) {env : Pool.Surroundings} (hcollect : Collectable policy s env.threadSet)
    (hcollect' : Collectable policy s env.threadSet') : Gets s h (s.pool.acquireOther policy h env) := by
  have hfirst := gets_acquireBound (h := h) hinv hcollect
  unfold Pool.acquireOther
  split
  . next t p hbound =>
    rw [hbound] at hfirst
    exact hfirst
  next p hbound =>
  rw [hbound] at hfirst
  have hmoves : Moves s p := hfirst.1
  split
  . have hfill := moves_fillTcsMiniPool (hinv.moves hmoves) env.made
    have hall : Moves s (p.fillTcsMiniPool env.made) := hmoves.trans hfill
    obtain ⟨hlast, hmem⟩ := gets_acquireBound (h := h) (hinv.moves hall) (hcollect'.moves hall)
    exact ⟨hall.trans hlast, hmem⟩
  . exact ⟨hmoves, fun _ hnone => by cases hnone⟩

theorem moves_unbindThread (hinv : Inv s)
    (hunused : ∀ t, s.pool.threadList.lookup h = some t → s.pool.reference t = 0) :
    Moves s (s.pool.unbindThread h) ∧ (s.pool.unbindThread h).threadList.lookup h = none := by
  unfold Pool.unbindThread
  split
  . next hnone => exact ⟨Moves.refl hinv, hnone⟩
  next t hlookup =>
  have hperm := Pool.perm_eraseP_of_lookup hlookup
  have hzero := hunused t hlookup
  have hkeys := hinv.keys
  rw [(hperm.map fst).nodup_iff, map_cons, nodup_cons] at hkeys
  refine ⟨⟨?_, rfl, ?_, rfl, hkeys.2, ?_, ?_⟩, Pool.lookup_eq_none_iff_notMem.2 hkeys.1⟩
  . intro x
    have hcount := (hperm.map snd).count_eq x
    rw [map_cons, count_cons] at hcount
    dsimp only at hcount
    unfold Pool.places Pool.addToFreeThreadVector Pool.setReference
    dsimp only
    rw [count_append, hcount, count_cons, count_nil]
    omega
  . change update s.pool.reference t 0 = s.pool.reference
    rw [← hzero, update_eq_self]
  . intro node hnode
    exact .inl (hperm.mem_iff.2 (mem_cons_of_mem _ hnode))
  . intro node hnode
    rcases mem_cons.1 (hperm.mem_iff.1 hnode) with rfl | hmem
    . exact .inr ((hinv.bound _ hnode).idle hzero)
    . exact .inl hmem

theorem Inv.bindUtility (hinv : Inv s) (hnew : s.pool.threadList.lookup h = none)
    (hutility : s.pool.utilityThread = some t) (howned : s.Owned h t) :
    Inv (s.withPool { s.pool.bindThread h t with utilityThread := none })
      ∧ (h, t) ∈ (s.pool.bindThread h t).threadList := by
  obtain ⟨hperm, hrest⟩ := Pool.threadList_bindThread (t := t) hnew
  have href := congrArg Pool.reference hrest
  have hcreated := congrArg Pool.created hrest
  have hsame := (congrArg Pool.utilityThread hrest).trans hutility
  dsimp only at href hcreated hsame
  refine ⟨⟨?_, ?_, ?_, ?_, ?_⟩, hperm.mem_iff.2 (mem_cons_self ..)⟩
  . intro x
    have hplaces := Pool.places_bindThread (t := t) hnew x
    have hone := hinv.places x
    unfold withPool
    dsimp only
    rw [hcreated, ← hone]
    unfold Pool.places at hplaces ⊢
    rw [hsame, hutility] at hplaces
    rw [hutility]
    simp only [Option.toList_some, Option.toList_none, count_nil] at hplaces ⊢
    omega
  . change ((s.pool.bindThread h t).threadList.map fst).Nodup
    rw [(hperm.map fst).nodup_iff, map_cons, nodup_cons]
    exact ⟨Pool.lookup_eq_none_iff_notMem.1 hnew, hinv.keys⟩
  . intro node hnode
    apply (owned_withPool href).2
    rcases mem_cons.1 (hperm.mem_iff.1 hnode) with rfl | hmem
    . exact howned
    . exact hinv.bound node hmem
  . intro x hnot _
    apply (idle_withPool href).2
    change x ∉ (s.pool.bindThread h t).threadList.map snd at hnot
    rw [(hperm.map snd).mem_iff, map_cons, mem_cons, not_or] at hnot
    apply hinv.unbound x hnot.2
    rw [hutility]
    intro heq
    exact hnot.1 (Option.some.inj heq).symm
  . intro x hx
    cases hx

def Serves (s : PoolState) (h : HostId) (t : TrustThread) : Prop :=
  s.Owned h t ∧ ((h, t) ∈ s.pool.threadList ∨ s.pool.utilityThread = some t)

theorem Inv.host_of_serves (hinv : Inv s) (hserves : s.Serves h t) (hmem : (h', t) ∈ s.pool.threadList) : h' = h := by
  rcases hserves.2 with hbound | hutility
  . exact hinv.host_unique hbound hmem
  . exact absurd hutility (hinv.utility_ne hmem)

def use (s : PoolState) (h : HostId) (t : TrustThread) (n : Nat) : PoolState :=
  { s with pool := s.pool.setReference t n }.setHolds h t n

theorem owned_use (howned : s.Owned h t) (n : Nat) : (s.use h t n).Owned h t := by
  refine ⟨?_, ?_⟩
  . simp [use, setHolds, Pool.setReference]
  intro h' hne
  simp only [use, setHolds, update_of_ne hne]
  exact howned.2 h' hne

theorem reference_use_of_ne (hne : x ≠ t) (n : Nat) : (s.use h t n).pool.reference x = s.pool.reference x := by
  simp [use, setHolds, Pool.setReference, update_of_ne hne]

theorem holds_use_of_ne (hne : x ≠ t) (n : Nat) (h' : HostId) : (s.use h t n).holds h' x = s.holds h' x := by
  by_cases heq : h' = h
  . subst heq
    simp [use, setHolds, update_of_ne hne]
  . simp [use, setHolds, update_of_ne heq]

theorem owned_use_of_ne (hne : x ≠ t) (n : Nat) : (s.use h t n).Owned h' x ↔ s.Owned h' x := by
  unfold Owned
  simp only [reference_use_of_ne hne, holds_use_of_ne hne]

theorem idle_use_of_ne (hne : x ≠ t) (n : Nat) : (s.use h t n).Idle x ↔ s.Idle x := by
  unfold Idle
  simp only [reference_use_of_ne hne, holds_use_of_ne hne]

theorem Inv.use (hinv : Inv s) (hserves : s.Serves h t) (n : Nat) : Inv (s.use h t n) where
  places := hinv.places
  keys := hinv.keys
  bound := by
    rintro ⟨h', x⟩ hnode
    by_cases heq : x = t
    . subst heq
      rw [hinv.host_of_serves hserves hnode]
      exact owned_use hserves.1 n
    . exact (owned_use_of_ne heq n).2 (hinv.bound _ hnode)
  unbound := by
    intro x hnot hutility
    have hne : x ≠ t := by
      rintro rfl
      rcases hserves.2 with hmem | hmem
      . exact hnot (mem_map_of_mem (f := snd) hmem)
      . exact hutility hmem
    exact (idle_use_of_ne hne n).2 (hinv.unbound x hnot hutility)
  utility := by
    intro x hutility
    by_cases heq : x = t
    . subst heq
      exact ⟨h, owned_use hserves.1 n⟩
    obtain ⟨h', howned⟩ := hinv.utility x hutility
    exact ⟨h', (owned_use_of_ne heq n).2 howned⟩

theorem Inv.serves_of_holds (hinv : Inv s) (hholds : s.holds h t ≠ 0) : s.Serves h t := by
  have howner : ∀ h', s.Owned h' t → h = h' := by
    intro h' howned
    by_contra hne
    exact hholds (howned.2 h hne)
  by_cases hmem : t ∈ s.pool.threadList.map snd
  . obtain ⟨⟨h', t⟩, hnode, rfl⟩ := mem_map.1 hmem
    have howned := hinv.bound _ hnode
    obtain rfl := howner h' howned
    exact ⟨howned, .inl hnode⟩
  by_cases hutility : s.pool.utilityThread = some t
  . obtain ⟨h', howned⟩ := hinv.utility t hutility
    obtain rfl := howner h' howned
    exact ⟨howned, .inr hutility⟩
  . exact absurd ((hinv.unbound t hmem hutility).2 h) hholds

def Regular (policy : TcsPolicy) (s : PoolState) : PoolStep → Prop
  | .acquire h cmd env =>
    Collectable policy s env.threadSet ∧ Collectable policy s env.threadSet'
      ∧ ∀ u, cmd.isSpecial → s.pool.utilityThread = some u → (∀ h', h' ≠ h → s.holds h' u = 0)
            ∧ (cmd = .uninitEnclave → ∀ t, s.pool.threadList.lookup h = some t → s.pool.reference t = 0)
  | .collect threadSet => Collectable policy s threadSet
  | _ => True

def Outcome (s : PoolState) (h : HostId) (r : Option TrustThread × Pool) : Prop :=
  Inv (s.withPool r.2) ∧ ∀ t, r.1 = some t → (s.withPool r.2).Serves h t

theorem Gets.outcome {r : Option TrustThread × Pool} (hinv : Inv s) (hgets : Gets s h r) : Outcome s h r := by
  have hinv' := hinv.moves hgets.1
  refine ⟨hinv', ?_⟩
  intro t ht
  have hmem := hgets.2 t ht
  exact ⟨hinv'.bound _ hmem, .inl hmem⟩

theorem owned_utility (hinv : Inv s) (hutility : s.pool.utilityThread = some t)
    (hothers : ∀ h', h' ≠ h → s.holds h' t = 0) : s.Owned h t := by
  obtain ⟨owner, howned⟩ := hinv.utility t hutility
  refine ⟨?_, hothers⟩
  rw [howned.1]
  by_cases heq : owner = h
  . rw [heq]
  . rw [hothers owner heq, howned.2 h fun h => heq h.symm]

theorem outcome_acquireSpecial (hinv : Inv s) {cmd : EcallCmd} {env : Pool.Surroundings} (hspecial : cmd.isSpecial)
    (hregular : Regular policy s (.acquire h cmd env)) : Outcome s h (s.pool.acquireSpecial policy h cmd env) := by
  obtain ⟨hcollect, -, hutility⟩ := hregular
  unfold Pool.acquireSpecial
  split
  . next u hu =>
    obtain ⟨hothers, hunused⟩ := hutility u hspecial hu
    have howned := owned_utility hinv hu hothers
    split
    . next huninit =>
      obtain ⟨hmoves, hnew⟩ := moves_unbindThread hinv (hunused huninit)
      have hu' : (s.withPool (s.pool.unbindThread h)).pool.utilityThread = some u := hmoves.utility.trans hu
      have howned' := (owned_withPool hmoves.reference).2 howned
      obtain ⟨hlast, hmem⟩ := (hinv.moves hmoves).bindUtility hnew hu' howned'
      refine ⟨hlast, ?_⟩
      intro t ht
      cases ht
      exact ⟨hlast.bound _ hmem, .inl hmem⟩
    . refine ⟨hinv, ?_⟩
      intro t ht
      cases ht
      exact ⟨howned, .inr hu⟩
  . exact (gets_acquireBound hinv hcollect).outcome hinv

theorem Outcome.acquire {r : Option TrustThread × Pool} (houtcome : Outcome s h r) (hr : r.1 = some t) :
    Inv ({ s with pool := r.2.increaseRef t }.setHolds h t (s.holds h t + 1)) := by
  have hserves := houtcome.2 t hr
  have hown : r.2.reference t = s.holds h t := hserves.1.1
  have huse := houtcome.1.use hserves (s.holds h t + 1)
  unfold PoolState.use withPool at huse
  unfold Pool.increaseRef
  rw [hown]
  exact huse

theorem Inv.release (hinv : Inv s) (hholds : s.holds h t ≠ 0) :
    Inv ({ s with pool := s.pool.decreaseRef t }.setHolds h t (s.holds h t - 1)) := by
  have hserves := hinv.serves_of_holds hholds
  have huse := hinv.use hserves (s.holds h t - 1)
  have hcast : ((s.holds h t - 1 : Nat) : Int) = s.pool.reference t - 1 := by
    rw [hserves.1.1]
    omega
  unfold PoolState.use at huse
  rw [hcast] at huse
  exact huse

theorem Inv.idle_created (hinv : Inv s) : s.Idle s.pool.created := by
  have hnone := hinv.places s.pool.created
  rw [if_neg (Nat.lt_irrefl _)] at hnone
  unfold Pool.places at hnone
  apply hinv.unbound
  . rw [← count_eq_zero]
    omega
  intro hsome
  have := count_utility hsome
  omega

theorem Inv.addTo (hinv : Inv s) (hplaces : ∀ x, p.places x = s.pool.places x + [s.pool.created].count x)
    (hcreated : p.created = s.pool.created + 1) (href : p.reference = s.pool.reference)
    (hlist : p.threadList = s.pool.threadList)
    (hutility : p.utilityThread = s.pool.utilityThread
      ∨ s.pool.utilityThread = none ∧ p.utilityThread = some s.pool.created) : Inv (s.withPool p) := by
  refine ⟨?_, ?_, ?_, ?_, ?_⟩
  . intro x
    change p.places x = if x < p.created then 1 else 0
    rw [hplaces, hinv.places, hcreated, count_singleton]
    rcases Nat.lt_trichotomy x s.pool.created with hlt | rfl | hgt
    . rw [if_pos hlt, if_neg (by simpa using hlt.ne'), if_pos (Nat.lt_succ_of_lt hlt)]
    . rw [if_neg (Nat.lt_irrefl _), if_pos (by simp), if_pos (Nat.lt_succ_self _)]
    . rw [if_neg (Nat.lt_asymm hgt), if_neg (by simpa using hgt.ne), if_neg (Nat.not_lt_of_ge hgt)]
  . change (p.threadList.map fst).Nodup
    rw [hlist]
    exact hinv.keys
  . intro node hnode
    rw [owned_withPool href]
    change node ∈ p.threadList at hnode
    rw [hlist] at hnode
    exact hinv.bound node hnode
  . intro x hnot hother
    change x ∉ p.threadList.map snd at hnot
    change p.utilityThread ≠ some x at hother
    rw [hlist] at hnot
    rw [idle_withPool href]
    apply hinv.unbound x hnot
    rcases hutility with hsame | ⟨hempty, -⟩
    . rwa [hsame] at hother
    rw [hempty]
    simp
  . intro x hx
    change p.utilityThread = some x at hx
    rcases hutility with hsame | ⟨-, hnew⟩
    . obtain ⟨h, howned⟩ := hinv.utility x (hsame ▸ hx)
      exact ⟨h, (owned_withPool href).2 howned⟩
    rw [hnew] at hx
    cases hx
    exact ⟨0, (owned_withPool href).2 (hinv.idle_created.owned 0)⟩

theorem Inv.add (hinv : Inv s) (isUnallocated dynamic : Bool) :
    Inv (s.withPool (s.pool.addThread isUnallocated dynamic)) := by
  have href : update s.pool.reference s.pool.created 0 = s.pool.reference := by
    rw [← hinv.idle_created.1, update_eq_self]
  unfold Pool.addThread Pool.setReference
  dsimp only
  rw [href]
  split
  . refine hinv.addTo ?_ ?_ ?_ ?_ (.inl ?_)
    . intro x
      unfold Pool.places
      dsimp only
      rw [count_append]
      omega
    all_goals rfl
  split
  . next hdynamic =>
    rw [Bool.and_eq_true, Option.isNone_iff_eq_none] at hdynamic
    refine hinv.addTo ?_ ?_ ?_ ?_ (.inr ⟨hdynamic.2, ?_⟩)
    . intro x
      unfold Pool.places
      dsimp only
      rw [hdynamic.2, Option.toList_some, Option.toList_none, count_nil]
      omega
    all_goals rfl
  . refine hinv.addTo ?_ ?_ ?_ ?_ (.inl ?_)
    . intro x
      rw [Pool.places_addToFreeThreadVector]
      rfl
    all_goals rfl

theorem Inv.init (tcsMinPool : Nat) : Inv (PoolState.init tcsMinPool) where
  places t := (if_neg (Nat.not_lt_zero t)).symm
  keys := nodup_nil
  bound := by
    intro node hnode
    cases hnode
  unbound _ _ _ := ⟨rfl, fun _ => rfl⟩
  utility := by
    intro t ht
    cases ht

theorem Inv.step (hinv : Inv s) {e : PoolStep} {s' : PoolState} (hregular : Regular policy s e)
    (hstep : s.step policy e = some s') : Inv s' := by
  cases e with
  | acquire h cmd env =>
    have houtcome : Outcome s h (if cmd.isSpecial then s.pool.acquireSpecial policy h cmd env
        else s.pool.acquireOther policy h env) := by
      split
      . next hspecial => exact outcome_acquireSpecial hinv hspecial hregular
      . exact (gets_acquireOther hinv hregular.1 hregular.2.1).outcome hinv
    unfold PoolState.step Pool.acquireThread at hstep
    dsimp only at hstep
    revert houtcome hstep
    generalize (if cmd.isSpecial then s.pool.acquireSpecial policy h cmd env else s.pool.acquireOther policy h env) = r
    obtain ⟨t, p⟩ := r
    intro hstep houtcome
    cases t with
    | none =>
      cases hstep
      exact houtcome.1
    | some t =>
      cases hstep
      exact houtcome.acquire rfl
  | release h t =>
    unfold PoolState.step at hstep
    dsimp only at hstep
    split at hstep
    . cases hstep
    next hholds =>
    cases hstep
    exact hinv.release hholds
  | add isUnallocated dynamic =>
    cases hstep
    exact hinv.add isUnallocated dynamic
  | new made =>
    cases hstep
    exact hinv.moves (moves_newThread hinv made)
  | collect threadSet =>
    cases hstep
    exact hinv.moves (moves_garbageCollect hinv hregular)

structure Sound (s : PoolState) : Prop where
  places : ∀ t, t < s.pool.created → s.pool.places t = 1
  host : ∀ h h' t, 0 < s.holds h t → 0 < s.holds h' t → h = h'

theorem Inv.sound (hinv : Inv s) : Sound s where
  places t ht := by rw [hinv.places, if_pos ht]
  host := by
    intro h h' t hpos hpos'
    have hserves := hinv.serves_of_holds (Nat.pos_iff_ne_zero.1 hpos)
    by_contra hne
    have := hserves.1.2 h' fun heq => hne heq.symm
    omega

def Steps (policy : TcsPolicy) (s : PoolState) (e : PoolStep) (s' : PoolState) : Prop := s.step policy e = some s'

def RegularSteps (policy : TcsPolicy) (s : PoolState) (e : PoolStep) (s' : PoolState) : Prop :=
  Regular policy s e ∧ Steps policy s e s'

theorem Inv.reference_eq (hinv : Inv s) (t : TrustThread) :
    s.pool.reference t = 0 ∨ ∃ h, s.pool.reference t = s.holds h t := by
  by_cases hmem : t ∈ s.pool.threadList.map snd
  . obtain ⟨⟨h, t⟩, hnode, rfl⟩ := mem_map.1 hmem
    exact .inr ⟨h, (hinv.bound _ hnode).1⟩
  by_cases hutility : s.pool.utilityThread = some t
  . obtain ⟨h, howned⟩ := hinv.utility t hutility
    exact .inr ⟨h, howned.1⟩
  . exact .inl (hinv.unbound t hmem hutility).1

theorem holds_step_le {e : PoolStep} {s' : PoolState} (hstep : s.step policy e = some s') (h : HostId)
    (t : TrustThread) : s'.holds h t ≤ s.holds h t + 1 := by
  have hset : ∀ (s' : PoolState) h' t' n, n ≤ s'.holds h' t' + 1 →
      (s'.setHolds h' t' n).holds h t ≤ s'.holds h t + 1 := by
    intro s' h' t' n hn
    unfold setHolds
    rcases eq_or_ne h h' with rfl | hne
    . rcases eq_or_ne t t' with rfl | hne
      . simpa using hn
      . simp [hne]
    . simp [hne]
  unfold PoolState.step at hstep
  split at hstep
  . split at hstep
    . cases hstep
      exact Nat.le_succ _
    . cases hstep
      exact hset _ _ _ _ (le_refl _)
  . split at hstep
    . cases hstep
    . cases hstep
      exact hset _ _ _ _ (le_trans (Nat.sub_le _ _) (Nat.le_succ _))
  all_goals
    cases hstep
    exact Nat.le_succ _

theorem inv_of_run {tcsMinPool : Nat} {trace : List PoolStep}
    (hrun : Run (RegularSteps policy) (init tcsMinPool) trace s) : Inv s := by
  apply hrun.invariant (I := fun _ s => Inv s)
  . exact Inv.init tcsMinPool
  . intro _ s e s' hinv hstep
    exact hinv.step hstep.1 hstep.2

/--
`m_reference` is never negative and not above the number of calls, so that an `int` is enough for fewer than 2 ^ 31.
-/
theorem reference_le_of_run {tcsMinPool : Nat} {trace : List PoolStep}
    (hrun : Run (RegularSteps policy) (init tcsMinPool) trace s) (t : TrustThread) :
    0 ≤ s.pool.reference t ∧ s.pool.reference t ≤ trace.length := by
  have hholds : ∀ h, s.holds h t ≤ trace.length := by
    intro h
    apply hrun.invariant (I := fun trace s => s.holds h t ≤ trace.length)
    . exact Nat.zero_le _
    . intro trace s e s' hle hstep
      have := holds_step_le hstep.2 h t
      rw [length_append, length_singleton]
      omega
  rcases (inv_of_run hrun).reference_eq t with hzero | ⟨h, heq⟩
  . rw [hzero]
    omega
  . have := hholds h
    rw [heq]
    omega

/--
In every state of a run with regular steps, under both policies, each thread has one place and serves one host
thread.
-/
theorem run_sound {tcsMinPool : Nat} {trace : List PoolStep}
    (hrun : Run (RegularSteps policy) (init tcsMinPool) trace s) : Sound s := (inv_of_run hrun).sound

def withThreads (threadSet : List HostId) : Pool.Surroundings := ⟨threadSet, threadSet, []⟩

theorem regular_other (hcollect : Collectable policy s threadSet) :
    Regular policy s (.acquire h .other (withThreads threadSet)) :=
  ⟨hcollect, hcollect, fun _ hspecial => by cases hspecial⟩

def servedTrace : List PoolStep :=
  [.add false false, .acquire 1 .other (withThreads [1, 2]), .release 1 0, .acquire 2 .other (withThreads [2])]

theorem run_sound_servedTrace :
    ∃ s, Run (RegularSteps .bind) (init 0) servedTrace s ∧ s.holds 2 0 = 1 ∧ Sound s := by
  have hrun : ∃ s, Run (RegularSteps .bind) (init 0) servedTrace s ∧ s.holds 2 0 = 1 := by
    refine ⟨_, .cons ⟨trivial, rfl⟩ (.cons ⟨regular_other ?_, rfl⟩ (.cons ⟨trivial, rfl⟩
      (.cons ⟨regular_other ?_, rfl⟩ .nil))), rfl⟩
    . exact fun _ => by decide
    . exact fun _ => by decide
  obtain ⟨s, hrun, hholds⟩ := hrun
  exact ⟨s, hrun, hholds, run_sound hrun⟩

def deletedTrace : List PoolStep :=
  [.add false false, .acquire 1 .other (withThreads [1, 2]), .acquire 2 .other (withThreads [])]

def sharedTrace : List PoolStep :=
  [.add false true, .acquire 1 .initEnclave (withThreads [1, 2]), .acquire 2 .initEnclave (withThreads [1, 2])]

def resetTrace : List PoolStep :=
  [.add false true, .add false true, .acquire 1 .other (withThreads [1, 2]),
    .acquire 1 .uninitEnclave (withThreads [1, 2]), .acquire 2 .other (withThreads [1, 2])]

def Breaks (trace : List PoolStep) : Prop := ∃ s, Run (Steps .bind) (init 0) trace s ∧ ¬Sound s

theorem not_sound_traces : Breaks deletedTrace ∧ Breaks sharedTrace ∧ Breaks resetTrace := by
  have hshared : ∀ {s : PoolState} {t}, s.holds 1 t = 1 → s.holds 2 t = 1 → ¬Sound s := by
    intro s t h₁ h₂ hsound
    exact absurd (hsound.host 1 2 t (by omega) (by omega)) (by decide)
  refine ⟨⟨_, .cons rfl (.cons rfl (.cons rfl .nil)), ?_⟩, ⟨_, .cons rfl (.cons rfl (.cons rfl .nil)), ?_⟩,
    ⟨_, .cons rfl (.cons rfl (.cons rfl (.cons rfl (.cons rfl .nil)))), ?_⟩⟩
  . intro hsound
    exact absurd (hsound.places 0 (by decide)) (by decide)
  . exact hshared (t := 0) rfl rfl
  . exact hshared (t := 1) rfl rfl

end PoolState
end Urts
