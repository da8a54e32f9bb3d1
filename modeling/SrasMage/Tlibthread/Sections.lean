import SrasMage.Tlibthread.Basic

/-!
This module contains the invariant of the mutexes and condition variables, and what their sections do to the
lists that their queues stand for.
-/


namespace Tlibthread

variable {M C T : Type}

open LinkQueue List Function

inductive Obj (M C : Type)
  | mutex (m : M)
  | cond (c : C)
deriving DecidableEq

def State.head (s : State M C T) : Obj M C → Head T
  | .mutex m => (s.mutexes m).queue
  | .cond c => (s.conds c).queue

def Pc.place : Pc M C → Option (Obj M C)
  | .idle => none
  | .locking m _ => some (.mutex m)
  | .unlocking c _ => some (.cond c)
  | .waiting c _ => some (.cond c)
  | .relocking _ _ => none

structure Sound (s : State M C T) (q : Obj M C → List T) : Prop where
  family : Family s.next s.head q
  place : ∀ t o, t ∈ q o → (s.pc t).place = some o
  queued : ∀ t m within, s.pc t = .locking m within → t ∈ q (.mutex m)
  valid : ∀ m, (s.mutexes m).owner ≠ none ∨ q (.mutex m) ≠ [] → (s.mutexes m).Valid
  -- a thread does not wait for a recursive mutex that it has
  other : ∀ t m within, s.pc t = .locking m within → (s.mutexes m).control = mutexRecursive →
    (s.mutexes m).owner ≠ some t
  unlocking : ∀ t c m, s.pc t = .unlocking c m → (s.mutexes m).owner = some t

theorem Sound.init (control : M → Nat) (next : Links T) :
    Sound (State.init control next : State M C T) fun _ => [] where
  family := by
    refine ⟨fun o => ?_, fun _ => List.nodup_nil, fun _ _ _ h => absurd h List.not_mem_nil⟩
    cases o <;> exact reps_nil_iff.2 rfl
  place _ _ h := absurd h List.not_mem_nil
  queued _ _ _ h := nomatch h
  valid m h := absurd rfl (h.resolve_right fun hne => hne rfl)
  other _ _ _ h := nomatch h
  unlocking _ _ _ h := nomatch h

variable {s : State M C T} {q : Obj M C → List T} {t : T} {m : M} {c : C}

theorem Sound.reps (hs : Sound s q) (m : M) : Reps s.next (s.mutexes m).queue (q (.mutex m)) :=
  hs.family.reps (.mutex m)

theorem Sound.repsCond (hs : Sound s q) (c : C) : Reps s.next (s.conds c).queue (q (.cond c)) :=
  hs.family.reps (.cond c)

theorem Sound.first_eq (hs : Sound s q) (m : M) : (s.mutexes m).queue.first = (q (.mutex m)).head? :=
  (hs.reps m).first_eq

theorem Sound.not_mem (hs : Sound s q) (hpc : (s.pc t).place = none) (o : Obj M C) : t ∉ q o := fun h =>
  absurd ((hs.place t o h).symm.trans hpc) nofun

theorem Sound.not_mem_of_ne (hs : Sound s q) {o : Obj M C} (hpc : (s.pc t).place = some o) {o' : Obj M C}
    (hne : o' ≠ o) : t ∉ q o' := fun h => hne (Option.some.inj ((hs.place t o' h).symm.trans hpc))

theorem Sound.mem_iff (hs : Sound s q) : t ∈ q (.mutex m) ↔ ∃ within, s.pc t = .locking m within := by
  constructor
  . intro h
    have hplace := hs.place t _ h
    cases hpc : s.pc t with
    | locking m' within =>
      rw [hpc] at hplace
      cases hplace
      exact ⟨within, rfl⟩
    | _ => rw [hpc] at hplace; cases hplace
  . rintro ⟨within, h⟩
    exact hs.queued t m within h

section

variable [DecidableEq M] [DecidableEq C]

@[simp]
theorem head_setMutex (s : State M C T) (m : M) (mutex : Mutex T) :
    (s.setMutex m mutex).head = update s.head (.mutex m) mutex.queue := by
  funext o
  cases o with
  | mutex m' =>
    by_cases h : m' = m
    . subst h
      simp [State.head, State.setMutex]
    . simp [State.head, State.setMutex, h]
  | cond c' => simp [State.head, State.setMutex]

@[simp]
theorem head_setCond (s : State M C T) (c : C) (cond : Cond T) :
    (s.setCond c cond).head = update s.head (.cond c) cond.queue := by
  funext o
  cases o with
  | mutex m' => simp [State.head, State.setCond]
  | cond c' =>
    by_cases h : c' = c
    . subst h
      simp [State.head, State.setCond]
    . simp [State.head, State.setCond, h]

omit [DecidableEq C] in
theorem setMutex_self (s : State M C T) (m : M) : s.setMutex m (s.mutexes m) = s := by
  unfold State.setMutex
  rw [update_eq_self]

theorem head_setMutex_of_eq {mutex : Mutex T} (h : mutex.queue = (s.mutexes m).queue) :
    (s.setMutex m mutex).head = s.head := by
  rw [head_setMutex, h]
  exact update_eq_self (.mutex m) s.head

theorem head_setCond_of_eq {cond : Cond T} (h : cond.queue = (s.conds c).queue) : (s.setCond c cond).head = s.head := by
  rw [head_setCond, h]
  exact update_eq_self (.cond c) s.head

theorem Sound.change (hs : Sound s q) {s' : State M C T} {l' : List T}
    (hmutexes : ∀ m', m' ≠ m → s'.mutexes m' = s.mutexes m') (hpcs : ∀ u, u ≠ t → s'.pc u = s.pc u)
    (hfamily : Family s'.next s'.head (update q (.mutex m) l'))
    (hmem : ∀ u, u ≠ t → (u ∈ l' ↔ u ∈ q (.mutex m))) (hout : ∀ o, o ≠ .mutex m → t ∉ q o)
    (hplace : t ∈ l' → (s'.pc t).place = some (.mutex m))
    (hqueued : ∀ m' within, s'.pc t = .locking m' within → m' = m ∧ t ∈ l')
    (hvalid : (s'.mutexes m).owner ≠ none ∨ l' ≠ [] → (s'.mutexes m).Valid)
    (hother : ∀ u within, s'.pc u = .locking m within → (s'.mutexes m).control = mutexRecursive →
      (s'.mutexes m).owner ≠ some u)
    (hself : ∀ c m', s'.pc t ≠ .unlocking c m')
    (hunlocking : ∀ u c, s.pc u = .unlocking c m → u ≠ t → (s'.mutexes m).owner = some u) :
    Sound s' (update q (.mutex m) l') where
  family := hfamily
  place u o hu := by
    by_cases ho : o = .mutex m
    . subst ho
      rw [update_self] at hu
      by_cases hut : u = t
      . subst hut
        exact hplace hu
      rw [hpcs u hut]
      exact hs.place u _ ((hmem u hut).1 hu)
    . rw [update_of_ne ho] at hu
      have hut : u ≠ t := by
        rintro rfl
        exact hout o ho hu
      rw [hpcs u hut]
      exact hs.place u o hu
  queued u m' within hu := by
    by_cases hut : u = t
    . subst hut
      obtain ⟨rfl, hl⟩ := hqueued m' within hu
      rwa [update_self]
    rw [hpcs u hut] at hu
    have hq := hs.queued u m' within hu
    by_cases hm : m' = m
    . subst hm
      rw [update_self]
      exact (hmem u hut).2 hq
    . rwa [update_of_ne fun h => hm (Obj.mutex.inj h)]
  valid m' h := by
    by_cases hm : m' = m
    . subst hm
      rw [update_self] at h
      exact hvalid h
    rw [update_of_ne fun h => hm (Obj.mutex.inj h), hmutexes m' hm] at h
    rw [hmutexes m' hm]
    exact hs.valid m' h
  other u m' within hu hrec := by
    by_cases hm : m' = m
    . subst hm
      exact hother u within hu hrec
    have hut : u ≠ t := by
      rintro rfl
      exact hm (hqueued m' within hu).1
    rw [hpcs u hut] at hu
    rw [hmutexes m' hm] at hrec ⊢
    exact hs.other u m' within hu hrec
  unlocking u c m' hu := by
    have hut : u ≠ t := by
      rintro rfl
      exact hself c m' hu
    rw [hpcs u hut] at hu
    by_cases hm : m' = m
    . subst hm
      exact hunlocking u c hu hut
    rw [hmutexes m' hm]
    exact hs.unlocking u c m' hu

end

inductive LockMove (t : T) (mutex : Mutex T) (l : List T) : Option Errno → Mutex T → List T → Prop
  | invalid (hinvalid : ¬mutex.Valid) : LockMove t mutex l (some .einval) mutex l
  | again (hrec : mutex.control = mutexRecursive) (howner : mutex.owner = some t) :
    LockMove t mutex l (some .ok) { mutex with refcount := mutex.refcount + 1 } l
  | first (hvalid : mutex.Valid) (howner : mutex.owner = none) {rest : List T} (hl : l = t :: rest) (queue : Head T) :
    LockMove t mutex l (some .ok)
      { mutex with queue := queue, owner := some t, refcount := mutex.refcount + 1 } rest
  | free (hvalid : mutex.Valid) (howner : mutex.owner = none) (hl : l = []) :
    LockMove t mutex l (some .ok) { mutex with owner := some t, refcount := mutex.refcount + 1 } []
  | wait (hmem : t ∈ l) : LockMove t mutex l none mutex l
  | enqueue (hvalid : mutex.Valid) (hother : mutex.control = mutexRecursive → mutex.owner ≠ some t)
    (hbusy : mutex.owner = none → l ≠ []) (hmem : t ∉ l) (queue : Head T) :
    LockMove t mutex l none { mutex with queue := queue } (l ++ [t])

namespace LockMove

variable {t u : T} {mutex mutex' : Mutex T} {l l' : List T} {ret : Option Errno}

theorem control_eq (h : LockMove t mutex l ret mutex' l') : mutex'.control = mutex.control := by
  cases h <;> rfl

theorem owner_cases (h : LockMove t mutex l ret mutex' l') :
    mutex'.owner = mutex.owner ∨ mutex.owner = none ∧ mutex'.owner = some t ∧ ret = some .ok := by
  cases h with
  | first _ howner => exact .inr ⟨howner, rfl, rfl⟩
  | free _ howner => exact .inr ⟨howner, rfl, rfl⟩
  | _ => exact .inl rfl

theorem mem_iff (h : LockMove t mutex l ret mutex' l') (hu : u ≠ t) : u ∈ l' ↔ u ∈ l := by
  cases h with
  | first _ _ hl => simp [hl, hu]
  | free _ _ hl => simp [hl]
  | enqueue => simp [hu]
  | _ => rfl

theorem mem_of_none (h : LockMove t mutex l none mutex' l') : t ∈ l' := by
  cases h with
  | wait hmem => exact hmem
  | enqueue => simp

theorem sublist {err : Errno} (h : LockMove t mutex l (some err) mutex' l') : l'.Sublist l := by
  cases h with
  | first _ _ hl =>
    rw [hl]
    exact sublist_cons_self _ _
  | free => exact nil_sublist _
  | _ => exact List.Sublist.refl _

theorem valid_or (h : LockMove t mutex l ret mutex' l') : mutex.Valid ∨ mutex' = mutex ∧ l' = l := by
  cases h with
  | invalid => exact .inr ⟨rfl, rfl⟩
  | again hrec => exact .inl (.inl hrec)
  | first hvalid => exact .inl hvalid
  | free hvalid => exact .inl hvalid
  | wait => exact .inr ⟨rfl, rfl⟩
  | enqueue hvalid => exact .inl hvalid

end LockMove

variable [DecidableEq T] {t : T} {next : Links T} {mutex mutex' : Mutex T} {l : List T} {err : Errno}

theorem acquire_some (hreps : Reps next mutex.queue l) (h : acquire next t mutex = some (err, mutex')) :
    ∃ l', LockMove t mutex l (some err) mutex' l' ∧ Reps next mutex'.queue l' := by
  have hfirst := hreps.first_eq
  unfold acquire at h
  split at h
  next hinvalid =>
    cases h
    exact ⟨l, .invalid hinvalid, hreps⟩
  next hvalid =>
    rw [not_not] at hvalid
    split at h
    next hagain =>
      cases h
      exact ⟨l, .again hagain.1 hagain.2, hreps⟩
    next =>
      split at h
      next hfree =>
        cases h
        by_cases hself : mutex.queue.first = some t
        . obtain ⟨rest, rfl⟩ : ∃ rest, l = t :: rest := by
            rw [hself] at hfirst
            exact ⟨l.tail, eq_cons_of_mem_head? hfirst.symm⟩
          refine ⟨rest, .first hvalid hfree.1 rfl _, ?_⟩
          dsimp only
          rw [if_pos hself]
          exact hreps.removeHead
        . obtain rfl : l = [] := by
            rw [hfree.2.resolve_left hself] at hfirst
            exact head?_eq_none_iff.1 hfirst.symm
          dsimp only
          rw [if_neg hself]
          exact ⟨[], .free hvalid hfree.1 rfl, hreps⟩
      next => cases h

theorem acquire_none (hreps : Reps next mutex.queue l) (h : acquire next t mutex = none) :
    mutex.Valid ∧ (mutex.control = mutexRecursive → mutex.owner ≠ some t) ∧ (mutex.owner = none → l ≠ []) := by
  unfold acquire at h
  split at h
  next => cases h
  next hvalid =>
    split at h
    next => cases h
    next hagain =>
      split at h
      next => cases h
      next hfree =>
        refine ⟨not_not.1 hvalid, fun hrec howner => hagain ⟨hrec, howner⟩, fun howner hl => hfree ⟨howner, .inr ?_⟩⟩
        rw [hreps.first_eq, hl]
        rfl

variable {s s' : State M C T} {q : Obj M C → List T} {m : M} {c : C}

variable {l' : List T} {within : Option C} {fuel : Nat} {res : Result M C T}

omit [DecidableEq T] in
theorem Sound.not_mem_of_some (hs : Sound s q) {ret : Option Errno}
    (hmove : LockMove t (s.mutexes m) (q (.mutex m)) ret mutex' l') (hret : ret.isSome) : t ∉ l' := by
  cases hmove with
  | invalid hinvalid => exact fun hmem => hinvalid (hs.valid m (.inr (ne_nil_of_mem hmem)))
  | again hrec howner =>
    intro hmem
    obtain ⟨within, hpc⟩ := hs.mem_iff.1 hmem
    exact hs.other t m within hpc hrec howner
  | first _ _ hl =>
    have hnodup := hs.family.nodup (.mutex m)
    rw [hl] at hnodup
    exact (nodup_cons.1 hnodup).1
  | free => exact not_mem_nil
  | wait => cases hret
  | enqueue => cases hret

omit [DecidableEq T] in
theorem Sound.not_mem_elsewhere (hs : Sound s q) (hpc : (s.pc t).place = none ∨ s.pc t = .locking m within)
    {o : Obj M C} (ho : o ≠ .mutex m) : t ∉ q o := by
  rcases hpc with hpc | hpc
  . exact hs.not_mem hpc o
  . exact hs.not_mem_of_ne (by rw [hpc]; rfl) ho

variable [DecidableEq M] [DecidableEq C]

theorem Sound.lockMove (hs : Sound s q) {ret : Option Errno} (hpc : (s.pc t).place = none ∨ s.pc t = .locking m within)
    (hmove : LockMove t (s.mutexes m) (q (.mutex m)) ret mutex' l')
    (hfamily : Family s'.next s'.head (update q (.mutex m) l'))
    (hmutexes : s'.mutexes = update s.mutexes m mutex')
    (hpcs : s'.pc = update s.pc t (if ret.isSome then .idle else .locking m within)) :
    Sound s' (update q (.mutex m) l') := by
  have hmutex : s'.mutexes m = mutex' := by rw [hmutexes, update_self]
  have hself : s'.pc t = if ret.isSome then .idle else .locking m within := by rw [hpcs, update_self]
  have hpc' : ∀ u, u ≠ t → s'.pc u = s.pc u := fun u hu => by rw [hpcs, update_of_ne hu]
  refine hs.change (t := t) (fun m' hm => by rw [hmutexes, update_of_ne hm]) hpc' hfamily
    (fun u hu => hmove.mem_iff hu) ?_ ?_ ?_ ?_ ?_ ?_ ?_
  . exact fun o ho => hs.not_mem_elsewhere hpc ho
  . intro hmem
    rw [hself, if_neg fun hret => hs.not_mem_of_some hmove hret hmem]
    rfl
  . intro m' within' hlocking
    rw [hself] at hlocking
    cases ret with
    | some err => cases hlocking
    | none =>
      cases hlocking
      exact ⟨rfl, hmove.mem_of_none⟩
  . rw [hmutex]
    intro hor
    rcases hmove.valid_or with hvalid | ⟨rfl, rfl⟩
    . unfold Mutex.Valid at *
      rwa [hmove.control_eq]
    . exact hs.valid m hor
  . intro u within' hlocking hrec howner
    rw [hmutex] at hrec howner
    rw [hmove.control_eq] at hrec
    by_cases hu : u = t
    . subst hu
      rw [hself] at hlocking
      cases hmove with
      | wait hmem =>
        obtain ⟨w, hw⟩ := hs.mem_iff.1 hmem
        exact hs.other u m w hw hrec howner
      | enqueue _ hother => exact hother hrec howner
      | _ => cases hlocking
    . rw [hpc' u hu] at hlocking
      rcases hmove.owner_cases with heq | ⟨-, hsome, -⟩
      . exact hs.other u m within' hlocking hrec (heq ▸ howner)
      . exact hu (Option.some.inj (howner.symm.trans hsome))
  . intro c m' hunlocking
    rw [hself] at hunlocking
    split at hunlocking <;> cases hunlocking
  . intro u c hunlocking _
    have howner := hs.unlocking u c m hunlocking
    rw [hmutex]
    rcases hmove.owner_cases with heq | ⟨hnone, -⟩
    . rw [heq, howner]
    rw [hnone] at howner
    cases howner

theorem Sound.lockTurn (hs : Sound s q) (hpc : (s.pc t).place = none ∨ s.pc t = .locking m within)
    (h : s.lockTurn fuel t m within = some (res, s')) :
    ∃ ret mutex' l', LockMove t (s.mutexes m) (q (.mutex m)) ret mutex' l' ∧
      res.returned = ret.map (State.lockReturn m · within) ∧ s'.mutexes = update s.mutexes m mutex' ∧
      s'.pc = update s.pc t (if ret.isSome then .idle else .locking m within) ∧
      Sound s' (update q (.mutex m) l') := by
  have hreps := hs.reps m
  unfold State.lockTurn mutexLock at h
  cases hacq : acquire s.next t (s.mutexes m) with
  | some r =>
    obtain ⟨err, mutex'⟩ := r
    rw [hacq] at h
    cases h
    obtain ⟨l', hmove, hreps'⟩ := acquire_some hreps hacq
    refine ⟨some err, mutex', l', hmove, rfl, rfl, rfl, hs.lockMove hpc hmove ?_ rfl rfl⟩
    change Family s.next (s.setMutex m mutex').head _
    rw [head_setMutex]
    exact hs.family.shorten hreps' hmove.sublist
  | none =>
    obtain ⟨hvalid, hother, hbusy⟩ := acquire_none hreps hacq
    rw [hacq] at h
    dsimp only at h
    cases hsearch : search s.next t fuel (s.mutexes m).queue.first with
    | none =>
      rw [hsearch] at h
      cases h
    | some found =>
      rw [hsearch] at h
      have hmem := search_eq_iff hreps.linked hsearch
      cases found with
      | true =>
        cases h
        have hmove : LockMove t (s.mutexes m) (q (.mutex m)) none (s.mutexes m) (q (.mutex m)) := .wait (hmem.1 rfl)
        refine ⟨none, _, _, hmove, rfl, rfl, rfl, hs.lockMove hpc hmove ?_ rfl rfl⟩
        change Family s.next (s.setMutex m (s.mutexes m)).head _
        rw [head_setMutex_of_eq rfl, update_eq_self]
        exact hs.family
      | false =>
        cases h
        have hnot : t ∉ q (.mutex m) := fun hin => absurd (hmem.2 hin) nofun
        have hmove := LockMove.enqueue hvalid hother hbusy hnot (insertTail s.next (s.mutexes m).queue t).2
        refine ⟨none, _, _, hmove, rfl, rfl, rfl, hs.lockMove hpc hmove ?_ rfl rfl⟩
        change Family _ (s.setMutex m { s.mutexes m with queue := _ }).head _
        rw [head_setMutex]
        exact hs.family.insertTail (o := .mutex m) fun o => by
          by_cases ho : o = .mutex m
          . rw [ho]
            exact hnot
          . exact hs.not_mem_elsewhere hpc ho

theorem Sound.trylock (hs : Sound s q) (hpc : s.pc t = .idle)
    (h : mutexTrylock s.next t (s.mutexes m) = (err, mutex')) :
    ∃ l', (LockMove t (s.mutexes m) (q (.mutex m)) (some err) mutex' l' ∨
        err = .ebusy ∧ mutex' = s.mutexes m ∧ l' = q (.mutex m)) ∧
      Sound (s.setMutex m mutex') (update q (.mutex m) l') := by
  unfold mutexTrylock at h
  cases hacq : acquire s.next t (s.mutexes m) with
  | some r =>
    rw [hacq] at h
    cases h
    obtain ⟨l', hmove, hreps'⟩ := acquire_some (hs.reps m) hacq
    have hplace : (s.pc t).place = none := by rw [hpc]; rfl
    refine ⟨l', .inl hmove, Sound.lockMove (C := C) hs (.inl hplace : _ ∨ s.pc t = .locking m none) hmove ?_ rfl ?_⟩
    . rw [head_setMutex]
      exact hs.family.shorten hreps' hmove.sublist
    . exact (Function.update_eq_self_iff.2 hpc.symm).symm
  | none =>
    rw [hacq] at h
    cases h
    refine ⟨_, .inr ⟨rfl, rfl, rfl⟩, ?_⟩
    rw [setMutex_self, update_eq_self]
    exact hs

inductive UnlockMove (t : T) (mutex : Mutex T) : Errno → Mutex T → Prop
  | refused {err : Errno} (herr : err ≠ .ok) (hno : mutex.Valid → mutex.owner ≠ some t) :
    UnlockMove t mutex err mutex
  | released (hvalid : mutex.Valid) (howner : mutex.owner = some t) :
    UnlockMove t mutex .ok
      { mutex with
        refcount := mutex.refcount - 1
        owner := if mutex.refcount - 1 = 0 then none else some t }

theorem mutexUnlockLazy_move (t : T) (mutex : Mutex T) :
    UnlockMove t mutex (mutexUnlockLazy t mutex).1 (mutexUnlockLazy t mutex).2.1 := by
  unfold mutexUnlockLazy
  split
  next hinvalid => exact .refused nofun fun hvalid => absurd hvalid hinvalid
  next hvalid =>
    rw [not_not] at hvalid
    split
    next howner => exact .refused nofun fun _ => by rw [howner]; exact nofun
    next =>
      split
      next howner => exact .refused nofun fun _ => howner
      next howner =>
        rw [not_not] at howner
        have hmove := UnlockMove.released hvalid howner
        split
        next hzero => rwa [if_pos hzero] at hmove
        next hzero =>
          rw [if_neg hzero] at hmove
          rwa [howner]

omit [DecidableEq T] in
theorem UnlockMove.queue_eq (h : UnlockMove t mutex err mutex') : mutex'.queue = mutex.queue := by
  cases h <;> rfl

section

variable (hs : Sound s q)
include hs

omit [DecidableEq C] in
theorem Sound.unlockMove (hmove : UnlockMove t (s.mutexes m) err mutex')
    (hnext : s'.next = s.next) (hhead : s'.head = s.head) (hmutexes : s'.mutexes = update s.mutexes m mutex')
    (hpcs : ∀ u, u ≠ t → s'.pc u = s.pc u) (hplace : (s'.pc t).place = (s.pc t).place)
    (hlocking : ∀ m' within, s'.pc t ≠ .locking m' within) (hself : ∀ c m', s'.pc t ≠ .unlocking c m') :
    Sound s' q := by
  have hother : ∀ m', m' ≠ m → s'.mutexes m' = s.mutexes m' := fun m' hm => by rw [hmutexes, update_of_ne hm]
  have hmutex : s'.mutexes m = mutex' := by rw [hmutexes, update_self]
  have hne : ∀ u m' within, s'.pc u = .locking m' within → u ≠ t := by
    rintro u m' within hu rfl
    exact hlocking m' within hu
  refine ⟨by rw [hnext, hhead]; exact hs.family, fun u o hu => ?_, fun u m' within hu => ?_, fun m' hor => ?_,
    fun u m' within hu hrec howner => ?_, fun u c m' hu => ?_⟩
  . by_cases hut : u = t
    . subst hut
      rw [hplace]
      exact hs.place u o hu
    . rw [hpcs u hut]
      exact hs.place u o hu
  . rw [hpcs u (hne u m' within hu)] at hu
    exact hs.queued u m' within hu
  . by_cases hm : m' = m
    . subst hm
      rw [hmutex] at hor ⊢
      cases hmove with
      | refused => exact hs.valid m' hor
      | released hvalid => exact hvalid
    . rw [hother m' hm] at hor ⊢
      exact hs.valid m' hor
  . rw [hpcs u (hne u m' within hu)] at hu
    by_cases hm : m' = m
    . subst hm
      rw [hmutex] at hrec howner
      cases hmove with
      | refused => exact hs.other u m' within hu hrec howner
      | released _ howner' =>
        dsimp only at howner
        split at howner
        . cases howner
        . exact hs.other u m' within hu hrec (howner'.trans howner)
    . rw [hother m' hm] at hrec howner
      exact hs.other u m' within hu hrec howner
  . have hut : u ≠ t := by
      rintro rfl
      exact hself c m' hu
    rw [hpcs u hut] at hu
    have howner := hs.unlocking u c m' hu
    by_cases hm : m' = m
    . subst hm
      rw [hmutex]
      cases hmove with
      | refused => exact howner
      | released _ howner' => exact absurd (Option.some.inj (howner.symm.trans howner')) hut
    . rw [hother m' hm]
      exact howner

theorem Sound.unlock (hpc : s.pc t = .idle) (hmove : UnlockMove t (s.mutexes m) err mutex') :
    Sound (s.setMutex m mutex') q :=
  hs.unlockMove hmove rfl (head_setMutex_of_eq hmove.queue_eq) rfl (fun _ _ => rfl) rfl
    (fun _ _ h => absurd (hpc.symm.trans h) nofun) (fun _ _ h => absurd (hpc.symm.trans h) nofun)

omit [DecidableEq T] in
theorem Sound.destroy (hpc : s.pc t = .idle) : Sound (s.setMutex m (mutexDestroy (s.mutexes m)).2) q := by
  unfold mutexDestroy
  split
  . rw [setMutex_self]
    exact hs
  next h =>
    rw [not_or, not_not, not_not, hs.first_eq, head?_eq_none_iff] at h
    obtain ⟨howner, hempty⟩ := h
    have hreps : Reps s.next (s.mutexes m).queue [] := hempty ▸ hs.reps m
    have hmutex := fun mutex' : Mutex T => update_self m mutex' s.mutexes
    have hidle : (s.pc t).place = none := by rw [hpc]; rfl
    rw [← update_eq_self (.mutex m) q, hempty]
    refine hs.change (t := t) (m := m) (fun m' hm => update_of_ne hm _ _) (fun _ _ => rfl) ?_ ?_
      (fun o _ => hs.not_mem hidle o) nofun (fun m' within h => absurd (hpc.symm.trans h) nofun) ?_ ?_
      (fun c m' h => absurd (hpc.symm.trans h) nofun) ?_
    . rw [head_setMutex]
      exact hs.family.shorten hreps (nil_sublist _)
    . intro u _
      rw [hempty]
    . dsimp only [State.setMutex]
      rw [hmutex]
      exact fun h => absurd howner (h.resolve_right fun hne => hne rfl)
    . intro u within hu
      have hmem := hs.queued u m within hu
      rw [hempty] at hmem
      cases hmem
    . intro u c hu _
      have h := hs.unlocking u c m hu
      rw [howner] at h
      cases h

theorem Sound.changeCond (hmutexes : s'.mutexes = s.mutexes)
    (hpcs : ∀ u, u ≠ t → s'.pc u = s.pc u) (hfamily : Family s'.next s'.head (update q (.cond c) l'))
    (hmem : ∀ u ∈ l', u ∈ q (.cond c) ∨ u = t ∧ (s'.pc t).place = some (.cond c))
    (hself : s'.pc t = s.pc t ∨ (∀ o, t ∉ q o) ∧ ∀ m within, s'.pc t ≠ .locking m within)
    (hunlocking : ∀ c m, s'.pc t = .unlocking c m → (s.mutexes m).owner = some t) :
    Sound s' (update q (.cond c) l') := by
  have hplace : ∀ u o, u ∈ q o → (s'.pc u).place = some o := by
    intro u o hu
    by_cases hut : u = t
    . subst hut
      rw [hself.resolve_right fun h => h.1 o hu]
      exact hs.place u o hu
    . rw [hpcs u hut]
      exact hs.place u o hu
  have hlocking : ∀ u m within, s'.pc u = .locking m within → s.pc u = .locking m within := by
    intro u m within hu
    by_cases hut : u = t
    . subst hut
      rwa [hself.resolve_right fun h => h.2 m within hu] at hu
    . rwa [hpcs u hut] at hu
  have hmutex : ∀ m, update q (.cond c) l' (.mutex m) = q (.mutex m) := fun m =>
    update_of_ne (by simp) _ _
  refine ⟨hfamily, fun u o hu => ?_, fun u m within hu => ?_, fun m hor => ?_, fun u m within hu => ?_,
    fun u c' m hu => ?_⟩
  . by_cases ho : o = .cond c
    . subst ho
      rw [update_self] at hu
      rcases hmem u hu with hu | ⟨rfl, hu⟩
      . exact hplace u _ hu
      . exact hu
    . rw [update_of_ne ho] at hu
      exact hplace u o hu
  . rw [hmutex]
    exact hs.queued u m within (hlocking u m within hu)
  . rw [hmutex, hmutexes] at hor
    rw [hmutexes]
    exact hs.valid m hor
  . rw [hmutexes]
    exact hs.other u m within (hlocking u m within hu)
  . rw [hmutexes]
    by_cases hut : u = t
    . subst hut
      exact hunlocking c' m hu
    rw [hpcs u hut] at hu
    exact hs.unlocking u c' m hu

theorem Sound.condInsert (hpc : s.pc t = .idle) (howner : (s.mutexes m).owner = some t) :
    Sound (s.condInsert t c m).2 (update q (.cond c) (q (.cond c) ++ [t])) := by
  have hout : ∀ o, t ∉ q o := hs.not_mem (by rw [hpc]; rfl)
  have hself : (s.condInsert t c m).2.pc t = .unlocking c m := update_self _ _ _
  refine hs.changeCond (t := t) rfl (fun u hu => update_of_ne hu _ _) ?_ ?_ (.inr ⟨hout, ?_⟩) ?_
  . have hfamily := hs.family.insertTail (o := .cond c) hout
    change Family _ (s.setCond c ⟨true, _⟩).head _
    rw [head_setCond]
    exact hfamily
  . intro u hu
    rw [mem_append, mem_singleton] at hu
    exact hu.imp_right fun hut => ⟨hut, by rw [hself]; rfl⟩
  . rw [hself]
    exact nofun
  . intro c' m' h
    rw [hself] at h
    cases h
    exact howner

theorem Sound.setCond {cond : Cond T} (hreps : Reps s.next cond.queue l')
    (hsub : l'.Sublist (q (.cond c))) (t : T) : Sound (s.setCond c cond) (update q (.cond c) l') := by
  refine hs.changeCond (t := t) rfl (fun _ _ => rfl) ?_ (fun u hu => .inl (hsub.subset hu)) (.inl rfl)
    (fun c' m' h => hs.unlocking t c' m' h)
  rw [head_setCond]
  exact hs.family.shorten hreps hsub

theorem Sound.condSignal (t : T) : ∃ l', Sound (s.condSignal c).2 (update q (.cond c) l') := by
  unfold State.condSignal
  have hreps := hs.repsCond c
  split
  . exact ⟨_, by rw [update_eq_self]; exact hs⟩
  next waiter hfirst =>
    obtain ⟨rest, hl⟩ : ∃ rest, q (.cond c) = waiter :: rest := by
      rw [hreps.first_eq] at hfirst
      exact ⟨_, eq_cons_of_mem_head? hfirst⟩
    rw [hl] at hreps
    exact ⟨rest, hs.setCond hreps.removeHead (by rw [hl]; exact sublist_cons_self _ _) t⟩

theorem Sound.condBroadcast (t : T) {malloc : Bool}
    (h : s.condBroadcast fuel c malloc = some (res, s')) : ∃ l', Sound s' (update q (.cond c) l') := by
  have hstay : ∃ l', Sound s (update q (.cond c) l') := ⟨_, by rw [update_eq_self]; exact hs⟩
  unfold State.condBroadcast at h
  split at h
  . cases h
  . cases h
    exact hstay
  split at h
  . cases h
    exact hstay
  split at h
  . cases h
  cases h
  exact ⟨[], hs.setCond (reps_nil_iff.2 rfl) (nil_sublist _) t⟩

theorem Sound.condCheck (hpc : s.pc t = .waiting c m) (h : s.condCheck fuel t c m = some (res, s')) : Sound s' q := by
  unfold State.condCheck at h
  split at h
  . cases h
  . cases h
    exact hs
  next hsearch =>
    cases h
    have hnot : t ∉ q (.cond c) := fun hmem =>
      absurd ((search_eq_iff (hs.repsCond c).linked hsearch).2 hmem) nofun
    have hout : ∀ o, t ∉ q o := by
      intro o
      by_cases ho : o = .cond c
      . rw [ho]
        exact hnot
      . exact hs.not_mem_of_ne (by rw [hpc]; rfl) ho
    have hself : (s.setPc t (.relocking c m)).pc t = .relocking c m := update_self _ _ _
    rw [← update_eq_self (.cond c) q]
    refine hs.changeCond (t := t) rfl (fun u hu => update_of_ne hu _ _) ?_ (fun u hu => .inl hu)
      (.inr ⟨hout, by rw [hself]; exact nofun⟩) (by rw [hself]; exact nofun)
    rw [update_eq_self]
    exact hs.family

theorem Sound.condUnlock (hpc : s.pc t = .unlocking c m) :
    (s.condUnlock t c m).1.returned = none ∧ Sound (s.condUnlock t c m).2 q := by
  have howner := hs.unlocking t c m hpc
  have hvalid := hs.valid m (.inl (by rw [howner]; exact nofun))
  have hmove := mutexUnlockLazy_move t (s.mutexes m)
  rcases hres : mutexUnlockLazy t (s.mutexes m) with ⟨err, mutex', waiter⟩
  rw [hres] at hmove
  cases hmove with
  | refused _ hno => exact absurd howner (hno hvalid)
  | released =>
    unfold State.condUnlock
    rw [hres]
    have hself : ∀ s : State M C T, (s.setPc t (.waiting c m)).pc t = .waiting c m := fun _ =>
      update_self _ _ _
    refine ⟨rfl, hs.unlockMove (.released hvalid howner) rfl ?_ rfl (fun u hu => update_of_ne hu _ _) ?_ ?_ ?_⟩
    . change ((s.setMutex m _).setCond c _).head = _
      rw [head_setCond_of_eq, head_setMutex_of_eq] <;> rfl
    . rw [hself, hpc]
      rfl
    . rw [hself]
      exact nofun
    . rw [hself]
      exact nofun

end

end Tlibthread
