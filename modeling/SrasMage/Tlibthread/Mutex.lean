import SrasMage.Tlibthread.Sections

/-!
This module contains the mutexes in every run of `sgx_thread_mutex_lock`, `sgx_thread_mutex_trylock` and
`sgx_thread_mutex_unlock`.
-/


namespace Tlibthread

open LinkQueue List Option Function

variable {M C T : Type} [DecidableEq M] [DecidableEq C] [DecidableEq T]

def Obs.acquires (m : M) (t : T) (obs : Obs M C T) : Bool :=
  decide (obs.thread = t ∧ (obs.result.returned = some (.lock (some m), .ok) ∨
    obs.result.returned = some (.trylock (some m), .ok)))

def Obs.releases (m : M) (t : T) (obs : Obs M C T) : Bool :=
  decide (obs.thread = t ∧ obs.result.returned = some (.unlock (some m), .ok))

def held (m : M) (t : T) (trace : List (Obs M C T)) : Int :=
  (trace.countP (·.acquires m t) : Int) - (trace.countP (·.releases m t) : Int)

def arrivals (m : M) (trace : List (Obs M C T)) : List T :=
  trace.filterMap fun obs =>
    if obs.act = .lock (some m) ∧ obs.result.returned = none then some obs.thread else none

def served (m : M) (trace : List (Obs M C T)) : List T :=
  trace.filterMap fun obs =>
    if obs.act = .resume ∧ obs.result.returned = some (.lock (some m), .ok) then some obs.thread else none

def Act.isMutexCall : Act M C → Bool
  | .lock _ | .trylock _ | .unlock _ | .resume => true
  | _ => false

def Counts (s : State M C T) (t : T) : Act M C → Prop
  | .lock (some m) | .trylock (some m) => (s.mutexes m).control = mutexRecursive → (s.mutexes m).owner = some t →
    (s.mutexes m).refcount.toNat + 1 < 2 ^ 64
  | _ => True

instance (s : State M C T) (t : T) (act : Act M C) : Decidable (Counts s t act) :=
  match act with
  | .lock (some m) | .trylock (some m) => inferInstanceAs (Decidable ((s.mutexes m).control = mutexRecursive →
    (s.mutexes m).owner = some t → (s.mutexes m).refcount.toNat + 1 < 2 ^ 64))
  | .lock none | .trylock none | .unlock _ | .destroy _ | .condWait _ _ | .signal _ | .broadcast _ _
  | .condDestroy _ | .resume => isTrue trivial

def MutexStep (s : State M C T) (obs : Obs M C T) (s' : State M C T) : Prop :=
  Step s obs s' ∧ obs.act.isMutexCall ∧ Counts s obs.thread obs.act

def Mutex.depth (mutex : Mutex T) (t : T) : Int := if mutex.owner = some t then mutex.refcount.toNat else 0

def Mutex.Counted (mutex : Mutex T) : Prop := mutex.refcount = 0 ↔ mutex.owner = none

section

variable {t : T} {mutex mutex' : Mutex T} {l l' : List T} {ret : Option Errno} {err : Errno}

theorem toNat_succ {n : UInt64} (h : n.toNat + 1 < 2 ^ 64) : (n + 1).toNat = n.toNat + 1 := by
  rw [UInt64.toNat_add]
  exact Nat.mod_eq_of_lt h

theorem toNat_pred {n : UInt64} (h : n ≠ 0) : (n - 1).toNat + 1 = n.toNat := by
  have hpos : n.toNat ≠ 0 := fun hz => h (UInt64.toNat_inj.1 hz)
  have hle : (1 : UInt64) ≤ n := by
    rw [UInt64.le_iff_toNat_le]
    exact Nat.one_le_iff_ne_zero.2 hpos
  rw [UInt64.toNat_sub_of_le _ _ hle]
  exact Nat.sub_add_cancel (Nat.one_le_iff_ne_zero.2 hpos)

theorem depth_of_owner (u : T) (howner : mutex.owner = some t) :
    mutex.depth u = if u = t then (mutex.refcount.toNat : Int) else 0 := by
  unfold Mutex.depth
  rw [howner]
  by_cases hu : u = t
  . rw [if_pos (by rw [hu]), if_pos hu]
  . rw [if_neg fun h => hu (some.inj h).symm, if_neg hu]

theorem depth_of_none (u : T) (howner : mutex.owner = none) : mutex.depth u = 0 := by
  unfold Mutex.depth
  rw [howner, if_neg nofun]

omit [DecidableEq T] in
theorem counted_of_owner (howner : mutex.owner = some t) (hpos : 0 < mutex.refcount.toNat) : mutex.Counted := by
  constructor
  . intro hzero
    rw [hzero] at hpos
    cases hpos
  intro hnone
  rw [howner] at hnone
  cases hnone

theorem depth_of_taken (howner' : mutex'.owner = some t) (hcount : mutex'.refcount.toNat = mutex.refcount.toNat + 1)
    (hdepth : ∀ u, mutex.depth u = if u = t then (mutex.refcount.toNat : Int) else 0) :
    mutex'.Counted ∧ ∀ u, mutex'.depth u = mutex.depth u + if u = t then 1 else 0 := by
  refine ⟨counted_of_owner howner' (by omega), fun u => ?_⟩
  rw [depth_of_owner u howner', hdepth u, hcount]
  split <;> rfl

theorem LockMove.depth_eq (h : LockMove t mutex l ret mutex' l') (hcounted : mutex.Counted)
    (hfits : mutex.control = mutexRecursive → mutex.owner = some t → mutex.refcount.toNat + 1 < 2 ^ 64) :
    mutex'.Counted ∧ ∀ u, mutex'.depth u = mutex.depth u + if u = t ∧ ret = some .ok then 1 else 0 := by
  have hsame : ∀ {ret : Option Errno}, ret ≠ some .ok →
      ∀ u, mutex.depth u = mutex.depth u + if u = t ∧ ret = some .ok then 1 else 0 := by
    intro ret hret u
    rw [if_neg fun h => hret h.2, Int.add_zero]
  have hfree : mutex.owner = none → (mutex.refcount + 1).toNat = mutex.refcount.toNat + 1 ∧
      ∀ u, mutex.depth u = if u = t then (mutex.refcount.toNat : Int) else 0 := by
    intro howner
    refine ⟨by rw [hcounted.2 howner]; rfl, fun u => ?_⟩
    rw [depth_of_none u howner, hcounted.2 howner]
    split <;> rfl
  cases h with
  | invalid => exact ⟨hcounted, hsame nofun⟩
  | wait => exact ⟨hcounted, hsame nofun⟩
  | enqueue => exact ⟨hcounted, hsame nofun⟩
  | again hrec howner =>
    simp only [and_true]
    exact depth_of_taken howner (toNat_succ (hfits hrec howner)) (depth_of_owner · howner)
  | first _ howner =>
    simp only [and_true]
    exact depth_of_taken rfl (hfree howner).1 (hfree howner).2
  | free _ howner =>
    simp only [and_true]
    exact depth_of_taken rfl (hfree howner).1 (hfree howner).2

theorem UnlockMove.depth_eq (h : UnlockMove t mutex err mutex') (hcounted : mutex.Counted) :
    mutex'.Counted ∧ ∀ u, mutex'.depth u = mutex.depth u - if u = t ∧ err = .ok then 1 else 0 := by
  cases h with
  | refused herr =>
    refine ⟨hcounted, fun u => ?_⟩
    rw [if_neg fun h => herr h.2, Int.sub_zero]
  | released _ howner =>
    have hpos : mutex.refcount ≠ 0 := fun hzero => absurd (howner.symm.trans (hcounted.1 hzero)) nofun
    have hpred := toNat_pred hpos
    simp only [and_true]
    by_cases hzero : mutex.refcount - 1 = 0
    . simp only [if_pos hzero]
      refine ⟨⟨fun _ => rfl, fun _ => hzero⟩, fun u => ?_⟩
      rw [depth_of_none u rfl, depth_of_owner u howner, ← hpred, hzero]
      split <;> rfl
    simp only [if_neg hzero]
    refine ⟨⟨fun h => absurd h hzero, nofun⟩, fun u => ?_⟩
    rw [depth_of_owner u (t := t) rfl, depth_of_owner u howner, ← hpred]
    split
    . dsimp only
      omega
    . rfl

end

variable {s s' : State M C T} {q : Obj M C → List T} {obs : Obs M C T} {trace : List (Obs M C T)} {m : M} {t : T}

theorem held_snoc (m : M) (t : T) (trace : List (Obs M C T)) (obs : Obs M C T) : held m t (trace ++ [obs]) =
      held m t trace + (if obs.acquires m t then 1 else 0) - (if obs.releases m t then 1 else 0) := by
  unfold held
  rw [countP_append, countP_append, countP_singleton, countP_singleton]
  split <;> split <;> omega

omit [DecidableEq T] in
theorem arrivals_snoc (m : M) (trace : List (Obs M C T)) (obs : Obs M C T) :
    arrivals m (trace ++ [obs]) = arrivals m trace ++
      if obs.act = .lock (some m) ∧ obs.result.returned = none then [obs.thread] else [] := by
  unfold arrivals
  rw [filterMap_append, filterMap_cons, filterMap_nil]
  split <;> simp_all

omit [DecidableEq T] in
theorem served_snoc (m : M) (trace : List (Obs M C T)) (obs : Obs M C T) : served m (trace ++ [obs]) = served m trace ++
      if obs.act = .resume ∧ obs.result.returned = some (.lock (some m), .ok) then [obs.thread] else [] := by
  unfold served
  rw [filterMap_append, filterMap_cons, filterMap_nil]
  split <;> simp_all

def Starts (s : State M C T) (t : T) (m : M) (act : Act M C) : Prop :=
  s.pc t = .idle ∧ act = .lock (some m) ∨ s.pc t = .locking m none ∧ act = .resume

inductive Effect (s : State M C T) (q : Obj M C → List T) (obs : Obs M C T) (s' : State M C T)
    (q' : Obj M C → List T) : Prop
  | lock (m : M) {ret : Option Errno} {mutex' : Mutex T} {l' : List T} (hstart : Starts s obs.thread m obs.act)
    (hmove : LockMove obs.thread (s.mutexes m) (q (.mutex m)) ret mutex' l')
    (hres : obs.result.returned = ret.map fun err => (.lock (some m), err))
    (hmutexes : s'.mutexes = update s.mutexes m mutex')
    (hpcs : s'.pc = update s.pc obs.thread (if ret.isSome then .idle else .locking m none))
    (hq : q' = update q (.mutex m) l')
  | trylock (m : M) {err : Errno} {mutex' : Mutex T} (hact : obs.act = .trylock (some m))
    (hmove : LockMove obs.thread (s.mutexes m) (q (.mutex m)) (some err) mutex' (q (.mutex m)) ∨
      err = .ebusy ∧ mutex' = s.mutexes m)
    (hres : obs.result.returned = some (.trylock (some m), err))
    (hs : s' = s.setMutex m mutex') (hq : q' = q)
  | unlock (m : M) {err : Errno} {mutex' : Mutex T} (hact : obs.act = .unlock (some m))
    (hmove : UnlockMove obs.thread (s.mutexes m) err mutex')
    (hres : obs.result.returned = some (.unlock (some m), err))
    (hs : s' = s.setMutex m mutex') (hq : q' = q)
  | refused (call : Act M C) (hres : obs.result.returned = some (call, .einval)) (hs : s' = s) (hq : q' = q)

def Direct (s : State M C T) : Prop := ∀ t, s.pc t = .idle ∨ ∃ m, s.pc t = .locking m none

omit [DecidableEq T] in
theorem Sound.fifo_lock {m : M} (hs : Sound s q) {act : Act M C} (hstart : Starts s t m act) {ret : Option Errno}
    {mutex' : Mutex T} {l' : List T} (hmove : LockMove t (s.mutexes m) (q (.mutex m)) ret mutex' l') :
    (q (.mutex m) ++ if act = .lock (some m) ∧ ret = none then [t] else []) =
      (if act = .resume ∧ ret = some .ok then [t] else []) ++ l' := by
  rcases hstart with ⟨hpc, rfl⟩ | ⟨hpc, rfl⟩
  . have hnot : t ∉ q (.mutex m) := hs.not_mem (by rw [hpc]; rfl) _
    cases hmove with
    | first _ _ hl => exact absurd (hl ▸ mem_cons_self) hnot
    | wait hmem => exact absurd hmem hnot
    | free _ _ hl => simp [hl]
    | _ => simp
  have hmem : t ∈ q (.mutex m) := hs.queued t m none hpc
  cases hmove with
  | first _ _ hl => simp [hl]
  | wait => simp
  | enqueue _ _ _ hnot => exact absurd hmem hnot
  | free _ _ hl => exact absurd (hl ▸ hmem) not_mem_nil
  | invalid hinvalid => exact absurd hmem (hs.not_mem_of_some (.invalid hinvalid) rfl)
  | again hrec howner => exact absurd hmem (hs.not_mem_of_some (.again hrec howner) rfl)

omit [DecidableEq T] in
theorem Sound.queue_eq (hs : Sound s q) (hpc : s.pc t = .idle) {err : Errno} {mutex' : Mutex T} {l' : List T}
    (hmove : LockMove t (s.mutexes m) (q (.mutex m)) (some err) mutex' l') : l' = q (.mutex m) := by
  have hfifo := hs.fifo_lock (.inl ⟨hpc, rfl⟩ : Starts s t m (.lock (some m))) hmove
  simpa using hfifo.symm

theorem Sound.lockEffect (hs : Sound s q) {m : M} (hstart : Starts s obs.thread m obs.act) {fuel : Nat}
    (hturn : s.lockTurn fuel obs.thread m none = some (obs.result, s')) :
    ∃ q', Sound s' q' ∧ Effect s q obs s' q' := by
  have hpc : (s.pc obs.thread).place = none ∨ s.pc obs.thread = .locking m none :=
    hstart.imp (fun h => by rw [h.1]; rfl) (·.1)
  obtain ⟨ret, mutex', l', hmove, hres, hmutexes, hpcs, hs'⟩ := hs.lockTurn hpc hturn
  exact ⟨_, hs', .lock m hstart hmove hres hmutexes hpcs rfl⟩

theorem Sound.trylockEffect (hs : Sound s q) {m : M} (hpc : s.pc obs.thread = .idle)
    (hact : obs.act = .trylock (some m))
    (hres : obs.result.returned = some (.trylock (some m), (mutexTrylock s.next obs.thread (s.mutexes m)).1)) :
    ∃ q', Sound (s.setMutex m (mutexTrylock s.next obs.thread (s.mutexes m)).2) q' ∧
      Effect s q obs (s.setMutex m (mutexTrylock s.next obs.thread (s.mutexes m)).2) q' := by
  obtain ⟨l', hmove, hs'⟩ := hs.trylock (m := m) hpc rfl
  obtain rfl : l' = q (.mutex m) := by
    rcases hmove with hmove | ⟨-, -, hl⟩
    . exact hs.queue_eq hpc hmove
    . exact hl
  rw [update_eq_self] at hs'
  exact ⟨q, hs', .trylock m hact (hmove.imp_right fun h => ⟨h.1, h.2.1⟩) hres rfl rfl⟩

theorem Sound.effect (hs : Sound s q) (hdirect : Direct s) (hstep : Step s obs s')
    (hcall : obs.act.isMutexCall) : ∃ q', Sound s' q' ∧ Effect s q obs s' q' := by
  obtain ⟨fuel, hexec⟩ := hstep
  unfold State.exec at hexec
  rcases hdirect obs.thread with hpc | ⟨m', hpc⟩ <;> rw [hpc] at hexec
  . dsimp only [State.call] at hexec
    cases hact : obs.act with
    | lock p =>
      rw [hact] at hexec
      cases p with
      | none =>
        obtain ⟨hres, rfl⟩ := Prod.mk.inj (some.inj hexec)
        exact ⟨q, hs, .refused _ (by rw [← hres]; rfl) rfl rfl⟩
      | some m' => exact hs.lockEffect (.inl ⟨hpc, hact⟩) hexec
    | trylock p =>
      rw [hact] at hexec
      cases p with
      | none =>
        obtain ⟨hres, rfl⟩ := Prod.mk.inj (some.inj hexec)
        exact ⟨q, hs, .refused _ (by rw [← hres]; rfl) rfl rfl⟩
      | some m' =>
        obtain ⟨hres, rfl⟩ := Prod.mk.inj (some.inj hexec)
        exact hs.trylockEffect hpc hact (by rw [← hres]; rfl)
    | unlock p =>
      rw [hact] at hexec
      cases p with
      | none =>
        obtain ⟨hres, rfl⟩ := Prod.mk.inj (some.inj hexec)
        exact ⟨q, hs, .refused _ (by rw [← hres]; rfl) rfl rfl⟩
      | some m' =>
        obtain ⟨hres, rfl⟩ := Prod.mk.inj (some.inj hexec)
        have hmove := mutexUnlockLazy_move obs.thread (s.mutexes m')
        exact ⟨q, hs.unlock hpc hmove, .unlock m' hact hmove (by rw [← hres]) rfl rfl⟩
    | resume =>
      rw [hact] at hexec
      cases hexec
    | _ =>
      rw [hact] at hcall
      cases hcall
  . cases hact : obs.act with
    | resume =>
      rw [hact] at hexec
      exact hs.lockEffect (.inr ⟨hpc, hact⟩) hexec
    | _ =>
      rw [hact] at hexec
      cases hexec

structure Tracks (m : M) (trace : List (Obs M C T)) (s : State M C T) (q : Obj M C → List T) : Prop where
  sound : Sound s q
  direct : Direct s
  counted : (s.mutexes m).Counted
  held : ∀ t, held m t trace = (s.mutexes m).depth t
  fifo : arrivals m trace = served m trace ++ q (.mutex m)

theorem Tracks.other {q' : Obj M C → List T} (h : Tracks m trace s q) (hs : Sound s' q')
    (hdirect : Direct s') (hmutex : s'.mutexes m = s.mutexes m)
    (hq : q' (.mutex m) = q (.mutex m)) (hacquires : ∀ t, obs.acquires m t = false)
    (hreleases : ∀ t, obs.releases m t = false)
    (harrives : ¬(obs.act = .lock (some m) ∧ obs.result.returned = none))
    (hserved : ¬(obs.act = .resume ∧ obs.result.returned = some (.lock (some m), .ok))) :
    Tracks m (trace ++ [obs]) s' q' where
  sound := hs
  direct := hdirect
  counted := by rw [hmutex]; exact h.counted
  held t := by
    rw [held_snoc, hacquires, hreleases, hmutex, h.held]
    simp
  fifo := by
    rw [arrivals_snoc, served_snoc, if_neg harrives, if_neg hserved, hq, append_nil, append_nil]
    exact h.fifo

section

variable (h : Tracks m trace s q)
include h

theorem Tracks.lock {m' : M} {ret : Option Errno} {mutex' : Mutex T} {l' : List T}
    (hs' : Sound s' (update q (.mutex m') l')) (hcounts : Counts s obs.thread obs.act)
    (hstart : Starts s obs.thread m' obs.act)
    (hmove : LockMove obs.thread (s.mutexes m') (q (.mutex m')) ret mutex' l')
    (hres : obs.result.returned = ret.map fun err => (.lock (some m'), err))
    (hmutexes : s'.mutexes = update s.mutexes m' mutex')
    (hpcs : s'.pc = update s.pc obs.thread (if ret.isSome then .idle else .locking m' none)) :
    Tracks m (trace ++ [obs]) s' (update q (.mutex m') l') := by
  have hs := h.sound
  have hdirect : Direct s' := by
    intro t
    rw [hpcs]
    by_cases ht : t = obs.thread
    . rw [ht, update_self]
      cases ret with
      | none => exact .inr ⟨m', rfl⟩
      | some err => exact .inl rfl
    . rw [update_of_ne ht]
      exact h.direct t
  have hreleases : ∀ t, obs.releases m t = false := by
    intro t
    unfold Obs.releases
    rw [hres]
    cases ret <;> simp
  have hacquires : ∀ t, obs.acquires m t = decide (m' = m ∧ t = obs.thread ∧ ret = some .ok) := by
    intro t
    unfold Obs.acquires
    rw [hres]
    cases ret <;> simp [and_comm, and_left_comm, eq_comm]
  have hnone : obs.result.returned = none ↔ ret = none := by rw [hres, map_eq_none_iff]
  have hok : obs.result.returned = some (.lock (some m), .ok) ↔ m' = m ∧ ret = some .ok := by
    rw [hres]
    cases ret <;> simp
  by_cases hm : m' = m
  . subst hm
    have hfits : (s.mutexes m').control = mutexRecursive → (s.mutexes m').owner = some obs.thread →
        (s.mutexes m').refcount.toNat + 1 < 2 ^ 64 := by
      intro hrec howner
      rcases hstart with ⟨-, hact⟩ | ⟨hlocking, -⟩
      . rw [hact] at hcounts
        exact hcounts hrec howner
      . exact absurd howner (hs.other _ m' none hlocking hrec)
    obtain ⟨hcounted, hdepth⟩ := hmove.depth_eq h.counted hfits
    refine ⟨hs', hdirect, ?_, fun t => ?_, ?_⟩
    . rw [hmutexes, update_self]
      exact hcounted
    . rw [held_snoc, hreleases, hacquires, hmutexes, update_self, hdepth, h.held]
      simp
    . have hfifo := hs.fifo_lock hstart hmove
      simp only [arrivals_snoc, served_snoc, hnone, hok, true_and, update_self]
      rw [h.fifo, append_assoc, append_assoc, hfifo]
  . refine h.other hs' hdirect ?_ ?_ ?_ hreleases ?_ ?_
    . rw [hmutexes, update_of_ne (Ne.symm hm)]
    . rw [update_of_ne fun heq => hm (Obj.mutex.inj heq).symm]
    . intro t
      rw [hacquires]
      exact decide_eq_false fun hand => hm hand.1
    . rintro ⟨hact, -⟩
      rcases hstart with ⟨-, hact'⟩ | ⟨-, hact'⟩
      . exact hm (some.inj (Act.lock.inj (hact'.symm.trans hact)))
      . cases hact'.symm.trans hact
    . exact fun hand => hm (hok.1 hand.2).1

theorem Tracks.atOnce {m' : M} {mutex' : Mutex T} {call : Act M C} {err : Errno}
    (hs : Sound (s.setMutex m' mutex') q) (hres : obs.result.returned = some (call, err))
    (hcall : call = .trylock (some m') ∨ call = .unlock (some m'))
    (hdepth : m' = m → mutex'.Counted ∧ ∀ t, mutex'.depth t = (s.mutexes m).depth t +
      (if obs.acquires m t then 1 else 0) - (if obs.releases m t then 1 else 0)) :
    Tracks m (trace ++ [obs]) (s.setMutex m' mutex') q := by
  have harrives : ¬(obs.act = .lock (some m) ∧ obs.result.returned = none) := by
    rintro ⟨-, hnone⟩
    cases hres.symm.trans hnone
  have hserved : ¬(obs.act = .resume ∧ obs.result.returned = some (.lock (some m), .ok)) := by
    rintro ⟨-, hok⟩
    cases hres.symm.trans hok
    cases hcall <;> contradiction
  by_cases hm : m' = m
  . subst hm
    obtain ⟨hcounted, hdepth⟩ := hdepth rfl
    have hmutex : (s.setMutex m' mutex').mutexes m' = mutex' := update_self _ _ _
    refine ⟨hs, h.direct, by rw [hmutex]; exact hcounted, fun t => ?_, ?_⟩
    . rw [held_snoc, hmutex, hdepth, h.held]
    rw [arrivals_snoc, served_snoc, if_neg harrives, if_neg hserved, append_nil, append_nil]
    exact h.fifo
  refine h.other hs h.direct (update_of_ne (Ne.symm hm) _ _) rfl (fun t => ?_) (fun t => ?_) harrives hserved
  . unfold Obs.acquires
    rw [hres]
    rcases hcall with rfl | rfl <;> simp [hm]
  unfold Obs.releases
  rw [hres]
  rcases hcall with rfl | rfl <;> simp [hm]

theorem Tracks.trylock {m' : M} {mutex' : Mutex T} {err : Errno}
    (hs : Sound (s.setMutex m' mutex') q) (hcounts : Counts s obs.thread obs.act)
    (hact : obs.act = .trylock (some m'))
    (hmove : LockMove obs.thread (s.mutexes m') (q (.mutex m')) (some err) mutex' (q (.mutex m')) ∨
      err = .ebusy ∧ mutex' = s.mutexes m')
    (hres : obs.result.returned = some (.trylock (some m'), err)) :
    Tracks m (trace ++ [obs]) (s.setMutex m' mutex') q := by
  have hacquires : ∀ t, (obs.acquires m' t = true ↔ t = obs.thread ∧ err = .ok) := by
    intro t
    unfold Obs.acquires
    rw [hres]
    simp [eq_comm (a := obs.thread)]
  have hreleases : ∀ t, obs.releases m' t = false := by
    intro t
    unfold Obs.releases
    rw [hres]
    simp
  refine h.atOnce hs hres (.inl rfl) ?_
  rintro rfl
  rcases hmove with hmove | ⟨rfl, rfl⟩
  . rw [hact] at hcounts
    obtain ⟨hcounted, hdepth⟩ := hmove.depth_eq h.counted hcounts
    refine ⟨hcounted, fun t => ?_⟩
    rw [hdepth t]
    simp [hacquires, hreleases]
  . refine ⟨h.counted, fun t => ?_⟩
    simp [hacquires, hreleases]

theorem Tracks.unlock {m' : M} {mutex' : Mutex T} {err : Errno}
    (hs : Sound (s.setMutex m' mutex') q) (hres : obs.result.returned = some (.unlock (some m'), err))
    (hmove : UnlockMove obs.thread (s.mutexes m') err mutex') :
    Tracks m (trace ++ [obs]) (s.setMutex m' mutex') q := by
  refine h.atOnce hs hres (.inr rfl) ?_
  rintro rfl
  obtain ⟨hcounted, hdepth⟩ := hmove.depth_eq h.counted
  refine ⟨hcounted, fun t => ?_⟩
  have hacquires : obs.acquires m' t = false := by
    unfold Obs.acquires
    rw [hres]
    simp
  have hreleases : obs.releases m' t = true ↔ t = obs.thread ∧ err = .ok := by
    unfold Obs.releases
    rw [hres]
    simp [eq_comm (a := obs.thread)]
  rw [hdepth t]
  simp [hacquires, hreleases]

theorem Tracks.refused {call : Act M C}
    (hres : obs.result.returned = some (call, .einval)) : Tracks m (trace ++ [obs]) s q := by
  refine h.other h.sound h.direct rfl rfl (fun t => ?_) (fun t => ?_) ?_ ?_
  . unfold Obs.acquires
    rw [hres]
    simp
  . unfold Obs.releases
    rw [hres]
    simp
  . rw [hres]
    simp
  . rw [hres]
    simp

theorem Tracks.step (hstep : MutexStep s obs s') : ∃ q', Tracks m (trace ++ [obs]) s' q' := by
  obtain ⟨hstep, hcall, hcounts⟩ := hstep
  obtain ⟨q', hs', heffect⟩ := h.sound.effect h.direct hstep hcall
  refine ⟨q', ?_⟩
  cases heffect with
  | lock m' hstart hmove hres hmutexes hpcs hq =>
    subst hq
    exact h.lock hs' hcounts hstart hmove hres hmutexes hpcs
  | trylock m' hact hmove hres hs hq =>
    subst hs hq
    exact h.trylock hs' hcounts hact hmove hres
  | unlock m' hact hmove hres hs hq =>
    subst hs hq
    exact h.unlock hs' hres hmove
  | refused call hres hs hq =>
    subst hs hq
    exact h.refused hres

end

structure Exclusive (m : M) (trace : List (Obs M C T)) (s : State M C T) : Prop where
  one : ∀ t t', 0 < held m t trace → 0 < held m t' trace → t = t'
  owner_iff : ∀ t, 0 < held m t trace ↔ (s.mutexes m).owner = some t
  refcount_eq : ∀ t, (s.mutexes m).owner = some t → ((s.mutexes m).refcount.toNat : Int) = held m t trace
  refcount_zero_iff : (s.mutexes m).refcount = 0 ↔ (s.mutexes m).owner = none
  queue : ∃ l, Reps s.next (s.mutexes m).queue l ∧ l.Nodup ∧ (∀ t, t ∈ l ↔ s.pc t = .locking m none) ∧
    arrivals m trace = served m trace ++ l

structure Orderly (m : M) (s : State M C T) (obs : Obs M C T) (s' : State M C T) : Prop where
  release : ∀ t, (s.mutexes m).owner = some t → (s'.mutexes m).owner ≠ some t →
    obs.thread = t ∧ obs.act = .unlock (some m)
  unlock_ok : obs.result.returned = some (.unlock (some m), .ok) → (s.mutexes m).owner = some obs.thread
  acquire : ∀ t, obs.acquires m t → (s.mutexes m).owner = some t ∨
    (s.mutexes m).owner = none ∧ ((s.mutexes m).queue.first = none ∨ (s.mutexes m).queue.first = some t)

theorem Tracks.init (control : M → Nat) (next : Links T) (m : M) :
    Tracks m ([] : List (Obs M C T)) (State.init control next) fun _ => [] where
  sound := Sound.init control next
  direct _ := .inl rfl
  counted := ⟨fun _ => rfl, fun _ => rfl⟩
  held t := (depth_of_none t rfl).symm
  fifo := rfl

theorem Tracks.exclusive (h : Tracks m trace s q) : Exclusive m trace s := by
  have howner : ∀ t, 0 < Tlibthread.held m t trace ↔ (s.mutexes m).owner = some t := by
    intro t
    rw [h.held]
    constructor
    . intro hpos
      by_contra hno
      rw [Mutex.depth, if_neg hno] at hpos
      exact absurd hpos (Int.lt_irrefl 0)
    intro how
    have hne : (s.mutexes m).refcount.toNat ≠ 0 := fun hz =>
      absurd (how.symm.trans (h.counted.1 (UInt64.toNat_inj.1 hz))) nofun
    rw [Mutex.depth, if_pos how]
    omega
  refine ⟨fun t t' ht ht' => ?_, howner, fun t ht => ?_, h.counted, q (.mutex m), h.sound.reps m,
    h.sound.family.nodup _, fun t => ?_, h.fifo⟩
  . exact some.inj (((howner t).1 ht).symm.trans ((howner t').1 ht'))
  . rw [h.held, Mutex.depth, if_pos ht]
  rw [h.sound.mem_iff]
  constructor
  . rintro ⟨within, hpc⟩
    rcases h.direct t with hidle | ⟨m', hpc'⟩
    . cases hidle.symm.trans hpc
    cases hpc'.symm.trans hpc
    exact hpc
  . exact fun hpc => ⟨none, hpc⟩

omit [DecidableEq T] in
theorem LockMove.acquire_ok {mutex mutex' : Mutex T} {l l' : List T} {next : Links T}
    (hmove : LockMove t mutex l (some .ok) mutex' l') (hreps : Reps next mutex.queue l) :
    mutex.owner = some t ∨ mutex.owner = none ∧ (mutex.queue.first = none ∨ mutex.queue.first = some t) := by
  rw [hreps.first_eq]
  cases hmove with
  | again _ howner => exact .inl howner
  | first _ howner hl => exact .inr ⟨howner, .inr (by rw [hl]; rfl)⟩
  | free _ howner hl => exact .inr ⟨howner, .inl (by rw [hl]; rfl)⟩

theorem Tracks.orderly (h : Tracks m trace s q) (hstep : MutexStep s obs s') : Orderly m s obs s' := by
  obtain ⟨q', -, heffect⟩ := h.sound.effect h.direct hstep.1 hstep.2.1
  have hkeep : ∀ {m' mutex' ret l'}, LockMove obs.thread (s.mutexes m') (q (.mutex m')) ret mutex' l' →
      ∀ t, (s.mutexes m).owner = some t → (update s.mutexes m' mutex' m).owner = some t := by
    intro m' mutex' ret l' hmove t howner
    by_cases hm : m = m'
    . subst hm
      rw [update_self]
      rcases hmove.owner_cases with heq | ⟨hnone, -⟩
      . rw [heq, howner]
      . cases howner.symm.trans hnone
    . rwa [update_of_ne hm]
  cases heffect with
  | @lock m' ret _ _ _ hmove hres hmutexes =>
    refine ⟨fun t howner hno => ?_, fun hok => ?_, fun t hacq => ?_⟩
    . rw [hmutexes] at hno
      exact absurd (hkeep hmove t howner) hno
    . rw [hres] at hok
      cases ret <;> cases hok
    obtain ⟨rfl, hret⟩ := of_decide_eq_true hacq
    rw [hres] at hret
    cases ret with
    | none => rcases hret with hret | hret <;> cases hret
    | some err =>
      rcases hret with hret | hret <;> cases hret
      exact hmove.acquire_ok (h.sound.reps _)
  | trylock m' _ hmove hres hs =>
    subst hs
    refine ⟨fun t howner hno => ?_, fun hok => ?_, fun t hacq => ?_⟩
    . rcases hmove with hmove | ⟨-, rfl⟩
      . exact absurd (hkeep hmove t howner) hno
      rw [setMutex_self] at hno
      exact absurd howner hno
    . cases hres.symm.trans hok
    . obtain ⟨rfl, hret⟩ := of_decide_eq_true hacq
      rw [hres] at hret
      rcases hret with hret | hret <;> cases hret
      exact (hmove.resolve_right nofun).acquire_ok (h.sound.reps _)
  | unlock m' hact hmove hres hs =>
    subst hs
    refine ⟨fun t howner hno => ?_, fun hok => ?_, fun t hacq => ?_⟩
    . by_cases hm : m = m'
      . subst hm
        cases hmove with
        | refused =>
          rw [setMutex_self] at hno
          exact absurd howner hno
        | released _ howner' => exact ⟨some.inj (howner'.symm.trans howner), hact⟩
      . exact absurd ((congrArg Mutex.owner (update_of_ne hm _ _)).trans howner) hno
    . cases hres.symm.trans hok
      cases hmove with
      | refused herr => exact absurd rfl herr
      | released _ howner => exact howner
    . obtain ⟨-, hret⟩ := of_decide_eq_true hacq
      rw [hres] at hret
      rcases hret with hret | hret <;> cases hret
  | refused call hres hs =>
    subst hs
    refine ⟨fun t howner hno => absurd howner hno, fun hok => ?_, fun t hacq => ?_⟩
    . cases hres.symm.trans hok
    obtain ⟨-, hret⟩ := of_decide_eq_true hacq
    rw [hres] at hret
    rcases hret with hret | hret <;> cases hret

/--
Every run in which no thread asks for a recursive mutex that it has 2^64 - 1 times.
-/
theorem exclusive_of_run {control : M → Nat} {next : Links T} {trace : List (Obs M C T)}
    (h : Run MutexStep (State.init control next) trace s) (m : M) :
    Exclusive m trace s ∧ ∀ obs s', MutexStep s obs s' → Orderly m s obs s' := by
  obtain ⟨q, hs⟩ := h.invariant (I := fun trace s => ∃ q, Tracks m trace s q) ⟨_, Tracks.init control next m⟩
    fun _ _ _ _ ⟨_, hs⟩ hstep => hs.step hstep
  exact ⟨hs.exclusive, fun _ _ hstep => hs.orderly hstep⟩

theorem exclusive_of_run_twice :
    ∃ (trace : List (Obs Unit Unit Bool)) (s : State Unit Unit Bool),
      Run MutexStep (State.init (fun _ => mutexRecursive) fun _ => none) trace s ∧
        held () true trace = 2 ∧ arrivals () trace = [false] ∧ Exclusive () trace s := by
  have h : Run MutexStep (State.init (fun _ => mutexRecursive) fun _ => none) _ _ :=
    Run.of_replay (fun s (a : Bool × Act Unit Unit) =>
        if a.2.isMutexCall ∧ Counts s a.1 a.2 then s.observe 1 a else none)
      [(true, .lock (some ())), (false, .lock (some ())), (true, .trylock (some ()))]
      (fun s a obs s' hexec => by
        split at hexec
        next hallowed =>
          obtain ⟨hstep, hthread, hact⟩ := step_of_observe hexec
          rw [← hthread, ← hact] at hallowed
          exact ⟨hstep, hallowed⟩
        next => cases hexec)
      rfl
  exact ⟨_, _, h, rfl, rfl, (exclusive_of_run h ()).1⟩

def relocked (n : UInt64) : State Unit Unit Bool where
  mutexes _ := ⟨n, mutexRecursive, some true, .empty⟩
  conds _ := .init
  next _ := none
  pc _ := .idle

def lockOk (t : Bool) : Obs Unit Unit Bool := ⟨t, .lock (some ()), .ret (.lock (some ())) .ok⟩

def unlockOk : Obs Unit Unit Bool := ⟨true, .unlock (some ()), ⟨some (.unlock (some ()), .ok), none⟩⟩

theorem setMutex_idle {s : State Unit Unit Bool} {t : Bool} (hpc : s.pc t = .idle) (mutex : Mutex Bool) :
    (s.setMutex () mutex).setPc t .idle = { s with mutexes := fun _ => mutex } := by
  have hmutexes : update s.mutexes () mutex = fun _ => mutex := funext fun _ => update_self _ _ _
  have hpcs : update s.pc t .idle = s.pc := Function.update_eq_self_iff.2 hpc.symm
  unfold State.setPc State.setMutex
  dsimp only
  rw [hmutexes, hpcs]

theorem step_lockOk {s : State Unit Unit Bool} {t : Bool} (hpc : s.pc t = .idle) {mutex : Mutex Bool}
    (hlock : mutexLock 0 s.next t (s.mutexes ()) = some (some .ok, s.next, mutex)) :
    Step s (lockOk t) { s with mutexes := fun _ => mutex } := by
  refine ⟨0, ?_⟩
  have hexec : s.exec 0 t (.lock (some ())) = s.lockTurn 0 t () none := by
    unfold State.exec
    rw [hpc]
    rfl
  rw [lockOk, hexec, State.lockTurn, hlock]
  dsimp only
  rw [setMutex_idle hpc]
  rfl

def MutexCall (s : State M C T) (obs : Obs M C T) (s' : State M C T) : Prop := Step s obs s' ∧ obs.act.isMutexCall

theorem run_relocked (n : Nat) :
    Run MutexCall (State.init (fun _ => mutexRecursive) fun _ => none) (replicate (n + 1) (lockOk true))
      (relocked (UInt64.ofNat (n + 1))) := by
  induction n with
  | zero => exact .cons ⟨step_lockOk rfl rfl, rfl⟩ .nil
  | succ n ih =>
    rw [replicate_succ', UInt64.ofNat_add]
    exact .snoc ih ⟨step_lockOk rfl rfl, rfl⟩

theorem run_released {n : Nat} (hn : UInt64.ofNat (n + 1) = 1) :
    ∃ s, Run MutexCall (State.init (fun _ => mutexRecursive) fun _ => none)
      (replicate (n + 1) (lockOk true) ++ [unlockOk] ++ [lockOk false]) s := by
  have h := run_relocked n
  rw [hn] at h
  have hunlock : Step (relocked 1) unlockOk ((relocked 1).setMutex () ⟨0, mutexRecursive, none, .empty⟩) := ⟨0, rfl⟩
  exact ⟨_, .snoc (.snoc h ⟨hunlock, rfl⟩) ⟨step_lockOk rfl rfl, rfl⟩⟩

theorem held_released (n : Nat) : held () true (replicate (n + 1) (lockOk true) ++ [unlockOk] ++ [lockOk false]) = n ∧
      held () false (replicate (n + 1) (lockOk true) ++ [unlockOk] ++ [lockOk false]) = 1 := by
  have hreplicate : ∀ t, held () t (replicate (n + 1) (lockOk true)) = if t then (n : Int) + 1 else 0 := by
    intro t
    unfold held
    rw [countP_replicate, countP_replicate]
    cases t
    . rfl
    rw [if_pos (by decide), if_neg (by decide)]
    simp
  rw [held_snoc, held_snoc, held_snoc, held_snoc, hreplicate, hreplicate]
  simp [Obs.acquires, Obs.releases, lockOk, unlockOk, Result.ret]

theorem two_threads_hold :
    ∃ (trace : List (Obs Unit Unit Bool)) (s : State Unit Unit Bool),
      Run MutexCall (State.init (fun _ => mutexRecursive) fun _ => none) trace s ∧
        held () true trace = 2 ^ 64 ∧ held () false trace = 1 := by
  obtain ⟨s, h⟩ := run_released (n := 2 ^ 64) (by decide)
  exact ⟨_, s, h, (held_released _).1, (held_released _).2⟩

end Tlibthread
