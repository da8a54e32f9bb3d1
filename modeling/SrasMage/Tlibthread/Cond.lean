import SrasMage.Tlibthread.Sections

/-!
This module contains the queues in every run of the threads.
-/


namespace Tlibthread

open LinkQueue

variable {M C T : Type} [DecidableEq M] [DecidableEq C] [DecidableEq T]
variable {s s' : State M C T} {q : Obj M C → List T} {obs : Obs M C T}

def Owned (s : State M C T) (t : T) : Act M C → Prop
  | .condWait (some _) (some m) => (s.mutexes m).owner = some t
  | _ => True

instance (s : State M C T) (t : T) (act : Act M C) : Decidable (Owned s t act) :=
  match act with
  | .condWait (some _) (some m) => inferInstanceAs (Decidable ((s.mutexes m).owner = some t))
  | .condWait none _ | .condWait (some _) none => isTrue trivial
  | .lock _ | .trylock _ | .unlock _ | .destroy _ | .signal _ | .broadcast _ _ | .condDestroy _ | .resume =>
    isTrue trivial

def OwnedStep (s : State M C T) (obs : Obs M C T) (s' : State M C T) : Prop :=
  Step s obs s' ∧ Owned s obs.thread obs.act

variable {t : T} {fuel : Nat} {res : Result M C T} {err : Errno}

theorem Sound.call (hs : Sound s q) (hpc : s.pc t = .idle) {act : Act M C} (howned : Owned s t act)
    (h : s.call fuel t act = some (res, s')) : ∃ q', Sound s' q' := by
  unfold State.call at h
  split at h
  next m =>
    obtain ⟨_, _, _, _, _, _, _, hs'⟩ := hs.lockTurn (.inl (by rw [hpc]; rfl)) h
    exact ⟨_, hs'⟩
  next m =>
    cases h
    obtain ⟨_, _, hs'⟩ := hs.trylock (m := m) hpc rfl
    exact ⟨_, hs'⟩
  next m =>
    cases h
    exact ⟨q, hs.unlock hpc (mutexUnlockLazy_move _ _)⟩
  next m =>
    cases h
    exact ⟨q, hs.destroy hpc⟩
  next c m =>
    split at h
    . cases h
    cases h
    exact ⟨_, hs.condInsert hpc howned⟩
  next c =>
    split at h
    . cases h
    obtain rfl : (s.condSignal c).2 = s' := by rw [Option.some.inj h]
    obtain ⟨_, hs'⟩ := hs.condSignal (c := c) t
    exact ⟨_, hs'⟩
  next c malloc =>
    split at h
    . cases h
    obtain ⟨_, hs'⟩ := hs.condBroadcast t h
    exact ⟨_, hs'⟩
  next c =>
    split at h
    . cases h
    cases h
    exact ⟨q, hs⟩
  . cases h
  . cases h
    exact ⟨q, hs⟩

theorem Sound.step (hs : Sound s q) (h : OwnedStep s obs s') : ∃ q', Sound s' q' := by
  obtain ⟨⟨fuel, hexec⟩, howned⟩ := h
  unfold State.exec at hexec
  split at hexec
  next hpc => exact hs.call hpc howned hexec
  next m within hpc _ =>
    obtain ⟨_, _, _, _, _, _, _, hs'⟩ := hs.lockTurn (.inr hpc) hexec
    exact ⟨_, hs'⟩
  next c m hpc _ =>
    obtain rfl : (s.condUnlock obs.thread c m).2 = s' := by rw [Option.some.inj hexec]
    exact ⟨q, (hs.condUnlock hpc).2⟩
  next c m hpc _ =>
    split at hexec
    . cases hexec
    . exact ⟨q, hs.condCheck hpc hexec⟩
  next c m hpc _ =>
    obtain ⟨_, _, _, _, _, _, _, hs'⟩ := hs.lockTurn (.inl (by rw [hpc]; rfl)) hexec
    exact ⟨_, hs'⟩
  . cases hexec

def OnQueue (s : State M C T) (o : Obj M C) (t : T) : Prop :=
  ∃ fuel, search s.next t fuel (s.head o).first = some true

omit [DecidableEq M] [DecidableEq C] in
theorem Sound.onQueue_iff (hs : Sound s q) {o : Obj M C} : OnQueue s o t ↔ t ∈ q o := by
  have hlinked := (hs.family.reps o).linked
  constructor
  . rintro ⟨fuel, h⟩
    exact (search_eq_iff hlinked h).1 rfl
  intro hmem
  refine ⟨(q o).length, ?_⟩
  rw [search_of_linked hlinked t (Nat.le_refl _), decide_eq_true hmem]

structure Separate (s : State M C T) : Prop where
  one : ∀ t o o', OnQueue s o t → OnQueue s o' t → o = o'
  inside : ∀ t o, OnQueue s o t → (s.pc t).place = some o

omit [DecidableEq M] [DecidableEq C] in
theorem Sound.separate (hs : Sound s q) : Separate s where
  one t o o' h h' := hs.family.apart t o o' (hs.onQueue_iff.1 h) (hs.onQueue_iff.1 h')
  inside t o h := hs.place t o (hs.onQueue_iff.1 h)

omit [DecidableEq C] in
theorem lockTurn_returned {m : M} {within : Option C} (h : s.lockTurn fuel t m within = some (res, s'))
    {call : Act M C} (hret : res.returned = some (call, err)) :
    (call, err) = State.lockReturn m err within := by
  unfold State.lockTurn at h
  split at h
  . cases h
  . cases h
    cases within <;> cases hret <;> rfl
  . cases h
    cases hret

theorem call_returned {act call : Act M C} (h : s.call fuel t act = some (res, s'))
    (hret : res.returned = some (call, err)) : call = act := by
  unfold State.call at h
  split at h
  next m => exact (Prod.mk.inj (lockTurn_returned h hret)).1
  next m => cases h; cases hret; rfl
  next m => cases h; cases hret; rfl
  next m => cases h; cases hret; rfl
  next c m =>
    split at h <;> cases h
    cases hret
  next c =>
    split at h
    . cases h
    unfold State.condSignal at h
    split at h <;> cases h <;> cases hret <;> rfl
  next c malloc =>
    split at h
    . cases h
    unfold State.condBroadcast at h
    split at h
    . cases h
    . cases h
      cases hret
      rfl
    split at h
    . cases h
      cases hret
      rfl
    split at h <;> cases h
    cases hret
    rfl
  next c =>
    split at h <;> cases h
    cases hret
    rfl
  next => cases h
  next => cases h; cases hret; rfl

theorem Sound.condWait_error (hs : Sound s q) (h : Step s obs s') {c : Option C} {m : Option M}
    (hret : obs.result.returned = some (.condWait c m, err)) (herr : err ≠ .ok) :
    obs.act = .condWait c m ∧ s' = s := by
  obtain ⟨fuel, hexec⟩ := h
  obtain ⟨t, act, res⟩ := obs
  dsimp only at hret hexec ⊢
  have hturn : ∀ {m' within}, s.lockTurn fuel t m' within = some (res, s') → False := by
    intro m' within h
    have hcall := lockTurn_returned h hret
    cases within with
    | none => cases hcall
    | some c' => exact herr (Prod.mk.inj hcall).2
  unfold State.exec at hexec
  split at hexec
  next hpc =>
    have hact := call_returned hexec hret
    refine ⟨hact.symm, ?_⟩
    rw [← hact] at hexec
    cases c with
    | none =>
      cases hexec
      rfl
    | some c =>
      cases m with
      | none =>
        cases hexec
        rfl
      | some m =>
        dsimp only [State.call] at hexec
        split at hexec <;> cases hexec
        cases hret
  next m' within hpc _ => exact (hturn hexec).elim
  next c' m' hpc =>
    have hnone := (hs.condUnlock hpc).1
    rw [Option.some.inj hexec, hret] at hnone
    cases hnone
  next c' m' hpc _ =>
    unfold State.condCheck at hexec
    split at hexec
    . cases hexec
    . split at hexec <;> cases hexec <;> cases hret
  next c' m' hpc _ => exact (hturn hexec).elim
  next => cases hexec

/--
Every run in which a thread that waits for a condition has the mutex.
-/
theorem separate_of_run {control : M → Nat} {next : Links T} {trace : List (Obs M C T)}
    (h : Run OwnedStep (State.init control next) trace s) :
    Separate s ∧ ∀ obs s' c m err, OwnedStep s obs s' → obs.result.returned = some (.condWait c m, err) →
      err ≠ .ok → obs.act = .condWait c m ∧ s' = s := by
  obtain ⟨q, hs⟩ := h.invariant (I := fun _ s => ∃ q, Sound s q) ⟨_, Sound.init control next⟩
    fun _ _ _ _ ⟨_, hs⟩ hstep => hs.step hstep
  exact ⟨hs.separate, fun _ _ _ _ _ hstep hret herr => hs.condWait_error hstep.1 hret herr⟩

theorem separate_of_run_signal :
    ∃ (trace : List (Obs Unit Unit Bool)) (s : State Unit Unit Bool),
      Run OwnedStep (State.init (fun _ => mutexNonrecursive) fun _ => none) trace s ∧
        OnQueue s (.mutex ()) true ∧ Separate s := by
  have h : Run OwnedStep (State.init (fun _ => mutexNonrecursive) fun _ => none) _ _ :=
    Run.of_replay (fun s a => if Owned s a.1 a.2 then s.observe 1 a else none)
      [(true, .lock (some ())), (true, .condWait (some ()) (some ())), (true, .resume),
        (false, .lock (some ())), (false, .signal (some ())), (true, .resume), (true, .resume)]
      (fun s a obs s' hexec => by
        split at hexec
        next howned =>
          obtain ⟨hstep, hthread, hact⟩ := step_of_observe hexec
          exact ⟨hstep, by rw [hthread, hact]; exact howned⟩
        next => cases hexec)
      rfl
  exact ⟨_, _, h, ⟨1, rfl⟩, (separate_of_run h).1⟩

theorem condWait_leaves_thread :
    ∃ (trace : List (Obs Unit Unit Bool)) (s : State Unit Unit Bool),
      Run Step (State.init (fun _ => mutexNonrecursive) fun _ => none) trace s ∧
      ⟨true, .resume, ⟨some (.condWait (some ()) (some ()), .eperm), none⟩⟩ ∈ trace ∧
      OnQueue s (.cond ()) true ∧ OnQueue s (.mutex ()) true := by
  have h : Run Step (State.init (fun _ => mutexNonrecursive) fun _ => none) _ _ :=
    Run.of_replay (State.observe 1) [(false, .lock (some ())), (true, .condWait (some ()) (some ())),
      (true, .resume), (true, .lock (some ()))] (fun _ _ _ _ hexec => (step_of_observe hexec).1) rfl
  refine ⟨_, _, h, ?_, ⟨1, rfl⟩, ⟨1, rfl⟩⟩
  exact List.mem_cons_of_mem _ (List.mem_cons_of_mem _ List.mem_cons_self)

end Tlibthread
