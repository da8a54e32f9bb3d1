import SrasMage.Switchless.Basic

/-!
This module contains the proof that the code of switchless calls keeps to the protocol, and with it that
every request is worked off once or not at all.
-/


namespace Switchless

open Bitmap List Function

variable {K W : Type} [DecidableEq K] [DecidableEq W]

def CallPc.phase : CallPc → Phase
  | .idle | .scan _ | .allocLoad _ _ | .allocCas _ _ _ _ => .away
  | .submit l => .submit l
  | .publish l => .publish l
  | .trigger l => .trigger l
  | .poll l _ | .revokeLoad l | .revokeCas l _ _ => .asked l
  | .wait l => .wait l
  | .clear l r | .free l r => .leave l r
  | .returned r => .left r
  | .fallen => .left .again

def WorkPc.phase : WorkPc K → WorkerPhase K Nat
  | .idle | .word _ | .bits _ | .cas _ _ _ => .idle
  | .fetch scan => .fetch scan.line
  | .accept scan k => .accept scan.line k
  | .readId scan k | .run scan k _ => .run scan.line k
  | .store scan k r => .store scan.line k r
  | .finish scan k => .finish scan.line k

def executions (k : K) (trace : List (Event K W)) : List (W × Nat) :=
  trace.filterMap fun
    | .executed w k' r => if k' = k then some (w, r) else none
    | _ => none

def returns (k : K) (trace : List (Event K W)) : List (Option Nat) :=
  trace.filterMap fun
    | .returned k' r => if k' = k then some r else none
    | _ => none

def viewOf (trace : List (Event K W)) (s : State K W) : View K W Nat where
  event := bit s.events
  free := bit s.free
  bufs := s.bufs
  status := s.status
  ret := s.ret
  phase k := (s.pc k).phase
  worker w := (s.wpc w).phase
  hist k := executions k trace
  reports k := returns k trace

variable {cfg : Config K} {s s' : State K W} {trace : List (Event K W)} {e : Event K W} {k : K} {w : W}

theorem phase_update (pcs : K → CallPc) (k : K) (pc : CallPc) :
    (fun k' => (update pcs k pc k').phase) = update (fun k' => (pcs k').phase) k pc.phase := by
  funext k'
  by_cases h : k' = k
  . subst h
    rw [update_self, update_self]
  . rw [update_of_ne h, update_of_ne h]

omit [DecidableEq K] in
theorem workPhase_update (pcs : W → WorkPc K) (w : W) (pc : WorkPc K) :
    (fun w' => (update pcs w pc w').phase) = update (fun w' => (pcs w').phase) w pc.phase := by
  funext w'
  by_cases h : w' = w
  . subst h
    rw [update_self, update_self]
  . rw [update_of_ne h, update_of_ne h]

omit [DecidableEq W] in
theorem executions_tau (trace : List (Event K W)) :
    (fun k => executions k (trace ++ [.tau])) = fun k => executions k trace := by
  funext k
  simp [executions]

omit [DecidableEq W] in
theorem returns_tau (trace : List (Event K W)) : (fun k => returns k (trace ++ [.tau])) = fun k => returns k trace := by
  funext k
  simp [returns]

omit [DecidableEq W] in
theorem viewOf_setPc (trace : List (Event K W)) (s : State K W) (k : K) (pc : CallPc) :
    viewOf (trace ++ [.tau]) (s.setPc k pc) =
      { viewOf trace s with phase := update (viewOf trace s).phase k pc.phase } := by
  unfold viewOf State.setPc
  simp only [phase_update, executions_tau, returns_tau]

omit [DecidableEq W] in
theorem viewOf_setPc_same {pc : CallPc} (h : pc.phase = (s.pc k).phase) :
    viewOf (trace ++ [.tau]) (s.setPc k pc) = viewOf trace s := by
  rw [viewOf_setPc, h]
  have hsame : update (viewOf trace s).phase k (s.pc k).phase = (viewOf trace s).phase :=
    update_eq_self k (viewOf trace s).phase
  rw [hsame]

omit [DecidableEq W] in
theorem viewOf_returned (trace : List (Event K W)) (s : State K W) (k : K) (r : Option Nat) (pc : CallPc) :
    viewOf (trace ++ [.returned k r]) (s.setPc k pc) = { viewOf trace s with
        phase := update (viewOf trace s).phase k pc.phase
        reports := update (viewOf trace s).reports k ((viewOf trace s).reports k ++ [r]) } := by
  have hexecutions : (fun k' => executions k' (trace ++ [.returned k r])) = fun k' => executions k' trace := by
    funext k'
    simp [executions]
  have hreturns : (fun k' => returns k' (trace ++ [.returned k r])) =
      update (fun k' => returns k' trace) k (returns k trace ++ [r]) := by
    funext k'
    by_cases hk : k' = k
    . subst hk
      rw [update_self]
      simp [returns]
    . rw [update_of_ne hk]
      simp [returns, Ne.symm hk]
  unfold viewOf State.setPc
  simp only [phase_update, hexecutions, hreturns]

omit [DecidableEq W] in
theorem viewOf_fellBack (hpc : s.pc k = .returned .again) :
    viewOf (trace ++ [.fellBack k]) (s.setPc k .fallen) = viewOf trace s := by
  have hphase : (fun k' => (update s.pc k .fallen k').phase) = fun k' => (s.pc k').phase := by
    rw [phase_update]
    exact Function.update_eq_self_iff.2 (by rw [hpc]; rfl)
  unfold viewOf State.setPc
  simp [hphase, executions, returns]

omit [DecidableEq W] in
theorem viewOf_events (trace : List (Event K W)) (s : State K W) {i j line : Nat} (hline : 64 * i + j = line)
    {word : BitVec 64} {b : Bool} (hj : j < 64)
    (hword : ∀ k, word.getLsbD k = if k = j then b else (s.events i).getLsbD k) :
    viewOf trace { s with events := update s.events i word } =
      { viewOf trace s with event := update (viewOf trace s).event line b } := by
  unfold viewOf
  rw [bit_update hj hword, hline]

omit [DecidableEq W] in
theorem viewOf_free (trace : List (Event K W)) (s : State K W) {i j line : Nat} (hline : 64 * i + j = line)
    {word : BitVec 64} {b : Bool} (hj : j < 64)
    (hword : ∀ k, word.getLsbD k = if k = j then b else (s.free i).getLsbD k) :
    viewOf trace { s with free := update s.free i word } =
      { viewOf trace s with free := update (viewOf trace s).free line b } := by
  unfold viewOf
  rw [bit_update hj hword, hline]

omit [DecidableEq W] in
theorem callStep_move (h : callStep cfg s k = some (e, s')) :
    viewOf (trace ++ [e]) s' = viewOf trace s ∨ CallMove (viewOf trace s) k (viewOf (trace ++ [e]) s') := by
  have hphase : (viewOf trace s).phase k = (s.pc k).phase := rfl
  have hline : ∀ line, 64 * (line / 64) + line % 64 = line := fun line => Nat.div_add_mod line 64
  have hmod : ∀ line, line % 64 < 64 := fun line => Nat.mod_lt _ (by decide)
  unfold callStep at h
  cases hpc : s.pc k with
  | idle =>
    rw [hpc] at h
    cases h
    exact .inl (viewOf_setPc_same (by rw [hpc]; rfl))
  | scan i =>
    rw [hpc] at h hphase
    dsimp only at h
    split at h
    . split at h
      . cases h
        exact .inl (viewOf_setPc_same (by rw [hpc]; rfl))
      . cases h
        exact .inl (viewOf_setPc_same (by rw [hpc]; rfl))
    . cases h
      rw [viewOf_returned]
      exact .inr (.full hphase)
  | allocLoad i j =>
    rw [hpc] at h
    dsimp only at h
    split at h <;> cases h <;> exact .inl (viewOf_setPc_same (by rw [hpc]; rfl))
  | allocCas i j old hold =>
    rw [hpc] at h hphase
    dsimp only at h
    split at h
    next heq =>
      cases h
      subst heq
      have hj := lt_of_getLsbD hold
      rw [viewOf_setPc, viewOf_free trace s rfl hj (getLsbD_clearBit _ hj)]
      exact .inr (.alloc _ hphase ((bit_eq s.free i hj).trans hold))
    next =>
      cases h
      exact .inl (viewOf_setPc_same (by rw [hpc]; rfl))
  | submit line =>
    rw [hpc] at h hphase
    cases h
    rw [viewOf_setPc]
    exact .inr (.submit line hphase)
  | publish line =>
    rw [hpc] at h hphase
    cases h
    rw [viewOf_setPc]
    exact .inr (.publish line hphase)
  | trigger line =>
    rw [hpc] at h hphase
    cases h
    rw [viewOf_setPc, viewOf_events trace s (hline line) (hmod line) (getLsbD_setBit _ (hmod line))]
    exact .inr (.trigger line hphase)
  | poll line tries =>
    rw [hpc] at h hphase
    dsimp only at h
    split at h
    next =>
      split at h <;> cases h <;> exact .inl (viewOf_setPc_same (by rw [hpc]; rfl))
    next hstatus =>
      split at h
      . cases h
        exact .inl (viewOf_setPc_same (by rw [hpc]; rfl))
      cases h
      rw [viewOf_setPc]
      exact .inr (.rely line hphase (.inl hstatus))
  | revokeLoad line =>
    rw [hpc] at h hphase
    dsimp only at h
    split at h
    next =>
      cases h
      exact .inl (viewOf_setPc_same (by rw [hpc]; rfl))
    next hclear =>
      cases h
      rw [viewOf_setPc]
      exact .inr (.rely line hphase (.inr (Bool.not_eq_true _ ▸ hclear)))
  | revokeCas line old hold =>
    rw [hpc] at h hphase
    dsimp only at h
    split at h
    next heq =>
      cases h
      subst heq
      rw [viewOf_setPc, viewOf_events trace s (hline line) (hmod line) (getLsbD_clearBit _ (hmod line))]
      exact .inr (.revoke line hphase hold)
    next =>
      cases h
      exact .inl (viewOf_setPc_same (by rw [hpc]; rfl))
  | wait line =>
    rw [hpc] at h hphase
    dsimp only at h
    split at h
    next hdone =>
      cases h
      rw [viewOf_setPc]
      exact .inr (.done line hphase hdone)
    next =>
      cases h
      left
      unfold viewOf
      rw [executions_tau, returns_tau]
  | clear line r =>
    rw [hpc] at h hphase
    cases h
    right
    rw [viewOf_setPc_same (by rw [hpc]; rfl)]
    exact .clear line r hphase
  | free line r =>
    rw [hpc] at h hphase
    cases h
    rw [viewOf_returned, viewOf_free trace s (hline line) (hmod line) (getLsbD_setBit _ (hmod line))]
    exact .inr (.report line r hphase)
  | returned r =>
    rw [hpc] at h
    cases r with
    | done => cases h
    | again =>
      cases h
      exact .inl (viewOf_fellBack hpc)
  | fallen =>
    rw [hpc] at h
    cases h

theorem viewOf_setWpc (trace : List (Event K W)) (s : State K W) (w : W) (wpc : WorkPc K) :
    viewOf (trace ++ [.tau]) (s.setWpc w wpc) =
      { viewOf trace s with worker := update (viewOf trace s).worker w wpc.phase } := by
  unfold viewOf State.setWpc
  simp only [workPhase_update, executions_tau, returns_tau]

theorem viewOf_setWpc_same {wpc : WorkPc K} (h : wpc.phase = (s.wpc w).phase) :
    viewOf (trace ++ [.tau]) (s.setWpc w wpc) = viewOf trace s := by
  rw [viewOf_setWpc, h]
  have hsame : update (viewOf trace s).worker w (s.wpc w).phase = (viewOf trace s).worker :=
    update_eq_self w (viewOf trace s).worker
  rw [hsame]

theorem viewOf_executed (trace : List (Event K W)) (s : State K W) (w : W) (k : K) (r : Nat) (wpc : WorkPc K) :
    viewOf (trace ++ [.executed w k r]) (s.setWpc w wpc) = { viewOf trace s with
        worker := update (viewOf trace s).worker w wpc.phase
        hist := update (viewOf trace s).hist k ((viewOf trace s).hist k ++ [(w, r)]) } := by
  have hexecutions : (fun k' => executions k' (trace ++ [.executed w k r])) =
      update (fun k' => executions k' trace) k (executions k trace ++ [(w, r)]) := by
    funext k'
    by_cases hk : k' = k
    . subst hk
      rw [update_self]
      simp [executions]
    . rw [update_of_ne hk]
      simp [executions, Ne.symm hk]
  have hreturns : (fun k' => returns k' (trace ++ [.executed w k r])) = fun k' => returns k' trace := by
    funext k'
    simp [returns]
  unfold viewOf State.setWpc
  simp only [workPhase_update, hexecutions, hreturns]

theorem workStep_move {value : Nat} (h : workStep cfg s w value = some (e, s')) :
    viewOf (trace ++ [e]) s' = viewOf trace s ∨ WorkMove (viewOf trace s) w (viewOf (trace ++ [e]) s') := by
  have hphase : (viewOf trace s).worker w = (s.wpc w).phase := rfl
  unfold workStep at h
  cases hpc : s.wpc w with
  | idle =>
    rw [hpc] at h
    cases h
    exact .inl (viewOf_setWpc_same (by rw [hpc]; rfl))
  | word i =>
    rw [hpc] at h
    dsimp only at h
    split at h
    . split at h <;> cases h <;> exact .inl (viewOf_setWpc_same (by rw [hpc]; rfl))
    . cases h
      exact .inl (viewOf_setWpc_same (by rw [hpc]; rfl))
  | bits scan =>
    rw [hpc] at h
    dsimp only at h
    split at h
    . split at h <;> cases h <;> exact .inl (viewOf_setWpc_same (by rw [hpc]; rfl))
    . cases h
      exact .inl (viewOf_setWpc_same (by rw [hpc]; rfl))
  | cas scan old hold =>
    rw [hpc] at h hphase
    dsimp only at h
    split at h
    next heq =>
      cases h
      subst heq
      have hj := lt_of_getLsbD hold
      rw [viewOf_setWpc, viewOf_events trace s (rfl : 64 * scan.i + scan.bitN = scan.line) hj (getLsbD_clearBit _ hj)]
      exact .inr (.claim scan.line hphase ((bit_eq s.events scan.i hj).trans hold))
    next =>
      cases h
      exact .inl (viewOf_setWpc_same (by rw [hpc]; rfl))
  | fetch scan =>
    rw [hpc] at h hphase
    dsimp only at h
    split at h
    . cases h
    next k hbufs =>
      cases h
      rw [viewOf_setWpc]
      exact .inr (.fetch scan.line k hphase hbufs)
  | accept scan k =>
    rw [hpc] at h hphase
    cases h
    rw [viewOf_setWpc]
    exact .inr (.accept scan.line k hphase)
  | readId scan k =>
    rw [hpc] at h
    cases h
    exact .inl (viewOf_setWpc_same (by rw [hpc]; rfl))
  | run scan k funcId =>
    rw [hpc] at h hphase
    cases h
    rw [viewOf_executed]
    exact .inr (.run scan.line k _ hphase)
  | store scan k r =>
    rw [hpc] at h hphase
    cases h
    rw [viewOf_setWpc]
    exact .inr (.store scan.line k r hphase)
  | finish scan k =>
    rw [hpc] at h hphase
    cases h
    rw [viewOf_setWpc]
    exact .inr (.finish scan.line k hphase)

omit [DecidableEq W] in
theorem inv_init (cfg : Config K) : Inv (viewOf [] (State.init cfg : State K W)) fun _ => .vacant where
  slots l := by
    change bit (fun _ => 0) l = false
    exact BitVec.getLsbD_zero
  away _ := ⟨rfl, rfl, rfl⟩
  call _ _ h := nomatch h
  worker _ _ h := nomatch h

theorem inv_of_run (h : Run (Step cfg) (State.init cfg) trace s) : ∃ slot, Inv (viewOf trace s) slot := by
  refine h.invariant (I := fun trace s => ∃ slot, Inv (viewOf trace s) slot) ⟨_, inv_init cfg⟩ ?_
  rintro trace s e s' ⟨slot, hinv⟩ (⟨k, hstep⟩ | ⟨w, value, hstep⟩)
  . rcases callStep_move hstep with heq | hmove
    . rw [heq]
      exact ⟨slot, hinv⟩
    . exact hinv.callMove hmove
  rcases workStep_move hstep with heq | hmove
  . rw [heq]
    exact ⟨slot, hinv⟩
  . exact hinv.workMove hmove

omit [DecidableEq W] in
theorem executions_append (k : K) (trace trace' : List (Event K W)) :
    executions k (trace ++ trace') = executions k trace ++ executions k trace' := filterMap_append

omit [DecidableEq W] in
theorem mem_returns {r : Option Nat} : r ∈ returns k trace ↔ .returned k r ∈ trace := by
  unfold returns
  rw [mem_filterMap]
  constructor
  . rintro ⟨e, he, hr⟩
    split at hr
    next k' r' =>
      split at hr <;> cases hr
      next hk => exact hk ▸ he
    next => cases hr
  . exact fun h => ⟨_, h, if_pos rfl⟩

theorem returned_step {r : Option Nat} (h : Step cfg s (.returned k r) s') : (s.pc k).phase = .away ∧ r = none ∨
      ∃ l report, (s.pc k).phase = .leave l report ∧ r = report.value (s.ret k) := by
  have hreports : (viewOf ([] ++ [.returned k r]) s').reports k = (viewOf [] s).reports k ++ [r] := by
    unfold viewOf returns
    simp
  have hself : (viewOf [] s).reports k ≠ (viewOf [] s).reports k ++ [r] := fun heq => by
    simpa using congrArg length heq
  rcases h with ⟨k', h⟩ | ⟨w, value, h⟩
  . rcases (callStep_move h : viewOf ([] ++ [_]) s' = viewOf [] s ∨ _) with heq | hmove
    . rw [heq] at hreports
      exact absurd hreports hself
    . exact hmove.reports_eq hreports
  rcases (workStep_move h : viewOf ([] ++ [_]) s' = viewOf [] s ∨ _) with heq | hmove
  . rw [heq] at hreports
    exact absurd hreports hself
  . rw [hmove.reports_eq] at hreports
    exact absurd hreports hself

omit [DecidableEq W] in
theorem callStep_pc (h : callStep cfg s k = some (e, s')) :
    ∃ pc, s'.pc = update s.pc k pc ∧
      (e = .fellBack k ∧ s.pc k = .returned .again ∧ pc = .fallen ∨
        (∀ k', e ≠ .fellBack k') ∧ s.pc k ≠ .fallen ∧ pc ≠ .fallen) := by
  have hstay : ∀ {pc : CallPc}, s.pc k = pc → s.pc = update s.pc k pc := fun hpc =>
    (Function.update_eq_self_iff.2 hpc.symm).symm
  unfold callStep at h
  cases hpc : s.pc k <;> rw [hpc] at h <;> dsimp only at h
  case returned report =>
    cases report <;> cases h
    exact ⟨_, rfl, .inl ⟨rfl, rfl, rfl⟩⟩
  case wait line =>
    split at h <;> cases h
    . exact ⟨_, rfl, .inr ⟨nofun, nofun, nofun⟩⟩
    . exact ⟨_, hstay hpc, .inr ⟨nofun, nofun, nofun⟩⟩
  case fallen => cases h
  case scan i =>
    split at h
    . split at h <;> cases h <;> exact ⟨_, rfl, .inr ⟨nofun, nofun, nofun⟩⟩
    . cases h
      exact ⟨_, rfl, .inr ⟨nofun, nofun, nofun⟩⟩
  case poll line tries =>
    split at h <;> split at h <;> cases h <;> exact ⟨_, rfl, .inr ⟨nofun, nofun, nofun⟩⟩
  case allocLoad => split at h <;> cases h <;> exact ⟨_, rfl, .inr ⟨nofun, nofun, nofun⟩⟩
  case allocCas => split at h <;> cases h <;> exact ⟨_, rfl, .inr ⟨nofun, nofun, nofun⟩⟩
  case revokeLoad => split at h <;> cases h <;> exact ⟨_, rfl, .inr ⟨nofun, nofun, nofun⟩⟩
  case revokeCas => split at h <;> cases h <;> exact ⟨_, rfl, .inr ⟨nofun, nofun, nofun⟩⟩
  all_goals
    cases h
    exact ⟨_, rfl, .inr ⟨nofun, nofun, nofun⟩⟩

theorem workStep_pc {value : Nat} (h : workStep cfg s w value = some (e, s')) :
    s'.pc = s.pc ∧ ∀ k, e ≠ .fellBack k := by
  unfold workStep at h
  cases hpc : s.wpc w <;> rw [hpc] at h <;> dsimp only at h
  case word i =>
    split at h
    . split at h <;> cases h <;> exact ⟨rfl, nofun⟩
    . cases h
      exact ⟨rfl, nofun⟩
  case bits scan =>
    split at h
    . split at h <;> cases h <;> exact ⟨rfl, nofun⟩
    . cases h
      exact ⟨rfl, nofun⟩
  case cas => split at h <;> cases h <;> exact ⟨rfl, nofun⟩
  case fetch =>
    split at h <;> cases h
    exact ⟨rfl, nofun⟩
  all_goals
    cases h
    exact ⟨rfl, nofun⟩

def fallbacks (k : K) (trace : List (Event K W)) : Nat :=
  trace.countP fun
    | .fellBack k' => k' = k
    | _ => false

omit [DecidableEq W] in
theorem fallbacks_snoc (hno : e ≠ .fellBack k) : fallbacks k (trace ++ [e]) = fallbacks k trace := by
  unfold fallbacks
  rw [countP_append, countP_singleton, if_neg, Nat.add_zero]
  intro hand
  split at hand
  next k' => exact hno (by rw [of_decide_eq_true hand])
  next => cases hand

theorem fallbacks_of_run (h : Run (Step cfg) (State.init cfg) trace s) (k : K) :
    fallbacks k trace = 0 ∧ s.pc k ≠ .fallen ∨ fallbacks k trace = 1 ∧ s.pc k = .fallen := by
  refine h.invariant (I := fun trace s => fallbacks k trace = 0 ∧ s.pc k ≠ .fallen ∨
    fallbacks k trace = 1 ∧ s.pc k = .fallen) (.inl ⟨rfl, nofun⟩) ?_
  rintro trace s e s' ih (⟨k', hstep⟩ | ⟨w, value, hstep⟩)
  . obtain ⟨pc, hpcs, hcase⟩ := callStep_pc hstep
    by_cases hk : k = k'
    . subst hk
      rw [hpcs, update_self]
      rcases hcase with ⟨rfl, hpc, hfallen⟩ | ⟨hno, hpc, hfallen⟩
      . right
        have hzero := (ih.resolve_right fun hand => by rw [hpc] at hand; exact absurd hand.2 nofun).1
        unfold fallbacks at *
        rw [countP_append, hzero]
        exact ⟨by simp, hfallen⟩
      . rw [fallbacks_snoc (hno k)]
        exact .inl ⟨(ih.resolve_right fun hand => hpc hand.2).1, hfallen⟩
    . have hno : e ≠ .fellBack k := by
        rcases hcase with ⟨rfl, -⟩ | ⟨hno, -⟩
        . exact fun heq => hk (Event.fellBack.inj heq).symm
        . exact hno k
      rw [fallbacks_snoc hno, hpcs, update_of_ne hk]
      exact ih
  . obtain ⟨hpcs, hno⟩ := workStep_pc hstep
    rw [fallbacks_snoc (hno k), hpcs]
    exact ih

def CallPc.line (pc : CallPc) : Option Nat := pc.phase.line

/--
A call that returns `0` has been executed once, by one worker, before it returned and with the result that is in
its buffer. A call that returns `-EAGAIN` is never executed, and falls back once. Two calls never have the same
line.
-/
theorem executed_once (h : Run (Step cfg) (State.init cfg) trace s) :
    (∀ k r pre post, trace = pre ++ .returned k (some r) :: post →
      ∃ w, executions k pre = [(w, r)] ∧ executions k post = [] ∧ s.ret k = r) ∧
    (∀ k, .returned k none ∈ trace → executions k trace = []) ∧
    (∀ k, fallbacks k trace ≤ 1 ∧ (0 < fallbacks k trace → executions k trace = [])) ∧
    (∀ k k' l, (s.pc k).line = some l → (s.pc k').line = some l → k = k') := by
  obtain ⟨slot, hinv⟩ := inv_of_run h
  refine ⟨?_, fun k hmem => ?_, fun k => ?_, fun k k' l hl hl' => ?_⟩
  . rintro k r pre post rfl
    obtain ⟨s₁, s₂, hpre, hstep, -⟩ := h.split
    obtain ⟨slot₁, hinv₁⟩ := inv_of_run hpre
    have hmem : some r ∈ (viewOf (pre ++ .returned k (some r) :: post) s).reports k :=
      mem_returns.2 (mem_append_right _ mem_cons_self)
    obtain ⟨-, ⟨w', hret, hhist⟩ | ⟨hnone, -⟩⟩ := hinv.hist_of_reported hmem
    . rcases returned_step hstep with ⟨-, hnone⟩ | ⟨l, report, hp, hvalue⟩
      . cases hnone
      cases report with
      | again => cases hvalue
      | done =>
        obtain ⟨w, hpre⟩ := hinv₁.hist_of_done hp
        have hall : executions k pre ++ executions k (.returned k (some r) :: post) = [(w', s.ret k)] := by
          rw [← executions_append]
          exact hhist
        have hcons : executions k pre = [(w, s₁.ret k)] := hpre
        rw [hcons] at hall ⊢
        obtain ⟨-, hpost⟩ := cons.inj hall
        exact ⟨w, by rw [Option.some.inj hvalue], hpost, (Option.some.inj hret).symm⟩
    . cases hnone
  . obtain ⟨-, ⟨_, hsome, -⟩ | ⟨-, hhist⟩⟩ := hinv.hist_of_reported (mem_returns.2 hmem)
    . cases hsome
    . exact hhist
  . rcases fallbacks_of_run h k with ⟨hzero, -⟩ | ⟨hone, hpc⟩
    . rw [hzero]
      exact ⟨by decide, nofun⟩
    rw [hone]
    have haway := hinv.away k
    have hphase : (viewOf trace s).phase k = .left .again := by
      change (s.pc k).phase = _
      rw [hpc]
      rfl
    rw [hphase] at haway
    exact ⟨by decide, fun _ => haway.1⟩
  . have hk := hinv.call k l hl
    exact Option.some.inj (hk.symm.trans (hinv.call k' l hl'))

def oneCall : Config Unit := ⟨.ocall, 64, 1, fun _ => true, fun _ => 0, fun _ => 1⟩

def oneStep (s : State Unit Unit) (call : Bool) : Option (Event Unit Unit × State Unit Unit) :=
  if call then callStep oneCall s () else workStep oneCall s () 7

theorem step_of_oneStep (s : State Unit Unit) (call : Bool) (e : Event Unit Unit) (s' : State Unit Unit)
    (h : oneStep s call = some (e, s')) : Step oneCall s e s' := by
  cases call
  . exact .inr ⟨(), 7, h⟩
  . exact .inl ⟨(), h⟩

theorem executed_once_done :
    ∃ (pre : List (Event Unit Unit)) (s : State Unit Unit),
      Run (Step oneCall) (State.init oneCall) (pre ++ [.returned () (some 7)]) s ∧
        ∃ w, executions () pre = [(w, 7)] := by
  have hrun : (Run.replay oneStep (State.init oneCall)
        (replicate 7 true ++ replicate 10 false ++ replicate 4 true)).map Prod.fst =
      some ((replicate 14 .tau ++ .executed () () 7 :: replicate 5 .tau) ++ [.returned () (some 7)]) := by
    decide +kernel
  obtain ⟨⟨trace, s⟩, hreplay, rfl⟩ := Option.map_eq_some_iff.1 hrun
  have h := Run.of_replay _ _ step_of_oneStep hreplay
  obtain ⟨w, hpre, -⟩ := (executed_once h).1 () 7 _ [] rfl
  exact ⟨_, s, h, w, hpre⟩

end Switchless
