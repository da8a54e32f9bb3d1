import Mathlib.Algebra.Order.Ring.Nat
import Mathlib.Data.List.Basic
import Mathlib.Logic.Function.Basic
import Mathlib.Tactic.Common

/-!
This module contains the protocol of switchless calls.
-/


namespace Switchless

open Function

inductive Status
  | init
  | submitted
  | accepted
  | done
deriving DecidableEq

inductive Report
  | done
  | again
deriving DecidableEq

inductive Phase
  | away
  | submit (line : Nat)
  | publish (line : Nat)
  | trigger (line : Nat)
  | asked (line : Nat)
  | wait (line : Nat)
  | leave (line : Nat) (report : Report)
  | left (report : Report)
deriving DecidableEq

def Phase.line : Phase → Option Nat
  | .away | .left _ => none
  | .submit l | .publish l | .trigger l | .asked l | .wait l | .leave l _ => some l

inductive WorkerPhase (K R : Type)
  | idle
  | fetch (line : Nat)
  | accept (line : Nat) (call : K)
  | run (line : Nat) (call : K)
  | store (line : Nat) (call : K) (ret : R)
  | finish (line : Nat) (call : K)

variable {K W R : Type}

def WorkerPhase.line : WorkerPhase K R → Option Nat
  | .idle => none
  | .fetch l | .accept l _ | .run l _ | .store l _ _ | .finish l _ => some l

structure View (K W R : Type) where
  event : Nat → Bool
  free : Nat → Bool
  bufs : Nat → Option K
  status : K → Status
  ret : K → R
  phase : K → Phase
  worker : W → WorkerPhase K R
  hist : K → List (W × R)
  reports : K → List (Option R)

inductive Slot (K W : Type)
  | vacant
  | prep (call : K)
  | signalled (call : K)
  | claimed (call : K) (worker : W)
  | finished (call : K)
  | revoked (call : K)

def Slot.call : Slot K W → Option K
  | .vacant => none
  | .prep k | .signalled k | .claimed k _ | .finished k | .revoked k => some k

def Slot.worker : Slot K W → Option W
  | .claimed _ w => some w
  | _ => none

def PrepOk (v : View K W R) (l : Nat) (k : K) : Phase → Prop
  | .submit l' => l' = l ∧ v.status k = .init
  | .publish l' => l' = l ∧ v.status k = .submitted
  | .trigger l' => l' = l ∧ v.status k = .submitted ∧ v.bufs l = some k
  | _ => False

def ClaimOk (v : View K W R) (l : Nat) (k : K) (w : W) : WorkerPhase K R → Prop
  | .fetch l' => l' = l ∧ v.status k = .submitted ∧ v.hist k = []
  | .accept l' k' => l' = l ∧ k' = k ∧ v.status k = .submitted ∧ v.hist k = []
  | .run l' k' => l' = l ∧ k' = k ∧ v.status k = .accepted ∧ v.hist k = []
  | .store l' k' r => l' = l ∧ k' = k ∧ v.status k = .accepted ∧ v.hist k = [(w, r)]
  | .finish l' k' => l' = l ∧ k' = k ∧ v.status k = .accepted ∧ v.hist k = [(w, v.ret k)]
  | .idle => False

def SlotOk (v : View K W R) (l : Nat) : Slot K W → Prop
  | .vacant => v.event l = false
  | .prep k => v.event l = false ∧ v.free l = false ∧ PrepOk v l k (v.phase k) ∧ v.hist k = [] ∧ v.reports k = []
  | .signalled k =>
    v.event l = true ∧ v.free l = false ∧ v.phase k = .asked l ∧ v.status k = .submitted ∧ v.bufs l = some k ∧
      v.hist k = [] ∧ v.reports k = []
  | .claimed k w =>
    v.event l = false ∧ v.free l = false ∧ (v.phase k = .asked l ∨ v.phase k = .wait l) ∧ v.bufs l = some k ∧
      ClaimOk v l k w (v.worker w) ∧ v.reports k = []
  | .finished k =>
    v.event l = false ∧ v.free l = false ∧
      (v.phase k = .asked l ∨ v.phase k = .wait l ∨ v.phase k = .leave l .done) ∧ v.status k = .done ∧
      (∃ w, v.hist k = [(w, v.ret k)]) ∧ v.reports k = []
  | .revoked k =>
    v.event l = false ∧ v.free l = false ∧ v.phase k = .leave l .again ∧ v.hist k = [] ∧ v.reports k = []

def AwayOk (v : View K W R) (k : K) : Phase → Prop
  | .away => v.status k = .init ∧ v.hist k = [] ∧ v.reports k = []
  | .left .done => (∃ w, v.hist k = [(w, v.ret k)]) ∧ v.reports k = [some (v.ret k)]
  | .left .again => v.hist k = [] ∧ v.reports k = [none]
  | _ => True

structure Inv (v : View K W R) (slot : Nat → Slot K W) : Prop where
  slots : ∀ l, SlotOk v l (slot l)
  away : ∀ k, AwayOk v k (v.phase k)
  call : ∀ k l, (v.phase k).line = some l → (slot l).call = some k
  worker : ∀ w l, (v.worker w).line = some l → (slot l).worker = some w

variable {v v' : View K W R} {slot : Nat → Slot K W} {sl : Slot K W} {l : Nat} {k : K} {w : W}

theorem SlotOk.line_call (h : SlotOk v l sl) (hk : sl.call = some k) : (v.phase k).line = some l := by
  cases sl with
  | vacant => cases hk
  | prep k' =>
    cases hk
    obtain ⟨-, -, hprep, -⟩ := h
    cases hp : v.phase k <;> rw [hp] at hprep <;> first | exact hprep.elim | exact congrArg some hprep.1
  | signalled k' =>
    cases hk
    rw [h.2.2.1]
    rfl
  | claimed k' w' =>
    cases hk
    rcases h.2.2.1 with hp | hp <;> rw [hp] <;> rfl
  | finished k' =>
    cases hk
    rcases h.2.2.1 with hp | hp | hp <;> rw [hp] <;> rfl
  | revoked k' =>
    cases hk
    rw [h.2.2.1]
    rfl

theorem SlotOk.line_worker (h : SlotOk v l sl) (hw : sl.worker = some w) : (v.worker w).line = some l := by
  cases sl with
  | claimed k' w' =>
    cases hw
    have hclaim := h.2.2.2.2.1
    cases hp : v.worker w <;> rw [hp] at hclaim <;> first | exact hclaim.elim | exact congrArg some hclaim.1
  | _ => cases hw

structure SameCall (v v' : View K W R) (k : K) : Prop where
  status : v'.status k = v.status k
  ret : v'.ret k = v.ret k
  phase : v'.phase k = v.phase k
  hist : v'.hist k = v.hist k
  reports : v'.reports k = v.reports k

structure SameLine (v v' : View K W R) (l : Nat) : Prop where
  event : v'.event l = v.event l
  free : v'.free l = v.free l
  bufs : v'.bufs l = v.bufs l

theorem SlotOk.frame (h : SlotOk v l sl) (hline : SameLine v v' l) (hcall : ∀ k, sl.call = some k → SameCall v v' k)
    (hworker : ∀ w, sl.worker = some w → v'.worker w = v.worker w) : SlotOk v' l sl := by
  obtain ⟨hevent, hfree, hbufs⟩ := hline
  cases sl with
  | vacant => exact hevent.trans h
  | claimed k w =>
    obtain ⟨hstatus, hret, hphase, hhist, hreports⟩ := hcall k rfl
    have hw := hworker w rfl
    dsimp only [SlotOk] at h ⊢
    rw [hevent, hfree, hbufs, hphase, hreports, hw]
    refine ⟨h.1, h.2.1, h.2.2.1, h.2.2.2.1, ?_, h.2.2.2.2.2⟩
    have hclaim := h.2.2.2.2.1
    cases hp : v.worker w <;> rw [hp] at hclaim <;>
      simp only [ClaimOk, hstatus, hhist, hret] at hclaim ⊢ <;> exact hclaim
  | prep k =>
    obtain ⟨hstatus, hret, hphase, hhist, hreports⟩ := hcall k rfl
    dsimp only [SlotOk] at h ⊢
    rw [hevent, hfree, hphase, hhist, hreports]
    refine ⟨h.1, h.2.1, ?_, h.2.2.2⟩
    have hprep := h.2.2.1
    cases hp : v.phase k <;> rw [hp] at hprep <;> simp only [PrepOk, hstatus, hbufs] at hprep ⊢ <;> exact hprep
  | _ k =>
    obtain ⟨hstatus, hret, hphase, hhist, hreports⟩ := hcall k rfl
    simp only [SlotOk, hevent, hfree, hbufs, hphase, hstatus, hhist, hreports, hret] at h ⊢
    exact h

theorem AwayOk.frame {p : Phase} (h : AwayOk v k p) (hcall : SameCall v v' k) : AwayOk v' k p := by
  obtain ⟨hstatus, hret, hphase, hhist, hreports⟩ := hcall
  unfold AwayOk at *
  rw [hstatus, hret, hhist, hreports]
  exact h

section

variable (h : Inv v slot)
include h

theorem Inv.hand (k : K) (sl : Slot K W) (hlines : ∀ l', l' ≠ l → SameLine v v' l')
    (hcalls : ∀ k', k' ≠ k → SameCall v v' k')
    (hwas : (slot l).call = some k ∨ (slot l).call = none ∧ (v.phase k).line = none)
    (hworkers : ∀ w, v'.worker w = v.worker w ∧ ((slot l).worker = some w → sl.worker = some w) ∨
      ((v.worker w).line = none ∨ (v.worker w).line = some l) ∧
        ∀ l', (v'.worker w).line = some l' → l' = l ∧ sl.worker = some w)
    (hslot : SlotOk v' l sl) (haway : AwayOk v' k (v'.phase k))
    (hcall : ∀ l', (v'.phase k).line = some l' → l' = l ∧ sl.call = some k) :
    Inv v' (update slot l sl) where
  slots l' := by
    by_cases hl : l' = l
    . subst hl
      rw [update_self]
      exact hslot
    rw [update_of_ne hl]
    have hok := h.slots l'
    refine hok.frame (hlines l' hl) (fun k' hk' => hcalls k' ?_) fun w hw => ?_
    . rintro rfl
      have hline := hok.line_call hk'
      rcases hwas with hsome | ⟨-, hnone⟩
      . exact hl (Option.some.inj (hline.symm.trans ((h.slots l).line_call hsome)))
      . cases hline.symm.trans hnone
    have hline := hok.line_worker hw
    rcases hworkers w with ⟨heq, -⟩ | ⟨hnone | hsome, -⟩
    . exact heq
    . cases hline.symm.trans hnone
    . exact absurd (Option.some.inj (hline.symm.trans hsome)) hl
  away k' := by
    by_cases hk : k' = k
    . subst hk
      exact haway
    rw [(hcalls k' hk).phase]
    exact (h.away k').frame (hcalls k' hk)
  call k' l' hline := by
    by_cases hk : k' = k
    . subst hk
      obtain ⟨rfl, hsl⟩ := hcall l' hline
      rwa [update_self]
    rw [(hcalls k' hk).phase] at hline
    have hhas := h.call k' l' hline
    have hl : l' ≠ l := by
      rintro rfl
      rcases hwas with hsome | ⟨hnone, -⟩
      . exact hk (Option.some.inj (hhas.symm.trans hsome))
      . cases hhas.symm.trans hnone
    rw [update_of_ne hl]
    exact hhas
  worker w l' hline := by
    rcases hworkers w with ⟨heq, hkeep⟩ | ⟨-, hnew⟩
    . rw [heq] at hline
      have hw := h.worker w l' hline
      by_cases hl : l' = l
      . subst hl
        rw [update_self]
        exact hkeep hw
      . rwa [update_of_ne hl]
    . obtain ⟨rfl, hsl⟩ := hnew l' hline
      rwa [update_self]

theorem Inv.prep_of_phase
    (hp : v.phase k = .submit l ∨ v.phase k = .publish l ∨ v.phase k = .trigger l) : slot l = .prep k := by
  have hline : (v.phase k).line = some l := by rcases hp with hp | hp | hp <;> rw [hp] <;> rfl
  have hcall := h.call k l hline
  have hok := h.slots l
  cases hs : slot l with
  | vacant => rw [hs] at hcall; cases hcall
  | prep k' => rw [hs] at hcall; cases hcall; rfl
  | _ =>
    rw [hs] at hcall hok
    cases hcall
    simp only [SlotOk] at hok
    rcases hp with hp | hp | hp <;> simp [hp] at hok

theorem Inv.slot_of_asked (hp : v.phase k = .asked l) :
    slot l = .signalled k ∨ (∃ w, slot l = .claimed k w) ∨ slot l = .finished k := by
  have hcall := h.call k l (by rw [hp]; rfl)
  have hok := h.slots l
  cases hs : slot l with
  | signalled k' => rw [hs] at hcall; cases hcall; exact .inl rfl
  | claimed k' w => rw [hs] at hcall; cases hcall; exact .inr (.inl ⟨w, rfl⟩)
  | finished k' => rw [hs] at hcall; cases hcall; exact .inr (.inr rfl)
  | vacant => rw [hs] at hcall; cases hcall
  | _ =>
    rw [hs] at hcall hok
    cases hcall
    simp [SlotOk, PrepOk, hp] at hok

theorem Inv.slot_of_wait (hp : v.phase k = .wait l) : (∃ w, slot l = .claimed k w) ∨ slot l = .finished k := by
  have hcall := h.call k l (by rw [hp]; rfl)
  have hok := h.slots l
  cases hs : slot l with
  | claimed k' w => rw [hs] at hcall; cases hcall; exact .inl ⟨w, rfl⟩
  | finished k' => rw [hs] at hcall; cases hcall; exact .inr rfl
  | vacant => rw [hs] at hcall; cases hcall
  | _ =>
    rw [hs] at hcall hok
    cases hcall
    simp [SlotOk, PrepOk, hp] at hok

theorem Inv.slot_of_leave {r : Report} (hp : v.phase k = .leave l r) :
    slot l = .finished k ∧ r = .done ∨ slot l = .revoked k ∧ r = .again := by
  have hcall := h.call k l (by rw [hp]; rfl)
  have hok := h.slots l
  cases hs : slot l with
  | finished k' =>
    rw [hs] at hcall hok
    cases hcall
    simp [SlotOk, hp] at hok
    exact .inl ⟨rfl, hok.2.2.1⟩
  | revoked k' =>
    rw [hs] at hcall hok
    cases hcall
    simp [SlotOk, hp] at hok
    exact .inr ⟨rfl, hok.2.2.1⟩
  | vacant => rw [hs] at hcall; cases hcall
  | _ =>
    rw [hs] at hcall hok
    cases hcall
    simp [SlotOk, PrepOk, hp] at hok

theorem Inv.claimed_of_worker (hw : (v.worker w).line = some l) : ∃ k, slot l = .claimed k w := by
  have hworker := h.worker w l hw
  cases hs : slot l with
  | claimed k w' =>
    rw [hs] at hworker
    cases hworker
    exact ⟨k, rfl⟩
  | _ => rw [hs] at hworker; cases hworker

theorem Inv.signalled_of_event (hevent : v.event l = true) : ∃ k, slot l = .signalled k := by
  have hok := h.slots l
  cases hs : slot l with
  | signalled k => exact ⟨k, rfl⟩
  | _ =>
    rw [hs] at hok
    simp [SlotOk, hevent] at hok

theorem Inv.vacant_of_free (hfree : v.free l = true) : slot l = .vacant := by
  have hok := h.slots l
  cases hs : slot l with
  | vacant => rfl
  | _ =>
    rw [hs] at hok
    simp [SlotOk, hfree] at hok

end

variable [DecidableEq K] [DecidableEq W]

def Report.value (r : Report) (ret : R) : Option R :=
  match r with
  | .done => some ret
  | .again => none

inductive CallMove (v : View K W R) (k : K) : View K W R → Prop
  | full (hp : v.phase k = .away) :
    CallMove v k { v with
      phase := update v.phase k (.left .again)
      reports := update v.reports k (v.reports k ++ [none]) }
  | alloc (l : Nat) (hp : v.phase k = .away) (hfree : v.free l = true) :
    CallMove v k { v with
      phase := update v.phase k (.submit l)
      free := update v.free l false }
  | submit (l : Nat) (hp : v.phase k = .submit l) :
    CallMove v k { v with
      phase := update v.phase k (.publish l)
      status := update v.status k .submitted }
  | publish (l : Nat) (hp : v.phase k = .publish l) :
    CallMove v k { v with
      phase := update v.phase k (.trigger l)
      bufs := update v.bufs l (some k) }
  | trigger (l : Nat) (hp : v.phase k = .trigger l) :
    CallMove v k { v with
      phase := update v.phase k (.asked l)
      event := update v.event l true }
  | rely (l : Nat) (hp : v.phase k = .asked l) (hno : v.status k ≠ .submitted ∨ v.event l = false) :
    CallMove v k { v with phase := update v.phase k (.wait l) }
  | revoke (l : Nat) (hp : v.phase k = .asked l) (hevent : v.event l = true) :
    CallMove v k { v with
      phase := update v.phase k (.leave l .again)
      event := update v.event l false }
  | done (l : Nat) (hp : v.phase k = .wait l) (hdone : v.status k = .done) :
    CallMove v k { v with phase := update v.phase k (.leave l .done) }
  | clear (l : Nat) (r : Report) (hp : v.phase k = .leave l r) :
    CallMove v k { v with bufs := update v.bufs l none }
  | report (l : Nat) (r : Report) (hp : v.phase k = .leave l r) :
    CallMove v k { v with
      phase := update v.phase k (.left r)
      free := update v.free l true
      reports := update v.reports k (v.reports k ++ [r.value (v.ret k)]) }

inductive WorkMove (v : View K W R) (w : W) : View K W R → Prop
  | claim (l : Nat) (hp : v.worker w = .idle) (hevent : v.event l = true) :
    WorkMove v w { v with
      worker := update v.worker w (.fetch l)
      event := update v.event l false }
  | fetch (l : Nat) (k : K) (hp : v.worker w = .fetch l) (hbufs : v.bufs l = some k) :
    WorkMove v w { v with worker := update v.worker w (.accept l k) }
  | accept (l : Nat) (k : K) (hp : v.worker w = .accept l k) :
    WorkMove v w { v with
      worker := update v.worker w (.run l k)
      status := update v.status k .accepted }
  | run (l : Nat) (k : K) (r : R) (hp : v.worker w = .run l k) :
    WorkMove v w { v with
      worker := update v.worker w (.store l k r)
      hist := update v.hist k (v.hist k ++ [(w, r)]) }
  | store (l : Nat) (k : K) (r : R) (hp : v.worker w = .store l k r) :
    WorkMove v w { v with
      worker := update v.worker w (.finish l k)
      ret := update v.ret k r }
  | finish (l : Nat) (k : K) (hp : v.worker w = .finish l k) :
    WorkMove v w { v with
      worker := update v.worker w .idle
      status := update v.status k .done }

omit [DecidableEq W] in
theorem CallMove.reports_eq (hmove : CallMove v k v') {k' : K} {r : Option R}
    (h : v'.reports k' = v.reports k' ++ [r]) :
    v.phase k' = .away ∧ r = none ∨ ∃ l report, v.phase k' = .leave l report ∧ r = report.value (v.ret k') := by
  have hself : v.reports k' ≠ v.reports k' ++ [r] := fun heq => by simpa using congrArg List.length heq
  have hupdate : ∀ {x}, update v.reports k (v.reports k ++ [x]) k' = v.reports k' ++ [r] → k' = k ∧ r = x := by
    intro x hx
    by_cases hk : k' = k
    . subst hk
      rw [update_self] at hx
      exact ⟨rfl, (List.cons.inj (List.append_cancel_left hx)).1.symm⟩
    . rw [update_of_ne hk] at hx
      exact absurd hx hself
  cases hmove with
  | full hp =>
    obtain ⟨rfl, hr⟩ := hupdate h
    exact .inl ⟨hp, hr⟩
  | report l report hp =>
    obtain ⟨rfl, hr⟩ := hupdate h
    exact .inr ⟨l, report, hp, hr⟩
  | _ => exact absurd h hself

theorem WorkMove.reports_eq (hmove : WorkMove v w v') : v'.reports = v.reports := by
  cases hmove <;> rfl

omit [DecidableEq K] [DecidableEq W] in
theorem Inv.hist_of_done (h : Inv v slot) (hp : v.phase k = .leave l .done) : ∃ w, v.hist k = [(w, v.ret k)] := by
  have hok := h.slots l
  rcases h.slot_of_leave hp with ⟨hs, -⟩ | ⟨-, hr⟩
  . rw [hs] at hok
    exact hok.2.2.2.2.1
  . cases hr

omit [DecidableEq K] [DecidableEq W] in
theorem Inv.hist_of_reported (h : Inv v slot) {r : Option R} (hr : r ∈ v.reports k) :
    v.reports k = [r] ∧ ((∃ w, r = some (v.ret k) ∧ v.hist k = [(w, v.ret k)]) ∨ r = none ∧ v.hist k = []) := by
  have hnil : v.reports k ≠ [] := List.ne_nil_of_mem hr
  have haway := h.away k
  cases hp : v.phase k with
  | away =>
    rw [hp] at haway
    exact absurd haway.2.2 hnil
  | left report =>
    rw [hp] at haway
    cases report with
    | done =>
      obtain ⟨⟨w, hhist⟩, hreports⟩ := haway
      rw [hreports, List.mem_singleton] at hr
      exact ⟨by rw [hreports, hr], .inl ⟨w, hr, hhist⟩⟩
    | again =>
      obtain ⟨hhist, hreports⟩ := haway
      rw [hreports, List.mem_singleton] at hr
      exact ⟨by rw [hreports, hr], .inr ⟨hr, hhist⟩⟩
  | _ l =>
    -- a call with a line has not reported
    have hcall := h.call k l (by rw [hp]; rfl)
    have hok := h.slots l
    refine absurd ?_ hnil
    cases hs : slot l <;> rw [hs] at hcall hok <;> cases hcall <;> simp only [SlotOk] at hok
    all_goals simp [hok]

omit [DecidableEq K] [DecidableEq W] in
theorem Inv.handCall (h : Inv v slot) {p : Phase} (sl : Slot K W) (hphase : v'.phase k = p)
    (hlines : ∀ l', l' ≠ l → SameLine v v' l') (hcalls : ∀ k', k' ≠ k → SameCall v v' k')
    (hwas : (slot l).call = some k ∨ (slot l).call = none ∧ (v.phase k).line = none)
    (hworkers : v'.worker = v.worker) (hkeep : sl.worker = (slot l).worker)
    (hslot : SlotOk v' l sl) (haway : AwayOk v' k p) (hcall : ∀ l', p.line = some l' → l' = l ∧ sl.call = some k) :
    ∃ slot', Inv v' slot' :=
  ⟨_, h.hand k sl hlines hcalls hwas (fun w => .inl ⟨by rw [hworkers], fun hw => hkeep.trans hw⟩) hslot
    (by rw [hphase]; exact haway) (by rw [hphase]; exact hcall)⟩

omit [DecidableEq W] in
theorem Inv.turnAway (h : Inv v slot) (hp : (v.phase k).line = none) (hp' : (v'.phase k).line = none)
    (hlines : ∀ l, SameLine v v' l) (hcalls : ∀ k', k' ≠ k → SameCall v v' k') (hworkers : v'.worker = v.worker)
    (haway : AwayOk v' k (v'.phase k)) : Inv v' slot where
  slots l := by
    refine (h.slots l).frame (hlines l) (fun k' hk' => hcalls k' ?_) fun w _ => by rw [hworkers]
    rintro rfl
    cases ((h.slots l).line_call hk').symm.trans hp
  away k' := by
    by_cases hk : k' = k
    . subst hk
      exact haway
    rw [(hcalls k' hk).phase]
    exact (h.away k').frame (hcalls k' hk)
  call k' l hline := by
    have hk : k' ≠ k := by
      rintro rfl
      cases hline.symm.trans hp'
    rw [(hcalls k' hk).phase] at hline
    exact h.call k' l hline
  worker w l hline := by
    rw [hworkers] at hline
    exact h.worker w l hline

omit [DecidableEq K] [DecidableEq W] in
theorem ClaimOk.status_ne {p : WorkerPhase K R} (h : ClaimOk v l k w p) : v.status k ≠ .done := by
  cases p with
  | idle => exact h.elim
  | fetch => rw [h.2.1]; exact nofun
  | _ => rw [h.2.2.1]; exact nofun

omit [DecidableEq K] [DecidableEq W] in
theorem Inv.callMove_prep (h : Inv v slot) {p : Phase}
    (hp : v.phase k = .submit l ∨ v.phase k = .publish l ∨ v.phase k = .trigger l) (sl : Slot K W)
    (hphase : v'.phase k = p) (hlines : ∀ l', l' ≠ l → SameLine v v' l') (hcalls : ∀ k', k' ≠ k → SameCall v v' k')
    (hworkers : v'.worker = v.worker) (hkeep : sl.worker = none) (hslot : SlotOk v' l sl) (haway : AwayOk v' k p)
    (hcall : ∀ l', p.line = some l' → l' = l ∧ sl.call = some k) : ∃ slot', Inv v' slot' := by
  have hs := h.prep_of_phase hp
  exact h.handCall sl hphase hlines hcalls (.inl (by rw [hs]; rfl)) hworkers (by rw [hs]; exact hkeep) hslot haway hcall

omit [DecidableEq K] [DecidableEq W] in
theorem Inv.prepOk (h : Inv v slot)
    (hp : v.phase k = .submit l ∨ v.phase k = .publish l ∨ v.phase k = .trigger l) : SlotOk v l (.prep k) := by
  rw [← h.prep_of_phase hp]
  exact h.slots l

omit [DecidableEq W] in
theorem Inv.callMove (h : Inv v slot) (hmove : CallMove v k v') : ∃ slot', Inv v' slot' := by
  have hself : ∀ p, update v.phase k p k = p := fun _ => update_self _ _ _
  cases hmove with
  | full hp =>
    have hk := h.away k
    rw [hp] at hk
    refine ⟨slot, h.turnAway (k := k) (by rw [hp]; rfl) (by dsimp only; rw [hself]; rfl) (fun _ => ⟨rfl, rfl, rfl⟩)
      (fun k' hk => ⟨rfl, rfl, update_of_ne hk _ _, rfl, update_of_ne hk _ _⟩) rfl ?_⟩
    dsimp only
    rw [hself]
    exact ⟨hk.2.1, by dsimp only; rw [update_self, hk.2.2]; rfl⟩
  | alloc l hp hfree =>
    have hs := h.vacant_of_free hfree
    have hevent : SlotOk v l .vacant := hs ▸ h.slots l
    have hk := h.away k
    rw [hp] at hk
    refine h.handCall (.prep k) (hself _) (fun l' hl => ⟨rfl, update_of_ne hl _ _, rfl⟩)
      (fun k' hk => ⟨rfl, rfl, update_of_ne hk _ _, rfl, rfl⟩) (.inr ⟨by rw [hs]; rfl, by rw [hp]; rfl⟩) rfl
      (by rw [hs]; rfl) ?_ trivial (by rintro _ ⟨⟩; exact ⟨rfl, rfl⟩)
    refine ⟨hevent, update_self _ _ _, ?_, hk.2⟩
    dsimp only
    rw [hself]
    exact ⟨rfl, hk.1⟩
  | submit l hp =>
    obtain ⟨hevent, hfree, -, hhist, hreports⟩ := h.prepOk (.inl hp)
    refine h.callMove_prep (.inl hp) (.prep k) (hself _) (fun l' hl => ⟨rfl, rfl, rfl⟩)
      (fun k' hk => ⟨update_of_ne hk _ _, rfl, update_of_ne hk _ _, rfl, rfl⟩) rfl rfl ?_ trivial
      (by rintro _ ⟨⟩; exact ⟨rfl, rfl⟩)
    refine ⟨hevent, hfree, ?_, hhist, hreports⟩
    dsimp only
    rw [hself]
    exact ⟨rfl, update_self _ _ _⟩
  | publish l hp =>
    obtain ⟨hevent, hfree, hprep, hhist, hreports⟩ := h.prepOk (.inr (.inl hp))
    rw [hp] at hprep
    refine h.callMove_prep (.inr (.inl hp)) (.prep k) (hself _) (fun l' hl => ⟨rfl, rfl, update_of_ne hl _ _⟩)
      (fun k' hk => ⟨rfl, rfl, update_of_ne hk _ _, rfl, rfl⟩) rfl rfl ?_ trivial
      (by rintro _ ⟨⟩; exact ⟨rfl, rfl⟩)
    refine ⟨hevent, hfree, ?_, hhist, hreports⟩
    dsimp only
    rw [hself]
    exact ⟨rfl, hprep.2, update_self _ _ _⟩
  | trigger l hp =>
    obtain ⟨-, hfree, hprep, hhist, hreports⟩ := h.prepOk (.inr (.inr hp))
    rw [hp] at hprep
    refine h.callMove_prep (.inr (.inr hp)) (.signalled k) (hself _) (fun l' hl => ⟨update_of_ne hl _ _, rfl, rfl⟩)
      (fun k' hk => ⟨rfl, rfl, update_of_ne hk _ _, rfl, rfl⟩) rfl rfl ?_ trivial
      (by rintro _ ⟨⟩; exact ⟨rfl, rfl⟩)
    exact ⟨update_self _ _ _, hfree, hself _, hprep.2.1, hprep.2.2, hhist, hreports⟩
  | rely l hp hno =>
    have hsame : SameLine v { v with phase := update v.phase k (.wait l) } l := ⟨rfl, rfl, rfl⟩
    have hlines : ∀ l', l' ≠ l → SameLine v { v with phase := update v.phase k (.wait l) } l' :=
      fun l' hl => ⟨rfl, rfl, rfl⟩
    have hcalls : ∀ k', k' ≠ k → SameCall v { v with phase := update v.phase k (.wait l) } k' :=
      fun k' hk => ⟨rfl, rfl, update_of_ne hk _ _, rfl, rfl⟩
    have hok := h.slots l
    rcases h.slot_of_asked hp with hs | ⟨w, hs⟩ | hs
    . rw [hs] at hok
      obtain ⟨hevent, -, -, hstatus, -⟩ := hok
      rcases hno with hno | hno
      . exact absurd hstatus hno
      . cases hevent.symm.trans hno
    . rw [hs] at hok
      obtain ⟨hevent, hfree, -, hbufs, hclaim, hreports⟩ := hok
      exact h.handCall (.claimed k w) (hself _) hlines hcalls (.inl (by rw [hs]; rfl)) rfl (by rw [hs])
        ⟨hevent, hfree, .inr (hself _), hbufs, hclaim, hreports⟩ trivial (by rintro _ ⟨⟩; exact ⟨rfl, rfl⟩)
    . rw [hs] at hok
      obtain ⟨hevent, hfree, -, hstatus, hhist, hreports⟩ := hok
      exact h.handCall (.finished k) (hself _) hlines hcalls (.inl (by rw [hs]; rfl)) rfl (by rw [hs])
        ⟨hevent, hfree, .inr (.inl (hself _)), hstatus, hhist, hreports⟩ trivial
        (by rintro _ ⟨⟩; exact ⟨rfl, rfl⟩)
  | revoke l hp hevent =>
    obtain ⟨k', hs⟩ := h.signalled_of_event hevent
    obtain rfl : k = k' := by
      rcases h.slot_of_asked hp with hs' | ⟨w, hs'⟩ | hs' <;> cases hs.symm.trans hs'
      rfl
    have hok := h.slots l
    rw [hs] at hok
    obtain ⟨-, hfree, -, -, -, hhist, hreports⟩ := hok
    exact h.handCall (.revoked k) (hself _) (fun l' hl => ⟨update_of_ne hl _ _, rfl, rfl⟩)
      (fun k' hk => ⟨rfl, rfl, update_of_ne hk _ _, rfl, rfl⟩) (.inl (by rw [hs]; rfl)) rfl (by rw [hs]; rfl)
      ⟨update_self _ _ _, hfree, hself _, hhist, hreports⟩ trivial (by rintro _ ⟨⟩; exact ⟨rfl, rfl⟩)
  | done l hp hdone =>
    have hok := h.slots l
    rcases h.slot_of_wait hp with ⟨w, hs⟩ | hs
    . rw [hs] at hok
      exact absurd hdone hok.2.2.2.2.1.status_ne
    rw [hs] at hok
    obtain ⟨hevent, hfree, -, hstatus, hhist, hreports⟩ := hok
    exact h.handCall (.finished k) (hself _) (fun l' hl => ⟨rfl, rfl, rfl⟩)
      (fun k' hk => ⟨rfl, rfl, update_of_ne hk _ _, rfl, rfl⟩) (.inl (by rw [hs]; rfl)) rfl (by rw [hs])
      ⟨hevent, hfree, .inr (.inr (hself _)), hstatus, hhist, hreports⟩ trivial
      (by rintro _ ⟨⟩; exact ⟨rfl, rfl⟩)
  | clear l r hp =>
    have hok := h.slots l
    have hlines : ∀ l', l' ≠ l → SameLine v { v with bufs := update v.bufs l none } l' :=
      fun l' hl => ⟨rfl, rfl, update_of_ne hl _ _⟩
    rcases h.slot_of_leave hp with ⟨hs, rfl⟩ | ⟨hs, rfl⟩
    . rw [hs] at hok
      exact h.handCall (.finished k) hp hlines (fun k' hk => ⟨rfl, rfl, rfl, rfl, rfl⟩) (.inl (by rw [hs]; rfl)) rfl
        (by rw [hs]) hok trivial (by rintro _ ⟨⟩; exact ⟨rfl, rfl⟩)
    rw [hs] at hok
    exact h.handCall (.revoked k) hp hlines (fun k' hk => ⟨rfl, rfl, rfl, rfl, rfl⟩) (.inl (by rw [hs]; rfl)) rfl
      (by rw [hs]) hok trivial (by rintro _ ⟨⟩; exact ⟨rfl, rfl⟩)
  | report l r hp =>
    have hok := h.slots l
    have hreport : ∀ x, update v.reports k x k = x := fun _ => update_self _ _ _
    rcases h.slot_of_leave hp with ⟨hs, rfl⟩ | ⟨hs, rfl⟩
    . rw [hs] at hok
      obtain ⟨hevent, -, -, -, hhist, hreports⟩ := hok
      exact h.handCall .vacant (hself _) (fun l' hl => ⟨rfl, update_of_ne hl _ _, rfl⟩)
        (fun k' hk => ⟨rfl, rfl, update_of_ne hk _ _, rfl, update_of_ne hk _ _⟩)
        (.inl (by rw [hs]; rfl)) rfl (by rw [hs]; rfl) hevent
        ⟨hhist, by dsimp only; rw [hreport, hreports]; rfl⟩ nofun
    rw [hs] at hok
    obtain ⟨hevent, -, -, hhist, hreports⟩ := hok
    exact h.handCall .vacant (hself _) (fun l' hl => ⟨rfl, update_of_ne hl _ _, rfl⟩)
      (fun k' hk => ⟨rfl, rfl, update_of_ne hk _ _, rfl, update_of_ne hk _ _⟩)
      (.inl (by rw [hs]; rfl)) rfl (by rw [hs]; rfl) hevent
      ⟨hhist, by dsimp only; rw [hreport, hreports]; rfl⟩ nofun

omit [DecidableEq K] in
theorem Inv.handWorker (h : Inv v slot) (hs : slot l = .claimed k w) (sl : Slot K W) (hsl : sl.call = some k)
    {p : WorkerPhase K R} (hworkers : v'.worker = update v.worker w p)
    (hp : ∀ l', p.line = some l' → l' = l ∧ sl.worker = some w) (hphase : v'.phase = v.phase)
    (hlines : ∀ l', l' ≠ l → SameLine v v' l') (hcalls : ∀ k', k' ≠ k → SameCall v v' k')
    (hslot : SlotOk v' l sl) : ∃ slot', Inv v' slot' := by
  have hok := h.slots l
  have hcall : (slot l).call = some k := by rw [hs]; rfl
  have hline := hok.line_call hcall
  have hwline := hok.line_worker (w := w) (by rw [hs]; rfl)
  refine ⟨_, h.hand k sl hlines hcalls (.inl hcall) (fun w' => ?_) hslot ?_ ?_⟩
  . by_cases hw : w' = w
    . subst hw
      refine .inr ⟨.inr hwline, ?_⟩
      rw [hworkers, update_self]
      exact hp
    . refine .inl ⟨by rw [hworkers, update_of_ne hw], fun hw' => ?_⟩
      rw [hs] at hw'
      exact absurd (Option.some.inj hw').symm hw
  . rw [hphase]
    cases hk : v.phase k <;> rw [hk] at hline <;> first | exact trivial | cases hline
  . rw [hphase, hline]
    rintro _ ⟨⟩
    exact ⟨rfl, hsl⟩

omit [DecidableEq K] [DecidableEq W] in
theorem Inv.claim_of_worker (h : Inv v slot) {p : WorkerPhase K R} (hp : v.worker w = p) (hl : p.line = some l) :
    ∃ k, slot l = .claimed k w ∧ ClaimOk v l k w p ∧ SlotOk v l (.claimed k w) := by
  obtain ⟨k, hs⟩ := h.claimed_of_worker (w := w) (l := l) (by rw [hp]; exact hl)
  have hok := h.slots l
  rw [hs] at hok
  refine ⟨k, hs, ?_, hok⟩
  rw [← hp]
  exact hok.2.2.2.2.1

theorem Inv.workMove (h : Inv v slot) (hmove : WorkMove v w v') : ∃ slot', Inv v' slot' := by
  have hself : ∀ p, update v.worker w p w = p := fun _ => update_self _ _ _
  cases hmove with
  | claim l hp hevent =>
    obtain ⟨k, hs⟩ := h.signalled_of_event hevent
    have hok := h.slots l
    rw [hs] at hok
    obtain ⟨-, hfree, hphase, hstatus, hbufs, hhist, hreports⟩ := hok
    refine ⟨_, h.hand k (.claimed k w) (fun l' hl => ⟨update_of_ne hl _ _, rfl, rfl⟩)
      (fun _ _ => ⟨rfl, rfl, rfl, rfl, rfl⟩) (.inl (by rw [hs]; rfl)) (fun w' => ?_)
      ⟨update_self _ _ _, hfree, .inl hphase, hbufs, ?_, hreports⟩ (by rw [hphase]; exact trivial)
      (by rw [hphase]; rintro _ ⟨⟩; exact ⟨rfl, rfl⟩)⟩
    . by_cases hw : w' = w
      . subst hw
        refine .inr ⟨.inl (by rw [hp]; rfl), ?_⟩
        dsimp only
        rw [hself]
        rintro _ ⟨⟩
        exact ⟨rfl, rfl⟩
      . exact .inl ⟨update_of_ne hw _ _, by rw [hs]; exact nofun⟩
    . dsimp only
      rw [hself]
      exact ⟨rfl, hstatus, hhist⟩
  | fetch l k hp hbufs =>
    obtain ⟨k', hs, hclaim, hevent, hfree, hphase, hbufs', -, hreports⟩ := h.claim_of_worker hp rfl
    obtain rfl : k' = k := Option.some.inj (hbufs'.symm.trans hbufs)
    refine h.handWorker hs (.claimed k' w) rfl rfl (by rintro _ ⟨⟩; exact ⟨rfl, rfl⟩) rfl (fun _ _ => ⟨rfl, rfl, rfl⟩)
      (fun _ _ => ⟨rfl, rfl, rfl, rfl, rfl⟩) ⟨hevent, hfree, hphase, hbufs', ?_, hreports⟩
    dsimp only
    rw [hself]
    exact ⟨rfl, rfl, hclaim.2⟩
  | accept l k hp =>
    obtain ⟨_, hs, ⟨-, rfl, -, hhist⟩, hevent, hfree, hphase, hbufs, -, hreports⟩ := h.claim_of_worker hp rfl
    refine h.handWorker hs (.claimed k w) rfl rfl (by rintro _ ⟨⟩; exact ⟨rfl, rfl⟩) rfl (fun _ _ => ⟨rfl, rfl, rfl⟩)
      (fun _ hk => ⟨update_of_ne hk _ _, rfl, rfl, rfl, rfl⟩) ⟨hevent, hfree, hphase, hbufs, ?_, hreports⟩
    dsimp only
    rw [hself]
    exact ⟨rfl, rfl, update_self _ _ _, hhist⟩
  | run l k r hp =>
    obtain ⟨_, hs, ⟨-, rfl, hstatus, hhist⟩, hevent, hfree, hphase, hbufs, -, hreports⟩ := h.claim_of_worker hp rfl
    refine h.handWorker hs (.claimed k w) rfl rfl (by rintro _ ⟨⟩; exact ⟨rfl, rfl⟩) rfl (fun _ _ => ⟨rfl, rfl, rfl⟩)
      (fun _ hk => ⟨rfl, rfl, rfl, update_of_ne hk _ _, rfl⟩) ⟨hevent, hfree, hphase, hbufs, ?_, hreports⟩
    dsimp only
    rw [hself]
    refine ⟨rfl, rfl, hstatus, ?_⟩
    dsimp only
    rw [update_self, hhist]
    rfl
  | store l k r hp =>
    obtain ⟨_, hs, ⟨-, rfl, hstatus, hhist⟩, hevent, hfree, hphase, hbufs, -, hreports⟩ := h.claim_of_worker hp rfl
    refine h.handWorker hs (.claimed k w) rfl rfl (by rintro _ ⟨⟩; exact ⟨rfl, rfl⟩) rfl (fun _ _ => ⟨rfl, rfl, rfl⟩)
      (fun _ hk => ⟨rfl, update_of_ne hk _ _, rfl, rfl, rfl⟩) ⟨hevent, hfree, hphase, hbufs, ?_, hreports⟩
    dsimp only
    rw [hself]
    refine ⟨rfl, rfl, hstatus, ?_⟩
    dsimp only
    rw [update_self]
    exact hhist
  | finish l k hp =>
    obtain ⟨_, hs, ⟨-, rfl, -, hhist⟩, hevent, hfree, hphase, -, -, hreports⟩ := h.claim_of_worker hp rfl
    exact h.handWorker hs (.finished k) rfl rfl nofun rfl (fun _ _ => ⟨rfl, rfl, rfl⟩)
      (fun _ hk => ⟨update_of_ne hk _ _, rfl, rfl, rfl, rfl⟩)
      ⟨hevent, hfree, hphase.imp_right .inl, update_self _ _ _, ⟨w, hhist⟩, hreports⟩

end Switchless
