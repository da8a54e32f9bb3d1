import Mathlib.Data.List.Induction
import Mathlib.Data.List.Infix
import SrasMage.Run
import SrasMage.Sgx

/-!
This module contains the read lock of an enclave in nested calls of a host thread (`CEnclave::ecall`,
`CEnclave::ocall` and `CEnclave::fill_tcs_mini_pool` of `psw/urts/enclave.cpp`, with `enter_enclave.S` and the
signal handler between them).
-/

namespace Urts.CEnclave

abbrev Status := Nat

export Sgx (sgxSuccess sgxErrorUnexpected sgxErrorEnclaveLost sgxErrorOutOfTcs sgxErrorStackOverrun)

def seErrorReadLockFail : Status := 0xc0002202

def errorTrts2urts (trtsError : Status) : Status :=
  if trtsError = seErrorReadLockFail then sgxErrorEnclaveLost
  else if trtsError >>> 30 ≠ 0 then sgxErrorUnexpected
  else trtsError

inductive Attempt where
  | fails
  | destroyed
  | taken
deriving DecidableEq

inductive LockEvent where
  | lock
  | unlock
deriving DecidableEq

inductive Entry where
  | switchless (status : Status)
  | noThread
  | trimFails (status : Status)
  | enters
deriving DecidableEq

inductive Step where
  | ecall (attempt : Attempt) (entry : Entry)
  | eret (status : Status)
  | ocall (inTable : Bool)
  | oret (status : Status) (attempt : Attempt)
  | except (attempt : Attempt) (hasThread handlerReturns : Bool)
  | fill (attempt : Attempt) (isValid : Bool)
  | mktcs
  | filled
deriving DecidableEq

inductive Owner where
  | ecall
  | pool
deriving DecidableEq

inductive Place where
  | inside
  | outside
  | idle
deriving DecidableEq

/--
A call of `do_ecall`, with the calls for exceptions on top of it (whether the previous signal handler returns if
the enclave cannot handle the exception). All levels but the last are inside of the enclave.
-/
structure Frame where
  owner : Owner
  exceptions : List Bool
  place : Place
deriving DecidableEq

def Frame.locks (f : Frame) : Nat :=
  match f.place with
  | .inside => f.exceptions.length + 1
  | .outside => f.exceptions.length
  | .idle => 1

structure Thread where
  frames : List Frame
  stopped : Bool
  log : List LockEvent
  returned : Option Status
deriving DecidableEq

namespace Thread

def start : Thread := ⟨[], false, [], none⟩

variable (t : Thread)

def lock : Thread := { t with log := t.log ++ [.lock] }
def rdUnlock : Thread := { t with log := t.log ++ [.unlock] }
def returns (status : Status) : Thread := { t with returned := some status }
def push (f : Frame) : Thread := { t with frames := f :: t.frames }

end Thread

def Handled (ret : Status) : Prop :=
  errorTrts2urts ret = sgxSuccess ∨ errorTrts2urts ret = sgxErrorEnclaveLost
    ∨ errorTrts2urts ret = sgxErrorStackOverrun

instance : DecidablePred Handled := fun _ => inferInstanceAs (Decidable (_ ∨ _ ∨ _))

/--
`do_ecall` returns `ret` to `CEnclave::ecall`, to the pool or to the signal handler. The handler lets an error that
the enclave lost leave the interrupted call too, and unlocks for an error that it passes on.
-/
def leave (owner : Owner) : List Bool → Status → Thread → Thread
  | [], ret, t =>
    match owner with
    | .ecall => (if ret ≠ seErrorReadLockFail then t.rdUnlock else t).returns (errorTrts2urts ret)
    | .pool => t.push ⟨.pool, [], .idle⟩
  | handlerReturns :: exceptions, ret, t =>
    let t := if ret ≠ seErrorReadLockFail then t.rdUnlock else t
    if errorTrts2urts ret = sgxSuccess then t.push ⟨owner, exceptions, .inside⟩
    else if errorTrts2urts ret = sgxErrorEnclaveLost ∨ errorTrts2urts ret = sgxErrorStackOverrun then
      leave owner exceptions (errorTrts2urts ret) t
    else { t.rdUnlock.push ⟨owner, exceptions, .inside⟩ with stopped := !handlerReturns }

namespace Thread

variable (t : Thread)

def ecall (attempt : Attempt) (entry : Entry) : Thread :=
  match attempt with
  | .fails => t.returns sgxErrorEnclaveLost
  | .destroyed => t.lock.rdUnlock.returns sgxErrorEnclaveLost
  | .taken =>
    match entry with
    | .switchless status => t.lock.rdUnlock.returns status
    | .noThread => t.lock.rdUnlock.returns (errorTrts2urts sgxErrorOutOfTcs)
    | .trimFails status => t.lock.rdUnlock.returns status
    | .enters => t.lock.push ⟨.ecall, [], .inside⟩

def ocall (f : Frame) (inTable : Bool) : Thread :=
  -- an OCALL that is not in the table returns with the lock held, and the enclave is entered again
  if inTable then t.rdUnlock.push { f with place := .outside } else t.push f

def relock (status : Status) : Attempt → Thread × Status
  | .fails => (t, seErrorReadLockFail)
  | .destroyed => (t.lock.rdUnlock, seErrorReadLockFail)
  | .taken => (t.lock, status)

def oret (f : Frame) (status : Status) (attempt : Attempt) : Thread :=
  let (t, error) := t.relock status attempt
  if error = seErrorReadLockFail then leave f.owner f.exceptions error t
  else t.push { f with place := .inside }

def except (f : Frame) (attempt : Attempt) (hasThread handlerReturns : Bool) : Thread :=
  match attempt with
  | .fails => leave f.owner f.exceptions sgxErrorEnclaveLost t
  | .destroyed => leave f.owner f.exceptions sgxErrorEnclaveLost t.lock.rdUnlock
  | .taken =>
    if hasThread then t.lock.push ⟨f.owner, handlerReturns :: f.exceptions, .inside⟩
    else { t.lock.rdUnlock.rdUnlock.push f with stopped := !handlerReturns }

def fill (attempt : Attempt) (isValid : Bool) : Thread :=
  match attempt with
  | .fails => t.returns sgxErrorEnclaveLost
  | .destroyed => t.lock.rdUnlock.returns sgxErrorEnclaveLost
  | .taken => if isValid then t.lock.push ⟨.pool, [], .idle⟩ else t.lock.rdUnlock.returns sgxSuccess

def outer (rest : List Frame) : Thread := { t with frames := rest }

def step (e : Step) : Option Thread :=
  if t.stopped then none
  else
    match t.frames, e with
    | [], .ecall attempt entry => some (t.ecall attempt entry)
    | [], .fill attempt isValid => some (t.fill attempt isValid)
    | f :: rest, e =>
      match f.place, e with
      | .inside, .eret status => some (leave f.owner f.exceptions status (t.outer rest))
      | .inside, .ocall inTable => some ((t.outer rest).ocall f inTable)
      | .inside, .except attempt hasThread handlerReturns =>
        some ((t.outer rest).except f attempt hasThread handlerReturns)
      | .outside, .ecall attempt entry => some (t.ecall attempt entry)
      | .outside, .oret status attempt => some ((t.outer rest).oret f status attempt)
      | .idle, .mktcs => some ((t.outer rest).push ⟨.pool, [], .inside⟩)
      | .idle, .filled => some (t.outer rest).rdUnlock
      | _, _ => none
    | _, _ => none

def Steps (s : Thread) (e : Step) (s' : Thread) : Prop := s.step e = some s'

def locks : Nat := (t.frames.map Frame.locks).sum

def depth : Nat := t.locks - if t.stopped then 1 else 0

end Thread

def held (log : List LockEvent) : Option Nat :=
  log.foldl (fun state event =>
    match state, event with
    | some n, .lock => some (n + 1)
    | some (n + 1), .unlock => some n
    | _, _ => none) (some 0)

structure Balanced (t : Thread) : Prop where
  held_eq : held t.log = some t.depth
  outermost : t.frames = [] → held t.log = some 0

def Leaks (owner : Owner) (ret : Status) : List Bool → Prop
  | [] => owner = .ecall ∧ ret = seErrorReadLockFail
  | handlerReturns :: _ => ret = seErrorReadLockFail ∨ handlerReturns = true ∧ ¬ Handled ret

instance (owner : Owner) (ret : Status) : (exceptions : List Bool) → Decidable (Leaks owner ret exceptions)
  | [] => inferInstanceAs (Decidable (_ ∧ _))
  | _ :: _ => inferInstanceAs (Decidable (_ ∨ _))

def Frame.isPool (f : Frame) : Prop := f.owner = .pool ∧ f.exceptions = []

instance (f : Frame) : Decidable f.isPool := inferInstanceAs (Decidable (_ ∧ _))

/--
The steps after which the locks that are held are not those of the calls any more.
-/
def Forged (t : Thread) (e : Step) : Prop :=
  match t.frames, e with
  | f :: _, .eret status => Leaks f.owner status f.exceptions
  | f :: _, .oret status .taken => status = seErrorReadLockFail ∧ ¬ f.isPool
  | f :: _, .oret _ _ => f.isPool
  | _ :: _, .except .taken false handlerReturns => handlerReturns = true
  | _, _ => False

instance (t : Thread) (e : Step) : Decidable (Forged t e) := by
  unfold Forged
  split <;> infer_instance

section

variable {t t' : Thread} {n : Nat}

theorem held_append (log : List LockEvent) (event : LockEvent) : held (log ++ [event]) = match held log, event with
      | some n, .lock => some (n + 1)
      | some (n + 1), .unlock => some n
      | _, _ => none := by
  unfold held
  rw [List.foldl_append]
  rfl

theorem held_lock (h : held t.log = some n) : held t.lock.log = some (n + 1) := by
  rw [Thread.lock, held_append, h]

theorem held_rdUnlock (h : held t.log = some (n + 1)) : held t.rdUnlock.log = some n := by
  rw [Thread.rdUnlock, held_append, h]

theorem held_lock_rdUnlock (h : held t.log = some n) : held t.lock.rdUnlock.log = some n :=
  held_rdUnlock (held_lock h)

theorem locks_push (f : Frame) : (t.push f).locks = f.locks + t.locks := by
  simp [Thread.push, Thread.locks]

theorem depth_of_running (h : t.stopped = false) : t.depth = t.locks := by simp [Thread.depth, h]

theorem depth_push (h : t.stopped = false) (f : Frame) : (t.push f).depth = f.locks + t.locks := by
  rw [depth_of_running (t := t.push f) h, locks_push]

theorem locks_inside (owner : Owner) (exceptions : List Bool) :
    (⟨owner, exceptions, .inside⟩ : Frame).locks = exceptions.length + 1 := rfl

theorem not_leaks (owner : Owner) {ret : Status} (h : ret = sgxErrorEnclaveLost ∨ ret = sgxErrorStackOverrun)
    (exceptions : List Bool) : ¬ Leaks owner ret exceptions := by
  cases exceptions with
  | nil =>
    rintro ⟨-, hforged⟩
    rcases h with rfl | rfl <;> revert hforged <;> decide
  | cons b rest =>
    rintro (hforged | ⟨-, hhandled⟩)
    . rcases h with rfl | rfl <;> revert hforged <;> decide
    . rcases h with rfl | rfl <;> revert hhandled <;> decide

/--
A call that leaves with the locks of all its levels held, and with `extra` locks beyond them.
-/
theorem held_leave (owner : Owner) (exceptions : List Bool) (extra : Nat) : ∀ {ret : Status} {t : Thread},
    t.stopped = false → held t.log = some (t.locks + exceptions.length + 1 + extra) →
      ret ≠ seErrorReadLockFail → ¬ Leaks owner ret exceptions →
      held (leave owner exceptions ret t).log = some ((leave owner exceptions ret t).depth + extra) := by
  induction exceptions with
  | nil =>
    intro ret t hrunning h hret hleaks
    cases owner with
    | ecall =>
      simp only [leave, if_pos hret]
      have hheld : held t.rdUnlock.log = some (t.locks + extra) := by
        apply held_rdUnlock
        rw [h]
        congr 1
        simp only [List.length_nil]
        omega
      rw [show (t.rdUnlock.returns _).depth = t.locks from depth_of_running hrunning]
      exact hheld
    | pool =>
      rw [leave, depth_push hrunning]
      change held t.log = _
      rw [h]
      congr 1
      simp only [Frame.locks, List.length_nil]
      omega
  | cons b rest ih =>
    intro ret t hrunning h hret hleaks
    have hheld : held t.rdUnlock.log = some (t.locks + rest.length + 1 + extra) := by
      apply held_rdUnlock
      rw [h]
      congr 1
      simp only [List.length_cons]
      omega
    simp only [leave, if_pos hret]
    split
    . rw [depth_push (t := t.rdUnlock) hrunning, locks_inside, show t.rdUnlock.locks = t.locks from rfl]
      change held t.rdUnlock.log = _
      rw [hheld]
      congr 1
      omega
    split
    . next hlost =>
      have hne : errorTrts2urts ret ≠ seErrorReadLockFail := by
        rcases hlost with h | h <;> rw [h] <;> decide
      exact ih hrunning hheld hne (not_leaks owner hlost rest)
    next hother hlost =>
    -- the error is passed on, so that the previous handler must not return
    have hb : b = false := by
      rw [Leaks, not_or, not_and, not_not] at hleaks
      by_contra hb
      rcases hleaks.2 (Bool.not_eq_false _ ▸ hb) with h | h | h
      . exact hother h
      . exact hlost (.inl h)
      . exact hlost (.inr h)
    subst hb
    have hlocks : (t.rdUnlock.rdUnlock.push ⟨owner, rest, .inside⟩).locks = rest.length + 1 + t.locks :=
      locks_push _
    have hheld' : held t.rdUnlock.rdUnlock.log = some (t.locks + rest.length + extra) := by
      apply held_rdUnlock
      rw [hheld]
      congr 1
      omega
    change held t.rdUnlock.rdUnlock.log = some ((t.rdUnlock.rdUnlock.push ⟨owner, rest, .inside⟩).locks - 1 + extra)
    rw [hheld', hlocks]
    congr 1
    omega

theorem held_leave_lost (owner : Owner) (exceptions : List Bool) (extra : Nat) (hrunning : t.stopped = false)
    (h : held t.log = some (t.locks + exceptions.length + 1 + extra)) :
    held (leave owner exceptions sgxErrorEnclaveLost t).log
      = some ((leave owner exceptions sgxErrorEnclaveLost t).depth + extra) :=
  held_leave owner exceptions extra hrunning h (by decide) (not_leaks owner (.inl rfl) exceptions)

theorem leave_forged (owner : Owner) (b : Bool) (rest : List Bool) :
    leave owner (b :: rest) seErrorReadLockFail t = leave owner rest sgxErrorEnclaveLost t := rfl

theorem held_leave_iff (owner : Owner) (exceptions : List Bool) (ret : Status) (hrunning : t.stopped = false)
    (h : held t.log = some (t.locks + exceptions.length + 1)) :
    held (leave owner exceptions ret t).log = some (leave owner exceptions ret t).depth
      ↔ ¬ Leaks owner ret exceptions := by
  refine ⟨fun hbalanced hleaks => ?_, fun hleaks => ?_⟩
  . cases exceptions with
    | nil =>
      obtain ⟨rfl, rfl⟩ := hleaks
      rw [show (leave .ecall [] seErrorReadLockFail t).depth = t.locks from depth_of_running hrunning] at hbalanced
      have hne := (show held t.log = _ from hbalanced).symm.trans h
      simp at hne
    | cons b rest =>
      by_cases hret : ret = seErrorReadLockFail
      . subst hret
        rw [leave_forged] at hbalanced
        have hne := hbalanced.symm.trans (held_leave_lost owner rest 1 hrunning h)
        simp at hne
      obtain ⟨rfl, hhandled⟩ := hleaks.resolve_left hret
      rw [Handled, not_or] at hhandled
      simp only [leave, if_pos hret, if_neg hhandled.1, if_neg hhandled.2] at hbalanced
      have hheld : held t.rdUnlock.rdUnlock.log = some (t.locks + rest.length) := held_rdUnlock (held_rdUnlock h)
      have hne := (show held t.rdUnlock.rdUnlock.log = _ from hbalanced).symm.trans hheld
      rw [show ({ t.rdUnlock.rdUnlock.push ⟨owner, rest, .inside⟩ with stopped := !true } : Thread).depth
        = rest.length + 1 + t.locks from locks_push _, Option.some.injEq] at hne
      omega
  . by_cases hret : ret = seErrorReadLockFail
    . subst hret
      cases exceptions with
      | nil =>
        cases owner with
        | ecall => exact absurd ⟨rfl, rfl⟩ hleaks
        | pool =>
          rw [leave, depth_push hrunning]
          exact h.trans (congrArg some (Nat.add_comm _ _))
      | cons b rest => exact absurd (.inl rfl) hleaks
    . exact held_leave owner exceptions 0 hrunning h hret hleaks

theorem held_leave_fail_iff (f : Frame) (hrunning : t.stopped = false)
    (h : held t.log = some (t.locks + f.exceptions.length)) :
    held (leave f.owner f.exceptions seErrorReadLockFail t).log
        = some (leave f.owner f.exceptions seErrorReadLockFail t).depth ↔ ¬ f.isPool := by
  obtain ⟨owner, exceptions, place⟩ := f
  unfold Frame.isPool
  dsimp only at h ⊢
  cases exceptions with
  | nil =>
    cases owner with
    | ecall =>
      refine iff_of_true ?_ fun h => by cases h.1
      exact h.trans (congrArg some (depth_of_running hrunning).symm)
    | pool =>
      refine iff_of_false (fun hbalanced => ?_) fun h => h ⟨rfl, rfl⟩
      rw [leave, depth_push hrunning] at hbalanced
      have hne := (show held t.log = _ from hbalanced).symm.trans h
      simp [Frame.locks] at hne
  | cons b rest =>
    refine iff_of_true ?_ fun h => by cases h.2
    exact held_leave_lost owner rest 0 hrunning h

theorem held_ecall (hrunning : t.stopped = false) (h : held t.log = some t.locks) (attempt : Attempt) (entry : Entry) :
    held (t.ecall attempt entry).log = some (t.ecall attempt entry).depth := by
  have hsame : held t.lock.rdUnlock.log = some t.depth := by
    rw [depth_of_running hrunning]
    exact held_lock_rdUnlock h
  cases attempt with
  | fails => exact h.trans (congrArg some (depth_of_running hrunning).symm)
  | destroyed => exact hsame
  | taken =>
    cases entry with
    | enters =>
      rw [Thread.ecall, depth_push (t := t.lock) hrunning]
      exact (held_lock h).trans (congrArg some (Nat.add_comm _ _))
    | _ => exact hsame

theorem oret_taken (f : Frame) (status : Status) : t.oret f status .taken
    = if status = seErrorReadLockFail then leave f.owner f.exceptions status t.lock
      else t.lock.push { f with place := .inside } := rfl

theorem held_fill (hrunning : t.stopped = false) (h : held t.log = some t.locks) (attempt : Attempt) (isValid : Bool) :
    held (t.fill attempt isValid).log = some (t.fill attempt isValid).depth := by
  have hsame : held t.lock.rdUnlock.log = some t.depth := by
    rw [depth_of_running hrunning]
    exact held_lock_rdUnlock h
  cases attempt with
  | fails => exact h.trans (congrArg some (depth_of_running hrunning).symm)
  | destroyed => exact hsame
  | taken =>
    cases isValid with
    | false => exact hsame
    | true =>
      simp only [Thread.fill, if_true]
      rw [depth_push (t := t.lock) hrunning]
      exact (held_lock h).trans (congrArg some (Nat.add_comm _ _))

theorem held_oret_iff (f : Frame) (hrunning : t.stopped = false)
    (h : held t.log = some (t.locks + f.exceptions.length)) (status : Status) (attempt : Attempt) :
    held (t.oret f status attempt).log = some (t.oret f status attempt).depth ↔
      ¬ match attempt with
        | .taken => status = seErrorReadLockFail ∧ ¬ f.isPool
        | _ => f.isPool := by
  cases attempt with
  | fails => exact held_leave_fail_iff f hrunning h
  | destroyed => exact held_leave_fail_iff f hrunning (held_lock_rdUnlock h)
  | taken =>
    rw [oret_taken]
    by_cases hforged : status = seErrorReadLockFail
    . rw [if_pos hforged, held_leave_iff (t := t.lock) f.owner f.exceptions status hrunning (held_lock h), hforged]
      apply not_congr
      simp only [true_and]
      unfold Frame.isPool
      obtain ⟨owner, exceptions, place⟩ := f
      cases exceptions <;> cases owner <;> simp [Leaks]
    . refine iff_of_true ?_ fun h => hforged h.1
      rw [if_neg hforged, depth_push (t := t.lock) hrunning]
      exact (held_lock h).trans (congrArg some (by simp only [Frame.locks, Thread.lock, Thread.locks]; omega))

theorem held_except_iff (f : Frame) (hrunning : t.stopped = false)
    (h : held t.log = some (t.locks + f.exceptions.length + 1)) (hplace : f.place = .inside) (attempt : Attempt)
    (hasThread handlerReturns : Bool) :
    held (t.except f attempt hasThread handlerReturns).log
        = some (t.except f attempt hasThread handlerReturns).depth ↔
      ¬ (attempt = .taken ∧ hasThread = false ∧ handlerReturns = true) := by
  cases attempt with
  | fails => exact iff_of_true (held_leave_lost f.owner f.exceptions 0 hrunning h) (by simp)
  | destroyed =>
    exact iff_of_true (held_leave_lost (t := t.lock.rdUnlock) f.owner f.exceptions 0 hrunning (held_lock_rdUnlock h))
      (by simp)
  | taken =>
    have hlocks : f.locks = f.exceptions.length + 1 := by simp [Frame.locks, hplace]
    cases hasThread with
    | true =>
      refine iff_of_true ?_ (by simp)
      simp only [Thread.except, if_true]
      rw [depth_push (t := t.lock) hrunning, locks_inside]
      exact (held_lock h).trans (congrArg some (by simp only [List.length_cons, Thread.lock, Thread.locks]; omega))
    | false =>
      have hheld : held t.lock.rdUnlock.rdUnlock.log = some (t.locks + f.exceptions.length) :=
        held_rdUnlock (held_lock_rdUnlock h)
      have hpush : (t.lock.rdUnlock.rdUnlock.push f).locks = f.exceptions.length + 1 + t.locks := by
        rw [locks_push, hlocks]
        rfl
      change held t.lock.rdUnlock.rdUnlock.log
        = some ((t.lock.rdUnlock.rdUnlock.push f).locks - if !handlerReturns then 1 else 0) ↔ _
      rw [hheld, hpush, Option.some.injEq]
      cases handlerReturns <;> simp <;> omega

theorem held_step_iff {e : Step} (h : held t.log = some t.depth) (hstep : t.Steps e t') :
    held t'.log = some t'.depth ↔ ¬ Forged t e := by
  obtain ⟨frames, stopped, log, returned⟩ := t
  cases stopped with
  | true => cases hstep
  | false =>
  cases frames with
  | nil =>
    cases e with
    | ecall attempt entry =>
      cases hstep
      exact iff_of_true (held_ecall rfl h attempt entry) id
    | fill attempt isValid =>
      cases hstep
      exact iff_of_true (held_fill rfl h attempt isValid) id
    | _ => cases hstep
  | cons f rest =>
    obtain ⟨owner, exceptions, place⟩ := f
    have hlocks : held log = some (Frame.locks ⟨owner, exceptions, place⟩ + (rest.map Frame.locks).sum) := h
    cases place with
    | inside =>
      have hinside : held log = some ((rest.map Frame.locks).sum + exceptions.length + 1) :=
        hlocks.trans (congrArg some (by rw [locks_inside]; omega))
      cases e with
      | eret status =>
        cases hstep
        exact held_leave_iff (t := ⟨rest, false, log, returned⟩) owner exceptions status rfl hinside
      | ocall inTable =>
        cases hstep
        refine iff_of_true ?_ id
        cases inTable with
        | false => exact h
        | true =>
          refine (held_rdUnlock (t := ⟨rest, false, log, returned⟩) hinside).trans (congrArg some ?_)
          exact Nat.add_comm _ _
      | except attempt hasThread handlerReturns =>
        cases hstep
        refine (held_except_iff (t := ⟨rest, false, log, returned⟩) ⟨owner, exceptions, .inside⟩ rfl hinside rfl
          attempt hasThread handlerReturns).trans (not_congr ?_)
        cases attempt <;> cases hasThread <;> simp [Forged]
      | _ => cases hstep
    | outside =>
      cases e with
      | ecall attempt entry =>
        cases hstep
        exact iff_of_true (held_ecall rfl h attempt entry) id
      | oret status attempt =>
        cases hstep
        have houtside : held log = some ((rest.map Frame.locks).sum + exceptions.length) :=
          hlocks.trans (congrArg some (Nat.add_comm _ _))
        refine (held_oret_iff (t := ⟨rest, false, log, returned⟩) ⟨owner, exceptions, .outside⟩ rfl houtside
          status attempt).trans (not_congr ?_)
        cases attempt <;> rfl
      | _ => cases hstep
    | idle =>
      cases e with
      | mktcs =>
        cases hstep
        exact iff_of_true h id
      | filled =>
        cases hstep
        refine iff_of_true ?_ id
        exact held_rdUnlock (t := ⟨rest, false, log, returned⟩) (hlocks.trans (congrArg some (Nat.add_comm _ _)))
      | _ => cases hstep

theorem balanced_of_held (h : held t.log = some t.depth) : Balanced t := by
  refine ⟨h, fun hframes => ?_⟩
  rw [h, Thread.depth, Thread.locks, hframes]
  simp

/--
In a run of a host thread, with ECALLs, OCALLs and exceptions nested to any depth, every lock is released exactly
once and no lock is left in all states that the run comes to, exactly if none of its steps is forged.
-/
theorem run_balanced_iff (trace : List Step) :
    (∀ pre s, pre <+: trace → Run Thread.Steps Thread.start pre s → Balanced s)
      ↔ ∀ pre e s s', pre ++ [e] <+: trace → Run Thread.Steps Thread.start pre s → s.Steps e s' → ¬ Forged s e := by
  constructor
  . intro hall pre e s s' hpre hrun hstep
    have hbefore := hall pre s ((List.prefix_append pre [e]).trans hpre) hrun
    have hafter := hall (pre ++ [e]) s' hpre (.snoc hrun hstep)
    exact (held_step_iff hbefore.held_eq hstep).mp hafter.held_eq
  . intro hforged pre s hpre hrun
    apply balanced_of_held
    induction hrun with
    | nil => rfl
    | @snoc pre e s s' hrun hstep ih =>
      have hbefore := ih ((List.prefix_append pre [e]).trans hpre)
      exact (held_step_iff hbefore hstep).mpr (hforged pre e s s' hpre hrun hstep)

end

def run (trace : List Step) : Option Thread := trace.foldlM Thread.step Thread.start

theorem run_append (trace : List Step) (e : Step) : run (trace ++ [e]) = (run trace).bind (·.step e) := by
  rw [run, List.foldlM_append]
  exact congrArg _ (funext fun s => bind_pure _)

theorem run_iff {trace : List Step} {t : Thread} : Run Thread.Steps Thread.start trace t ↔ run trace = some t := by
  constructor
  . intro h
    induction h with
    | nil => rfl
    | snoc _ hstep ih => rw [run_append, ih, Option.bind_some, hstep]
  . intro h
    induction trace using List.reverseRecOn generalizing t with
    | nil =>
      cases h
      exact .nil
    | append_singleton trace e ih =>
      rw [run_append, Option.bind_eq_some_iff] at h
      obtain ⟨s, hrun, hstep⟩ := h
      exact .snoc (ih hrun) hstep

def lostTrace : List Step :=
  [.ecall .taken .enters, .except .taken true false, .ocall true, .ecall .taken .enters, .ocall true, .oret 0 .fails,
    .oret 0 .fails]

theorem run_balanced_lostTrace :
    ∃ t, Run Thread.Steps Thread.start lostTrace t
      ∧ t.log = [.lock, .lock, .unlock, .lock, .unlock, .unlock] ∧ t.returned = some sgxErrorEnclaveLost
      ∧ ∀ pre s, pre <+: lostTrace → Run Thread.Steps Thread.start pre s → Balanced s := by
  refine ⟨_, run_iff.2 rfl, rfl, rfl, (run_balanced_iff lostTrace).mpr ?_⟩
  intro pre e s s' hpre hrun hstep
  have hall : ∀ p ∈ lostTrace.inits, ∀ s ∈ run p.dropLast, ∀ e ∈ p.getLast?, ¬ Forged s e := by decide
  refine hall _ ((List.mem_inits _ _).2 hpre) s ?_ e ?_
  . rw [List.dropLast_concat]
    exact run_iff.1 hrun
  . simp

def forgedTrace : List Step := [.ecall .taken .enters, .ocall true, .oret seErrorReadLockFail .taken]

theorem not_balanced_forgedTrace :
    ∃ t, Run Thread.Steps Thread.start forgedTrace t ∧ t.frames = [] ∧ ¬ Balanced t := by
  refine ⟨_, run_iff.2 rfl, rfl, ?_⟩
  intro h
  exact absurd h.held_eq (by decide)

end Urts.CEnclave
