import SrasMage.LinkQueue
import SrasMage.Run

/-!
This module contains the mutexes and the condition variables of the enclave (`sethread_mutex.cpp`,
`sethread_cond.cpp`) and the threads that use them.
-/

namespace Tlibthread

open LinkQueue

inductive Errno
  | ok
  | einval
  | eperm
  | ebusy
  | enomem
deriving DecidableEq

variable {M C T : Type}

def mutexNonrecursive : Nat := 1
def mutexRecursive : Nat := 2

structure Mutex (T : Type) where
  refcount : UInt64
  control : Nat
  owner : Option T
  queue : Head T
deriving DecidableEq

def Mutex.init (control : Nat) : Mutex T := ⟨0, control, none, .empty⟩

def Mutex.Valid (mutex : Mutex T) : Prop := mutex.control = mutexRecursive ∨ mutex.control = mutexNonrecursive

instance (mutex : Mutex T) : Decidable mutex.Valid := inferInstanceAs (Decidable (_ ∨ _))

section

variable [DecidableEq T]

def acquire (next : Links T) (self : T) (mutex : Mutex T) : Option (Errno × Mutex T) :=
  if ¬mutex.Valid then some (.einval, mutex)
  else if mutex.control = mutexRecursive ∧ mutex.owner = some self then
    some (.ok, { mutex with refcount := mutex.refcount + 1 })
  else if mutex.owner = none ∧ (mutex.queue.first = some self ∨ mutex.queue.first = none) then
    let queue := if mutex.queue.first = some self then removeHead next mutex.queue else mutex.queue
    some (.ok, { mutex with queue, owner := some self, refcount := mutex.refcount + 1 })
  else none

def mutexLock (fuel : Nat) (next : Links T) (self : T) (mutex : Mutex T) : Option (Option Errno × Links T × Mutex T) :=
  match acquire next self mutex with
  | some (err, mutex) => some (some err, next, mutex)
  | none =>
    match search next self fuel mutex.queue.first with
    | none => none
    | some true => some (none, next, mutex)
    | some false =>
      let (next, queue) := insertTail next mutex.queue self
      some (none, next, { mutex with queue })

def mutexTrylock (next : Links T) (self : T) (mutex : Mutex T) : Errno × Mutex T :=
  (acquire next self mutex).getD (.ebusy, mutex)

def mutexUnlockLazy (self : T) (mutex : Mutex T) : Errno × Mutex T × Option T :=
  if ¬mutex.Valid then (.einval, mutex, none)
  else if mutex.owner = none then (.einval, mutex, none)
  else if mutex.owner ≠ some self then (.eperm, mutex, none)
  else if mutex.refcount - 1 = 0 then
    (.ok, { mutex with refcount := mutex.refcount - 1, owner := none }, mutex.queue.first)
  else (.ok, { mutex with refcount := mutex.refcount - 1 }, none)

def mutexDestroy (mutex : Mutex T) : Errno × Mutex T :=
  if mutex.owner ≠ none ∨ mutex.queue.first ≠ none then (.ebusy, mutex)
  else (.ok, { mutex with control := 0, refcount := 0 })

end

structure Cond (T : Type) where
  lock : Bool
  queue : Head T
deriving DecidableEq

def Cond.init : Cond T := ⟨false, .empty⟩

inductive Act (M C : Type)
  | lock (mutex : Option M)
  | trylock (mutex : Option M)
  | unlock (mutex : Option M)
  | destroy (mutex : Option M)
  | condWait (cond : Option C) (mutex : Option M)
  | signal (cond : Option C)
  | broadcast (cond : Option C) (malloc : Bool)
  | condDestroy (cond : Option C)
  | resume
deriving DecidableEq

inductive Ocall (T : Type)
  | wait (self : T)
  | setEvent (waiter : T)
  | setMultiple (waiters : List T)
  | setWait (waiter self : T)
deriving DecidableEq

inductive Pc (M C : Type)
  | idle
  | locking (mutex : M) (within : Option C)
  | unlocking (cond : C) (mutex : M)
  | waiting (cond : C) (mutex : M)
  | relocking (cond : C) (mutex : M)
deriving DecidableEq

structure State (M C T : Type) where
  mutexes : M → Mutex T
  conds : C → Cond T
  next : Links T
  pc : T → Pc M C

def State.init (control : M → Nat) (next : Links T) : State M C T where
  mutexes m := .init (control m)
  conds _ := .init
  next := next
  pc _ := .idle

structure Result (M C T : Type) where
  returned : Option (Act M C × Errno)
  ocall : Option (Ocall T)
deriving DecidableEq

def Result.ret (act : Act M C) (err : Errno) : Result M C T := ⟨some (act, err), none⟩

namespace State

variable [DecidableEq M] [DecidableEq C] [DecidableEq T]

variable (s : State M C T) (fuel : Nat)

def setMutex (m : M) (mutex : Mutex T) : State M C T :=
  { s with mutexes := Function.update s.mutexes m mutex }

def setCond (c : C) (cond : Cond T) : State M C T :=
  { s with conds := Function.update s.conds c cond }

def setPc (t : T) (pc : Pc M C) : State M C T := { s with pc := Function.update s.pc t pc }

def lockReturn (m : M) (err : Errno) : Option C → Act M C × Errno
  | none => (.lock (some m), err)
  | some c => (.condWait (some c) (some m), .ok)

def lockTurn (s : State M C T) (t : T) (m : M) (within : Option C) : Option (Result M C T × State M C T) :=
  match mutexLock fuel s.next t (s.mutexes m) with
  | none => none
  | some (some err, next, mutex) =>
    some (⟨some (lockReturn m err within), none⟩, ({ s with next }.setMutex m mutex).setPc t .idle)
  | some (none, next, mutex) =>
    some (⟨none, some (.wait t)⟩, ({ s with next }.setMutex m mutex).setPc t (.locking m within))

def condInsert (t : T) (c : C) (m : M) : Result M C T × State M C T :=
  let (next, queue) := insertTail s.next (s.conds c).queue t
  (⟨none, none⟩, ({ s with next }.setCond c ⟨true, queue⟩).setPc t (.unlocking c m))

def condUnlock (t : T) (c : C) (m : M) : Result M C T × State M C T :=
  match mutexUnlockLazy t (s.mutexes m) with
  | (.ok, mutex, waiter) =>
    (⟨none, some ((waiter.map (Ocall.setWait · t)).getD (.wait t))⟩,
      ((s.setMutex m mutex).setCond c { s.conds c with lock := false }).setPc t (.waiting c m))
  | (err, mutex, _) =>
    (.ret (.condWait (some c) (some m)) err,
      ((s.setMutex m mutex).setCond c { s.conds c with lock := false }).setPc t .idle)

def condCheck (s : State M C T) (t : T) (c : C) (m : M) : Option (Result M C T × State M C T) :=
  match search s.next t fuel (s.conds c).queue.first with
  | none => none
  | some true => some (⟨none, some (.wait t)⟩, s)
  | some false => some (⟨none, none⟩, s.setPc t (.relocking c m))

def condSignal (c : C) : Result M C T × State M C T :=
  match (s.conds c).queue.first with
  | none => (.ret (.signal (some c)) .ok, s)
  | some waiter =>
    (⟨some (.signal (some c), .ok), some (.setEvent waiter)⟩,
      s.setCond c { s.conds c with queue := removeHead s.next (s.conds c).queue })

def condBroadcast (s : State M C T) (c : C) (malloc : Bool) : Option (Result M C T × State M C T) :=
  match countAll s.next fuel (s.conds c).queue.first with
  | none => none
  | some 0 => some (.ret (.broadcast (some c) malloc) .ok, s)
  | some (_ + 1) =>
    if malloc = false then some (.ret (.broadcast (some c) malloc) .enomem, s)
    else
      match removeAll s.next fuel (s.conds c).queue with
      | none => none
      | some waiters =>
        some (⟨some (.broadcast (some c) malloc, .ok), some (.setMultiple waiters)⟩,
          s.setCond c { s.conds c with queue := .empty })

def call (s : State M C T) (t : T) (act : Act M C) : Option (Result M C T × State M C T) :=
  match act with
  | .lock (some m) => lockTurn fuel s t m none
  | .trylock (some m) =>
    let (err, mutex) := mutexTrylock s.next t (s.mutexes m)
    some (.ret act err, s.setMutex m mutex)
  | .unlock (some m) =>
    let (err, mutex, waiter) := mutexUnlockLazy t (s.mutexes m)
    some (⟨some (act, err), waiter.map .setEvent⟩, s.setMutex m mutex)
  | .destroy (some m) =>
    let (err, mutex) := mutexDestroy (s.mutexes m)
    some (.ret act err, s.setMutex m mutex)
  | .condWait (some c) (some m) => if (s.conds c).lock then none else some (condInsert s t c m)
  | .signal (some c) => if (s.conds c).lock then none else some (condSignal s c)
  | .broadcast (some c) malloc => if (s.conds c).lock then none else condBroadcast fuel s c malloc
  | .condDestroy (some c) =>
    if (s.conds c).lock then none
    else some (.ret act (if (s.conds c).queue.first = none then .ok else .ebusy), s)
  | .resume => none
  | _ => some (.ret act .einval, s)

def exec (s : State M C T) (t : T) (act : Act M C) : Option (Result M C T × State M C T) :=
  match s.pc t, act with
  | .idle, act => call fuel s t act
  | .locking m within, .resume => lockTurn fuel s t m within
  | .unlocking c m, .resume => some (condUnlock s t c m)
  | .waiting c m, .resume => if (s.conds c).lock then none else condCheck fuel s t c m
  | .relocking c m, .resume => lockTurn fuel s t m (some c)
  | _, _ => none

end State

structure Obs (M C T : Type) where
  thread : T
  act : Act M C
  result : Result M C T

variable [DecidableEq M] [DecidableEq C] [DecidableEq T]

def Step (s : State M C T) (obs : Obs M C T) (s' : State M C T) : Prop :=
  ∃ fuel, s.exec fuel obs.thread obs.act = some (obs.result, s')

def State.observe (fuel : Nat) (s : State M C T) (a : T × Act M C) : Option (Obs M C T × State M C T) :=
  (s.exec fuel a.1 a.2).map fun (res, s') => (⟨a.1, a.2, res⟩, s')

theorem step_of_observe {fuel : Nat} {s s' : State M C T} {a : T × Act M C} {obs : Obs M C T}
    (h : s.observe fuel a = some (obs, s')) : Step s obs s' ∧ obs.thread = a.1 ∧ obs.act = a.2 := by
  unfold State.observe at h
  rw [Option.map_eq_some_iff] at h
  obtain ⟨⟨res, s1⟩, hexec, heq⟩ := h
  cases heq
  exact ⟨⟨fuel, hexec⟩, rfl, rfl⟩

end Tlibthread
