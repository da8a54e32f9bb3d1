import SrasMage.Run
import SrasMage.Trts.Enclave
import Mathlib.Logic.Function.Basic

/-!
This module contains the ways into an enclave and out of it.
-/

namespace Trts.Entry

open Function

export Sgx (sgxSuccess sgxErrorUnexpected sgxErrorInvalidFunction sgxErrorEnclaveCrashed sgxErrorEcallNotAllowed)

def ecmdInitEnclave : Int32 := -1
def ecmdOret : Int32 := -2
def ecmdMktcs : Int32 := -4
def ecmdUninitEnclave : Int32 := -5
def ecmdInitSwitchless : Int32 := -6
def ecmdRunSwitchlessTworker : Int32 := -7

def ocallFlag : Nat := 0x4F434944

def frameSize : Nat := 30 * 8

structure Layout (T : Type) where
  enclave : Enclave
  stackLimit : T → Nat
  stackBase : T → Nat
  td : T → Nat
  pos : ∀ t, 0 < stackLimit t
  room : ∀ t, stackLimit t + frameSize ≤ stackBase t
  above : ∀ t, stackBase t < td t
  inside : ∀ t, enclave.base ≤ stackLimit t ∧ td t + 24 ≤ enclave.base + enclave.size
  apart : ∀ t t', t ≠ t' → td t + 24 ≤ stackLimit t' ∨ td t' + 24 ≤ stackLimit t

structure Tables where
  ecallTable : List EcallInfo
  nrOcall : Nat
  entryTable : Nat → UInt8
  threadPolicy : Nat

inductive Pc
  | out
  | oret
  | ecall (ordinal : UInt32)
  | trts (ordinal : UInt32)
  | lock (ordinal : UInt32)
  | locked (ordinal : UInt32)
  | protect (ordinal : UInt32)
  | construct (ordinal : UInt32)
  | unlock (ordinal : UInt32)
  | dispatch (ordinal : UInt32)
  | run (ordinal : UInt32)
  | aborted
deriving DecidableEq

def Pc.isCode : Pc → Bool
  | .protect _ | .construct _ | .run _ => true
  | _ => false

structure State (T : Type) where
  mem : Nat → Nat
  act : Nat → Pc
  crashed : Bool
  isFirstEcall : Bool
  ifeLock : Bool
  pc : T → Pc

structure Frame where
  sp : Nat
  index : Nat
  act : Pc
deriving DecidableEq

inductive Event (T : Type)
  | tau
  | refused (t : T) (err : Nat)
  | initialised (t : T)
  | started (t : T) (ordinal : UInt32)
  | switchless (t : T) (ordinal : UInt32)
  | left (t : T)
  | ocall (t : T) (frame : Frame)
  | oret (t : T) (resumed : Option Frame)
deriving DecidableEq

variable {T : Type}

variable (s : State T) (L : Layout T) (threadData : Nat) (tab : Tables)

def getThreadData (s : State T) (t : T) : Nat := s.mem (L.td t)

def State.lastSp : Nat := s.mem (threadData + 8)

def State.stackBaseAddr : Nat := s.mem (threadData + 16)

def doInitThread (s : State T) (t : T) : State T :=
  let mem := update s.mem (L.td t) (L.td t)
  let mem := update mem (L.td t + 8) (L.stackBase t)
  { s with mem := update mem (L.td t + 16) (L.stackBase t) }

def needsInit (s : State T) (t : T) : Bool :=
  let threadData := getThreadData L s t
  threadData = 0 || (s.stackBaseAddr threadData = s.lastSp threadData && tab.threadPolicy ≠ 0)

def isEcallAllowed (s : State T) (threadData : Nat) (ordinal : UInt32) : Outcome Nat :=
  match tab.ecallTable[ordinal.toNat]? with
  | none => .done sgxErrorInvalidFunction
  | some info =>
    let lastSp := s.lastSp threadData
    if lastSp = s.stackBaseAddr threadData then
      .done (if info.isPriv ≠ 0 then sgxErrorEcallNotAllowed else sgxSuccess)
    else if s.mem (lastSp + 32) ≠ ocallFlag then .abort
    else
      let ocallIndex := s.mem (lastSp + 40)
      if ocallIndex ≥ tab.nrOcall then .done sgxErrorInvalidFunction
      else if tab.entryTable (ocallIndex * tab.ecallTable.length + ordinal.toNat) ≠ 0 then .done sgxSuccess
      else .done sgxErrorEcallNotAllowed

inductive Func
  | switchless
  | ecall (addr : Nat)
deriving DecidableEq

def getFuncAddr (E : Enclave) (tab : Tables) (s : State T) (threadData : Nat) (ordinal : UInt32) :
    Outcome (Except Nat Func) :=
  if ordinal = ecmdInitSwitchless.toUInt32 ∨ ordinal = ecmdRunSwitchlessTworker.toUInt32 then
    if s.lastSp threadData ≠ s.stackBaseAddr threadData then .done (.error sgxErrorUnexpected)
    else .done (.ok .switchless)
  else do
    let status ← isEcallAllowed tab s threadData ordinal
    if status ≠ sgxSuccess then return .error status
    match tab.ecallTable[ordinal.toNat]? with
    | none => .abort
    | some info =>
      if E.sgxIsWithinEnclave info.ecallAddr 0 then return .ok (.ecall info.ecallAddr)
      else return .error sgxErrorUnexpected

def ocallIndexOk (index : UInt32) : Prop :=
  index = 0 ∨ (-5 ≤ index.toInt32 ∧ index.toInt32 ≤ -2) ∨ index.toNat < tab.nrOcall

def doOcall (s : State T) (t : T) (index : UInt32) (sp : Nat) : State T :=
  let threadData := getThreadData L s t
  let preLastSp := s.lastSp threadData
  let depth := if preLastSp = s.stackBaseAddr threadData then 1 else s.mem (preLastSp + 144) + 1
  let mem := update s.mem (sp + 32) ocallFlag
  let mem := update mem (sp + 40) index.toNat
  let mem := update mem (sp + 48) preLastSp
  let mem := update mem (sp + 144) depth
  { s with mem := update mem (threadData + 8) sp, act := update s.act sp (s.pc t) }

def sub64 (x y : Nat) : Nat := (x + 2 ^ 64 - y) % 2 ^ 64

def checkOret (context : Nat) : Option Frame :=
  let lastSp := s.lastSp threadData
  let preLastSp := s.mem (lastSp + 48)
  if lastSp = 0 ∨ lastSp ≤ context then none
  else if lastSp > sub64 (s.stackBaseAddr threadData) frameSize then none
  else if s.mem (lastSp + 32) ≠ ocallFlag then none
  else if preLastSp > s.stackBaseAddr threadData ∨ preLastSp ≤ lastSp then none
  else some ⟨lastSp, s.mem (lastSp + 40), s.act lastSp⟩

def entrySp (s : State T) (t : T) : Nat :=
  if s.mem (L.td t + 8) = 0 then L.stackBase t else s.mem (L.td t + 8)

inductive OnChain (mem : Nat → Nat) (base : Nat) : Nat → Nat → Prop
  | here {sp : Nat} : sp ≠ base → OnChain mem base sp sp
  | up {sp a : Nat} : sp ≠ base → OnChain mem base (mem (sp + 48)) a → OnChain mem base sp a

def Protected (s : State T) (a : Nat) : Prop :=
  ∃ t, L.td t ≤ a ∧ a < L.td t + 24 ∨
    s.mem (L.td t) ≠ 0 ∧ ∃ sp, OnChain s.mem (L.stackBase t) (s.lastSp (L.td t)) sp ∧ sp ≤ a ∧ a < sp + 160

variable [DecidableEq T]

def State.setPc (t : T) (pc : Pc) : State T := { s with pc := update s.pc t pc }

def State.leave (t : T) (status : Nat) : State T :=
  { s.setPc t .out with crashed := s.crashed || decide (status = sgxErrorUnexpected) }

def enterEnclave (index : Int32) : Option Pc :=
  if 0 ≤ index ∨ index = ecmdInitSwitchless ∨ index = ecmdRunSwitchlessTworker then some (.ecall index.toUInt32)
  else if index = ecmdOret then some .oret
  else none

inductive Step (L : Layout T) (tab : Tables) : State T → Event T → State T → Prop
  /-- The host writes to memory, which is not the one of the enclave. -/
  | host {s : State T} (mem : Nat → Nat) (act : Nat → Pc) :
    (∀ a, L.enclave.Contains a → mem a = s.mem a ∧ act a = s.act a) → Step L tab s .tau { s with mem, act }
  /-- A thread in the enclave writes to memory. -/
  | write {s : State T} (t : T) (mem : Nat → Nat) (act : Nat → Pc) :
    s.pc t ≠ .out → (∀ a, Protected L s a → mem a = s.mem a ∧ act a = s.act a) → Step L tab s .tau { s with mem, act }
  | crashed {s : State T} (t : T) :
    s.pc t = .out → s.crashed = true → Step L tab s (.refused t sgxErrorEnclaveCrashed) s
  | enter {s : State T} (t : T) (index : Int32) (pc : Pc) :
    s.pc t = .out → s.crashed = false → enterEnclave index = some pc → Step L tab s .tau (s.setPc t pc)
  | enterOther {s : State T} (t : T) (index : Int32) :
    s.pc t = .out → s.crashed = false → enterEnclave index = none → index ≠ ecmdMktcs →
      index ≠ ecmdUninitEnclave →
      Step L tab s (.refused t sgxErrorUnexpected) (s.leave t sgxErrorUnexpected)
  | ecall {s : State T} (t : T) (ordinal : UInt32) :
    s.pc t = .ecall ordinal →
      Step L tab s .tau ((if needsInit L tab s t then doInitThread L s t else s).setPc t (.trts ordinal))
  /-- `do_init_thread` finds no information on the thread local storage. -/
  | ecallFailed {s : State T} (t : T) (ordinal : UInt32) :
    s.pc t = .ecall ordinal → needsInit L tab s t = true →
      Step L tab s (.refused t sgxErrorUnexpected) ((doInitThread L s t).leave t sgxErrorUnexpected)
  | trtsNested {s : State T} (t : T) (ordinal : UInt32) :
    s.pc t = .trts ordinal → s.isFirstEcall = true →
      s.lastSp (getThreadData L s t) ≠ s.stackBaseAddr (getThreadData L s t) →
      Step L tab s (.refused t sgxErrorEcallNotAllowed) (s.leave t sgxErrorEcallNotAllowed)
  | trtsFirst {s : State T} (t : T) (ordinal : UInt32) :
    s.pc t = .trts ordinal → s.isFirstEcall = true →
      s.lastSp (getThreadData L s t) = s.stackBaseAddr (getThreadData L s t) →
      Step L tab s .tau (s.setPc t (.lock ordinal))
  | trts {s : State T} (t : T) (ordinal : UInt32) :
    s.pc t = .trts ordinal → s.isFirstEcall = false → Step L tab s .tau (s.setPc t (.dispatch ordinal))
  | lock {s : State T} (t : T) (ordinal : UInt32) :
    s.pc t = .lock ordinal → s.ifeLock = false →
      Step L tab s .tau ({ s with ifeLock := true }.setPc t (.locked ordinal))
  | locked {s : State T} (t : T) (ordinal : UInt32) :
    s.pc t = .locked ordinal →
      Step L tab s .tau (s.setPc t (if s.isFirstEcall then .protect ordinal else .unlock ordinal))
  | protect {s : State T} (t : T) (ordinal : UInt32) :
    s.pc t = .protect ordinal → Step L tab s .tau (s.setPc t (.construct ordinal))
  | protectFailed {s : State T} (t : T) (ordinal : UInt32) (status : Nat) :
    s.pc t = .protect ordinal → status ≠ sgxSuccess →
      Step L tab s (.refused t status) ({ s with ifeLock := false }.leave t status)
  | construct {s : State T} (t : T) (ordinal : UInt32) :
    s.pc t = .construct ordinal →
      Step L tab s (.initialised t) ({ s with isFirstEcall := false }.setPc t (.unlock ordinal))
  | unlock {s : State T} (t : T) (ordinal : UInt32) :
    s.pc t = .unlock ordinal → Step L tab s .tau ({ s with ifeLock := false }.setPc t (.dispatch ordinal))
  | refuse {s : State T} (t : T) (ordinal : UInt32) (status : Nat) :
    s.pc t = .dispatch ordinal →
      getFuncAddr L.enclave tab s (getThreadData L s t) ordinal = .done (.error status) →
      Step L tab s (.refused t status) (s.leave t status)
  | start {s : State T} (t : T) (ordinal : UInt32) (addr : Nat) :
    s.pc t = .dispatch ordinal →
      getFuncAddr L.enclave tab s (getThreadData L s t) ordinal = .done (.ok (.ecall addr)) →
      Step L tab s (.started t ordinal) (s.setPc t (.run ordinal))
  | startSwitchless {s : State T} (t : T) (ordinal : UInt32) :
    s.pc t = .dispatch ordinal →
      getFuncAddr L.enclave tab s (getThreadData L s t) ordinal = .done (.ok .switchless) →
      Step L tab s (.switchless t ordinal) (s.setPc t (.run ordinal))
  | finish {s : State T} (t : T) (ordinal : UInt32) (status : Nat) :
    s.pc t = .run ordinal → Step L tab s (.left t) (s.leave t status)
  /-- The frame is on the stack, below the one that the thread has been entered with. -/
  | ocall {s : State T} (t : T) (index : UInt32) (sp : Nat) :
    (s.pc t).isCode = true → ocallIndexOk tab index → L.stackLimit t ≤ sp →
      sp + frameSize ≤ s.lastSp (getThreadData L s t) →
      Step L tab s (.ocall t ⟨sp, index.toNat, s.pc t⟩) ((doOcall L s t index sp).setPc t .out)
  | oret {s : State T} (t : T) (context : Nat) (frame : Frame) :
    s.pc t = .oret → context < entrySp L s t → checkOret s (getThreadData L s t) context = some frame →
      Step L tab s (.oret t (some frame))
        ({ s with mem := update s.mem (getThreadData L s t + 8) (s.mem (frame.sp + 48)) }.setPc t frame.act)
  | oretRefused {s : State T} (t : T) (context : Nat) :
    s.pc t = .oret → context < entrySp L s t → checkOret s (getThreadData L s t) context = none →
      Step L tab s (.oret t none) (s.leave t sgxErrorUnexpected)
  | abort {s : State T} (t : T) :
    s.pc t ≠ .out → Step L tab s .tau ({ s with crashed := true }.setPc t .aborted)

structure Initial (s : State T) : Prop where
  pc : ∀ t, s.pc t = .out
  first : s.isFirstEcall = true
  td : ∀ t, s.mem (L.td t) = 0 ∨
    s.mem (L.td t) = L.td t ∧ s.mem (L.td t + 8) = L.stackBase t ∧ s.mem (L.td t + 16) = L.stackBase t

def pending (t : T) : List (Event T) → List Frame :=
  List.foldl (fun frames e => match e with
    | .ocall t' frame => if t' = t then frame :: frames else frames
    | .oret t' (some _) => if t' = t then frames.tail else frames
    | _ => frames) []

end Trts.Entry
