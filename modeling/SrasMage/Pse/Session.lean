import SrasMage.Memory
import SrasMage.Run
import Mathlib.Data.List.FinRange

/-!
This module contains the sessions between enclaves and the platform service enclave (`session_mgr.cpp`), and
the calls of services over them (`pse_op.cpp`).
-/

namespace Pse

def sessionConnection : Nat := 128
def sessionIdleTime : UInt64 := 60000
def maxInstPerEnclave : Nat := 32
def invadeSessionId : UInt32 := -1
def sessionCounterMax : UInt32 := -1
def uint32Max : Nat := 2 ^ 32 - 1

abbrev Slot := Fin sessionConnection

structure IsvAttributes where
  tickCount : UInt64
  isvSvn : UInt16
  isvProdId : UInt16
  attributes : BitVec 128
  mrSigner : BitVec 256
  mrEnclave : BitVec 256
deriving DecidableEq

inductive Phase (K D : Type)
  | close
  | inProgress (dhSession : Option D)
  | active (aek : K) (counter : UInt32)
deriving DecidableEq

def Phase.isClose {K D : Type} : Phase K D → Bool
  | .close => true
  | _ => false

def Phase.isActive {K D : Type} : Phase K D → Bool
  | .active _ _ => true
  | _ => false

structure Session (K D : Type) where
  sid : UInt32
  phase : Phase K D
  isvAttributes : IsvAttributes
deriving DecidableEq

structure State (K D : Type) where
  session : Slot → Session K D
  sessionCount : UInt32
  ephActive : Bool

variable {K D C : Type}

def Session.zero : Session K D := ⟨0, .close, ⟨0, 0, 0, 0, 0, 0⟩⟩

def State.init : State K D := ⟨fun _ => .zero, 0, false⟩

def State.set (s : State K D) (i : Slot) (session : Session K D) : State K D :=
  { s with session := Function.update s.session i session }

def freeSession (s : State K D) (i : Slot) : State K D := s.set i .zero

def sid2session (s : State K D) (sid : UInt32) : Option Slot :=
  (List.finRange sessionConnection).find? fun i => !(s.session i).phase.isClose && (s.session i).sid == sid

structure Instances where
  timeStamp : Slot
  instances : Nat

def sameEnclave (a b : IsvAttributes) : Bool :=
  a.mrEnclave == b.mrEnclave && a.mrSigner == b.mrSigner && a.isvProdId == b.isvProdId

def addInstance (s : State K D) (i : Slot) : List Instances → Option (List Instances × Nat)
  | [] => none
  | e :: rest =>
    let s1 := (s.session i).isvAttributes
    let s2 := (s.session e.timeStamp).isvAttributes
    if sameEnclave s1 s2 then
      let timeStamp := if s1.tickCount < s2.tickCount then i else e.timeStamp
      some (⟨timeStamp, e.instances + 1⟩ :: rest, e.instances + 1)
    else (addInstance s i rest).map fun (entries, n) => (e :: entries, n)

def countInstances (s : State K D) : List Instances × Nat :=
  (List.finRange sessionConnection).foldl (fun (entries, maxInstance) i =>
    if (s.session i).phase.isActive = false then (entries, maxInstance)
    else match addInstance s i entries with
      | some (entries, n) => (entries, if n > maxInstance then n else maxInstance)
      | none => (entries ++ [⟨i, 1⟩], if 1 > maxInstance then 1 else maxInstance)) ([], 0)

def pickOlder (s : State K D) (maxInstance : Nat) (session : Option Slot) (e : Instances) : Option Slot :=
  if e.instances = maxInstance then
    match session with
    | none => some e.timeStamp
    | some i =>
      if (s.session i).isvAttributes.tickCount > (s.session e.timeStamp).isvAttributes.tickCount then
        some e.timeStamp
      else some i
  else session

def overQuota (s : State K D) : Option Slot :=
  let (entries, maxInstance) := countInstances s
  if maxInstance > maxInstPerEnclave then entries.foldl (pickOlder s maxInstance) none else none

def leastActive (s : State K D) (tick : UInt64) : List Slot → UInt64 → Option Slot → Option Slot
  | [], elapse, session => if elapse < sessionIdleTime then none else session
  | i :: rest, elapse, session =>
    let temp := tick - (s.session i).isvAttributes.tickCount
    -- the subtraction has wrapped around
    if temp > tick then none
    else if temp > elapse then leastActive s tick rest temp (some i)
    else leastActive s tick rest elapse session

def findIdleSession (s : State K D) (tick : UInt64) : Option Slot :=
  match overQuota s with
  | some i => some i
  | none => leastActive s tick (List.finRange sessionConnection) 0 none

def openSession (s : State K D) (tick : UInt64) : State K D × Option Slot :=
  let s := if s.sessionCount = sessionCounterMax then { s with session := fun _ => .zero, sessionCount := 0 } else s
  match (List.finRange sessionConnection).find? fun i => (s.session i).phase.isClose with
  | some i => (s, some i)
  | none =>
    match findIdleSession s tick with
    | some i => (freeSession s i, some i)
    | none => (s, none)

def pseCloseSession (s : State K D) (sid : UInt32) : State K D :=
  if sid ≠ invadeSessionId then
    match sid2session s sid with
    | some i => freeSession s i
    | none => s
  else s

def pseCreateSession (s : State K D) (tick : UInt64) (dhInit : Bool) (dhMsg1 : Option D) : State K D × Option UInt32 :=
  if dhInit = false then (s, none)
  else
    match openSession s tick with
    | (s, none) => (s, none)
    | (s, some i) =>
      let sid := s.sessionCount
      let opened : State K D :=
        { s.set i { s.session i with sid, phase := .inProgress none } with sessionCount := s.sessionCount + 1 }
      match dhMsg1 with
      | none => (pseCloseSession opened sid, none)
      | some dh =>
        let session := opened.session i
        let attrs := { session.isvAttributes with tickCount := tick }
        (opened.set i { session with phase := .inProgress (some dh), isvAttributes := attrs }, some sid)

def pseExchangeReport (s : State K D) (tick : UInt64) (sid : UInt32) (procMsg2 : D → Option (K × IsvAttributes)) :
    State K D :=
  match sid2session s sid with
  | none => s
  | some i =>
    match (s.session i).phase with
    | .inProgress dh =>
      match dh.bind procMsg2 with
      | none => pseCloseSession s sid
      | some (aek, identity) =>
        s.set i { s.session i with phase := .active aek 0, isvAttributes := { identity with tickCount := tick } }
    | _ => s

inductive AeError
  | success
  | parameterError
  | ephemeralSessionInvalid
  | sessionInvalid
  | internalError
  | serviceMsgError
  | service (opRet : Nat)
deriving DecidableEq

def sizeofMessage : Nat := 40

structure Request (C : Type) where
  null : Bool
  reqMsgSize : UInt32
  respMsgSize : UInt32
  sessionId : UInt32
  expRespSize : UInt32
  payloadSize : UInt32
  cipher : C
deriving DecidableEq

structure ReqHdr where
  seqNum : UInt32
  serviceId : UInt16
  serviceCmd : UInt16
deriving DecidableEq

structure Reply where
  sessionId : UInt32
  payloadSize : Nat
  seqNum : UInt32
  serviceId : UInt16
  serviceCmd : UInt16
deriving DecidableEq

structure Env where
  mallocReq : Bool
  heap : Nat → UInt8
  mallocResp : Bool
  opRet : Nat
  ephActive : Bool
  encrypted : Bool

structure ServiceHandler where
  serviceId : UInt16
  serviceCmd : UInt16
  reqSize : Nat
  respSize : Nat

def pseTrustedTimeService : UInt16 := 0
def pseMcService : UInt16 := 1

def sizeofRespHdr : Nat := 12

def serviceHandler : List ServiceHandler :=
  [⟨pseMcService, 0, 26, 28⟩, ⟨pseMcService, 1, 24, 18⟩, ⟨pseMcService, 2, 24, 18⟩, ⟨pseMcService, 3, 24, 12⟩,
    ⟨pseTrustedTimeService, 0, 8, 52⟩]

def readNat (payload : List UInt8) (heap : Nat → UInt8) (offset size : Nat) : Nat :=
  Memory.ofBytes ((List.range' offset size).map fun k => payload.getD k (heap k))

def reqHdr (payload : List UInt8) (heap : Nat → UInt8) : ReqHdr :=
  ⟨UInt32.ofNat (readNat payload heap 0 4), UInt16.ofNat (readNat payload heap 4 2),
    UInt16.ofNat (readNat payload heap 6 2)⟩

def Request.sizesOk (req : Request C) : Bool :=
  !req.null && sizeofMessage ≤ req.reqMsgSize.toNat && req.payloadSize.toNat ≤ uint32Max - sizeofMessage &&
    req.reqMsgSize.toNat = sizeofMessage + req.payloadSize.toNat && sizeofMessage ≤ req.respMsgSize.toNat &&
    req.expRespSize.toNat ≤ uint32Max - sizeofMessage &&
    sizeofMessage + req.expRespSize.toNat ≤ req.respMsgSize.toNat

def serve (req : Request C) (env : Env) (hdr : ReqHdr) (ephActive : Bool) : Except AeError Nat × Bool :=
  match serviceHandler.find? fun h => hdr.serviceId == h.serviceId && hdr.serviceCmd == h.serviceCmd with
  | some h =>
    if req.payloadSize.toNat ≠ h.reqSize ∨ req.expRespSize.toNat < h.respSize then (.error .serviceMsgError, ephActive)
    else if env.mallocResp = false then (.error .internalError, ephActive)
    else if env.opRet ≠ 0 then (.error (.service env.opRet), env.ephActive)
    else (.ok h.respSize, env.ephActive)
  | none => if env.mallocResp = false then (.error .internalError, ephActive) else (.ok sizeofRespHdr, ephActive)

structure Answer (K D : Type) where
  err : AeError
  served : Option (ReqHdr × Reply)
  state : State K D

def invokeActive (decrypt : K → C → Option (List UInt8)) (s : State K D) (i : Slot) (aek : K) (counter : UInt32)
    (req : Request C) (env : Env) : Answer K D :=
  if env.mallocReq = false then ⟨.internalError, none, s⟩
  else
    match decrypt aek req.cipher with
    | none => ⟨.serviceMsgError, none, s⟩
    | some payload =>
      let hdr := reqHdr payload env.heap
      if hdr.seqNum ≠ counter then ⟨.sessionInvalid, none, freeSession s i⟩
      else
        match serve req env hdr s.ephActive with
        | (.error err, ephActive) => ⟨err, none, { s with ephActive }⟩
        | (.ok payloadSize, ephActive) =>
          let seqNum := counter + 1
          let replied : State K D := { s.set i { s.session i with phase := .active aek (seqNum + 1) } with ephActive }
          if env.encrypted = false then ⟨.internalError, none, replied⟩
          else ⟨.success, some (hdr, ⟨req.sessionId, payloadSize, seqNum, hdr.serviceId, hdr.serviceCmd⟩), replied⟩

def invokeServiceWrapper (decrypt : K → C → Option (List UInt8)) (s : State K D) (tick : UInt64) (req : Request C)
    (env : Env) : Answer K D :=
  if req.sizesOk = false then ⟨.parameterError, none, s⟩
  else if s.ephActive = false then ⟨.ephemeralSessionInvalid, none, s⟩
  else
    match sid2session s req.sessionId with
    | none => ⟨.sessionInvalid, none, s⟩
    | some i =>
      let session := s.session i
      match session.phase with
      | .active aek counter =>
        if counter.toNat ≥ uint32Max - 2 then ⟨.sessionInvalid, none, freeSession s i⟩
        else
          let attrs := { session.isvAttributes with tickCount := tick }
          invokeActive decrypt (s.set i { session with isvAttributes := attrs }) i aek counter req env
      | _ => ⟨.sessionInvalid, none, s⟩

inductive Event
  | tau
  | created (sid : UInt32)
  | replied (sid request reply : UInt32)
deriving DecidableEq

inductive Step (decrypt : K → C → Option (List UInt8)) : State K D → Event → State K D → Prop
  | ephemeral {s : State K D} (ephActive : Bool) : Step decrypt s .tau { s with ephActive }
  | create {s s' : State K D} (tick : UInt64) (dhInit : Bool) (dhMsg1 : Option D) (sid : UInt32) :
    s.ephActive = true → pseCreateSession s tick dhInit dhMsg1 = (s', some sid) → Step decrypt s (.created sid) s'
  | createFailed {s s' : State K D} (tick : UInt64) (dhInit : Bool) (dhMsg1 : Option D) :
    s.ephActive = true → pseCreateSession s tick dhInit dhMsg1 = (s', none) → Step decrypt s .tau s'
  | exchange {s : State K D} (tick : UInt64) (sid : UInt32) (procMsg2 : D → Option (K × IsvAttributes)) :
    s.ephActive = true → Step decrypt s .tau (pseExchangeReport s tick sid procMsg2)
  | close {s : State K D} (sid : UInt32) : Step decrypt s .tau (pseCloseSession s sid)
  | reply {s : State K D} (tick : UInt64) (req : Request C) (env : Env) (hdr : ReqHdr) (reply : Reply) :
    (invokeServiceWrapper decrypt s tick req env).served = some (hdr, reply) →
      Step decrypt s (.replied reply.sessionId hdr.seqNum reply.seqNum)
        (invokeServiceWrapper decrypt s tick req env).state
  | noReply {s : State K D} (tick : UInt64) (req : Request C) (env : Env) :
    (invokeServiceWrapper decrypt s tick req env).served = none →
      Step decrypt s .tau (invokeServiceWrapper decrypt s tick req env).state

def since (sid : UInt32) : List Event → List UInt32 :=
  List.foldl (fun numbers e => match e with
    | .created sid' => if sid' = sid then [] else numbers
    | .replied sid' request _ => if sid' = sid then request :: numbers else numbers
    | .tau => numbers) []

end Pse
