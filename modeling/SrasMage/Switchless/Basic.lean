import SrasMage.Bitmap
import SrasMage.Run
import SrasMage.Switchless.Protocol
import SrasMage.Sgx

/-!
This module contains the code of switchless calls (`sl_fcall_mngr_common.c`, `sl_siglines_common.c`).
-/

namespace Switchless

open Bitmap Function

variable {K W : Type}

export Sgx (sgxErrorUnexpected sgxErrorInvalidFunction sgxErrorEcallNotAllowed)

def sgxErrorOcallNotAllowed : Nat := 0x1008

inductive FcallType
  | ocall
  | ecall
deriving DecidableEq

structure Config (K : Type) where
  type : FcallType
  numLines : Nat
  ftbSize : Nat
  present : Nat → Bool
  fnId : K → Nat
  maxTries : K → UInt32

inductive CallPc
  | idle
  | scan (i : Nat)
  | allocLoad (i j : Nat)
  | allocCas (i j : Nat) (old : BitVec 64) (h : old.getLsbD j = true)
  | submit (line : Nat)
  | publish (line : Nat)
  | trigger (line : Nat)
  | poll (line : Nat) (tries : UInt32)
  | revokeLoad (line : Nat)
  | revokeCas (line : Nat) (old : BitVec 64) (h : old.getLsbD (line % 64) = true)
  | wait (line : Nat)
  | clear (line : Nat) (report : Report)
  | free (line : Nat) (report : Report)
  | returned (report : Report)
  | fallen

structure Scan where
  i : Nat
  bitN : Nat
  endBit : Nat

def Scan.line (scan : Scan) : Nat := 64 * scan.i + scan.bitN

def Scan.next (scan : Scan) : Scan := { scan with bitN := scan.bitN + 1 }

inductive WorkPc (K : Type)
  | idle
  | word (i : Nat)
  | bits (scan : Scan)
  | cas (scan : Scan) (old : BitVec 64) (h : old.getLsbD scan.bitN = true)
  | fetch (scan : Scan)
  | accept (scan : Scan) (call : K)
  | readId (scan : Scan) (call : K)
  | run (scan : Scan) (call : K) (funcId : Nat)
  | store (scan : Scan) (call : K) (ret : Nat)
  | finish (scan : Scan) (call : K)

structure State (K W : Type) where
  events : Words
  free : Words
  bufs : Nat → Option K
  status : K → Status
  ret : K → Nat
  pc : K → CallPc
  wpc : W → WorkPc K

def State.init (cfg : Config K) : State K W where
  events _ := 0
  free i := if i < cfg.numLines / 64 then BitVec.allOnes 64 else 0
  bufs _ := none
  status _ := .init
  ret _ := sgxErrorUnexpected
  pc _ := .idle
  wpc _ := .idle

inductive Event (K W : Type)
  | tau
  | executed (worker : W) (call : K) (ret : Nat)
  | returned (call : K) (ret : Option Nat)
  | fellBack (call : K)
deriving DecidableEq

section

variable [DecidableEq K]

def State.setPc (s : State K W) (k : K) (pc : CallPc) : State K W := { s with pc := update s.pc k pc }

def callStep (cfg : Config K) (s : State K W) (k : K) : Option (Event K W × State K W) :=
  match s.pc k with
  | .idle => some (.tau, s.setPc k (.scan 0))
  | .scan i =>
    if i < cfg.numLines / 64 then
      if s.free i = 0 then some (.tau, s.setPc k (.scan (i + 1)))
      else some (.tau, s.setPc k (.allocLoad i (s.free i).ctz.toNat))
    else some (.returned k none, s.setPc k (.returned .again))
  | .allocLoad i j =>
    if h : (s.free i).getLsbD j = true then some (.tau, s.setPc k (.allocCas i j (s.free i) h))
    else some (.tau, s.setPc k (.scan i))
  | .allocCas i j old _ =>
    if s.free i = old then
      some (.tau, { s with free := update s.free i (clearBit old j) }.setPc k (.submit (64 * i + j)))
    else some (.tau, s.setPc k (.allocLoad i j))
  | .submit line =>
    some (.tau, { s with status := update s.status k .submitted }.setPc k (.publish line))
  | .publish line =>
    some (.tau, { s with bufs := update s.bufs line (some k) }.setPc k (.trigger line))
  | .trigger line =>
    let i := line / 64
    some (.tau, { s with events := update s.events i (setBit (s.events i) (line % 64)) }.setPc k
      (.poll line (cfg.maxTries k)))
  | .poll line tries =>
    if s.status k = .submitted then
      -- `--max_tries > 0`
      if 0 < tries - 1 then some (.tau, s.setPc k (.poll line (tries - 1)))
      else some (.tau, s.setPc k (.revokeLoad line))
    else if tries = 0 then some (.tau, s.setPc k (.revokeLoad line))
    else some (.tau, s.setPc k (.wait line))
  | .revokeLoad line =>
    if h : (s.events (line / 64)).getLsbD (line % 64) = true then
      some (.tau, s.setPc k (.revokeCas line (s.events (line / 64)) h))
    else some (.tau, s.setPc k (.wait line))
  | .revokeCas line old _ =>
    let i := line / 64
    if s.events i = old then
      some (.tau, { s with events := update s.events i (clearBit old (line % 64)) }.setPc k (.clear line .again))
    else some (.tau, s.setPc k (.revokeLoad line))
  | .wait line =>
    if s.status k = .done then some (.tau, s.setPc k (.clear line .done)) else some (.tau, s)
  | .clear line report =>
    some (.tau, { s with bufs := update s.bufs line none }.setPc k (.free line report))
  | .free line report =>
    let i := line / 64
    some (.returned k (report.value (s.ret k)),
      { s with free := update s.free i (setBit (s.free i) (line % 64)) }.setPc k (.returned report))
  | .returned .again => some (.fellBack k, s.setPc k .fallen)
  | .returned .done => none
  | .fallen => none

def Config.result (cfg : Config K) (funcId value : Nat) : Nat :=
  if funcId ≥ cfg.ftbSize then sgxErrorInvalidFunction
  else if cfg.present funcId = false then
    match cfg.type with
    | .ecall => sgxErrorEcallNotAllowed
    | .ocall => sgxErrorOcallNotAllowed
  else value

variable [DecidableEq W]

def State.setWpc (s : State K W) (w : W) (wpc : WorkPc K) : State K W :=
  { s with wpc := update s.wpc w wpc }

def workStep (cfg : Config K) (s : State K W) (w : W) (value : Nat) : Option (Event K W × State K W) :=
  match s.wpc w with
  | .idle => some (.tau, s.setWpc w (.word 0))
  | .word i =>
    if i < cfg.numLines / 64 then
      if s.events i = 0 then some (.tau, s.setWpc w (.word (i + 1)))
      else some (.tau, s.setWpc w (.bits ⟨i, (s.events i).ctz.toNat, 64 - (s.events i).clz.toNat⟩))
    else some (.tau, s.setWpc w .idle)
  | .bits scan =>
    if scan.bitN < scan.endBit then
      if h : (s.events scan.i).getLsbD scan.bitN = true then
        some (.tau, s.setWpc w (.cas scan (s.events scan.i) h))
      else some (.tau, s.setWpc w (.bits scan.next))
    else some (.tau, s.setWpc w (.word (scan.i + 1)))
  | .cas scan old _ =>
    if s.events scan.i = old then
      some (.tau, { s with events := update s.events scan.i (clearBit old scan.bitN) }.setWpc w (.fetch scan))
    else some (.tau, s.setWpc w (.bits scan))
  | .fetch scan =>
    match s.bufs scan.line with
    | none => none
    | some k => some (.tau, s.setWpc w (.accept scan k))
  | .accept scan k =>
    some (.tau, { s with status := update s.status k .accepted }.setWpc w (.readId scan k))
  | .readId scan k => some (.tau, s.setWpc w (.run scan k (cfg.fnId k)))
  | .run scan k funcId =>
    some (.executed w k (cfg.result funcId value), s.setWpc w (.store scan k (cfg.result funcId value)))
  | .store scan k ret =>
    some (.tau, { s with ret := update s.ret k ret }.setWpc w (.finish scan k))
  | .finish scan k =>
    some (.tau, { s with status := update s.status k .done }.setWpc w (.bits scan.next))

def Step (cfg : Config K) (s : State K W) (e : Event K W) (s' : State K W) : Prop :=
  (∃ k, callStep cfg s k = some (e, s')) ∨ ∃ w value, workStep cfg s w value = some (e, s')

end

end Switchless
