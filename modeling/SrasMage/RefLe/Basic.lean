import Mathlib.Algebra.Order.Ring.Nat
import Mathlib.Data.Vector.Basic

/-!
This module contains the reference launch enclave (`psw/ae/ref_le/ref_le.cpp`).
-/

namespace RefLe

abbrev ByteArr (n : Nat) := List.Vector UInt8 n

abbrev Measurement := ByteArr 32

def ofBigEndian (bytes : List UInt8) : Nat := bytes.foldl (fun n b => n * 256 + b.toNat) 0

def ofLittleEndian (bytes : List UInt8) : Nat := ofBigEndian bytes.reverse

def readBytes (bytes : List UInt8) (offset n : Nat) : ByteArr n :=
  ⟨(bytes.drop offset).takeD n 0, List.takeD_length _ _ _⟩

def copyReversedByteArray {n : Nat} (src : ByteArr n) : ByteArr n := src.reverse

def aeSuccess : Nat := 0
def aeFailure : Nat := 1
def leUnexpectedError : Nat := 37
def leInvalidParameter : Nat := 38
def leGetEinitTokenKeyError : Nat := 39
def leInvalidPrivilegeError : Nat := 41
def leWhiteListAlreadyUpdated : Nat := 213

def refLeWlMaxNumOfRecords : Nat := 512

def refLeWlCurrentVersion : Nat := 0x0100

def sgxFlagsMode64Bit : BitVec 64 := 0x4
def sgxFlagsProvisionKey : BitVec 64 := 0x10
def defaultMiscMask : BitVec 32 := 0xFFFFFFFF

/-! The layout of `ref_le_white_list_t` and of its entries. -/

def sizeofWhiteList : Nat := 396
def sizeofWhiteListEntry : Nat := 72

def refLeWlSize (entries : Nat) : Nat := sizeofWhiteList + entries * sizeofWhiteListEntry

namespace WhiteList

variable (list : List UInt8)

def version : Nat := ofLittleEndian (readBytes list 0 2).toList
def wlVersion : Nat := ofBigEndian (readBytes list 2 4).toList
def entriesCount : Nat := ofBigEndian (readBytes list 6 2).toList
def signerMod : ByteArr 384 := readBytes list 8 384
def signerExp : ByteArr 4 := readBytes list 392 4

def entry (i : Nat) : ByteArr sizeofWhiteListEntry :=
  readBytes list (sizeofWhiteList + i * sizeofWhiteListEntry) sizeofWhiteListEntry

end WhiteList

structure Entry where
  provisionKey : UInt8
  matchMrEnclave : UInt8
  mrSigner : Measurement
  mrEnclave : Measurement
deriving DecidableEq

namespace Entry

def zero : Entry := ⟨0, 0, List.Vector.replicate 32 0, List.Vector.replicate 32 0⟩

def ofBytes (bytes : List UInt8) : Entry where
  provisionKey := bytes.getD 0 0
  matchMrEnclave := bytes.getD 1 0
  mrSigner := readBytes bytes 8 32
  mrEnclave := readBytes bytes 40 32

def toCache (e : Entry) : Entry where
  provisionKey := if e.provisionKey ≠ 0 then 1 else 0
  matchMrEnclave := if e.matchMrEnclave ≠ 0 then 1 else 0
  mrSigner := copyReversedByteArray e.mrSigner
  mrEnclave :=
    if e.matchMrEnclave ≠ 0 then copyReversedByteArray e.mrEnclave else List.Vector.replicate 32 0

end Entry

structure Attributes where
  flags : BitVec 64
  xfrm : BitVec 64
deriving DecidableEq

structure Report where
  mrSigner : Measurement
  cpuSvn : BitVec 128
  isvSvn : BitVec 16
  isvProdId : BitVec 16
  miscSelect : BitVec 32
  attributes : Attributes

structure LaunchBody where
  valid : BitVec 32
  attributes : Attributes
  mrEnclave : Measurement
  mrSigner : Measurement
deriving DecidableEq

structure Token where
  body : LaunchBody
  cpuSvnLe : BitVec 128
  isvProdIdLe : BitVec 16
  isvSvnLe : BitVec 16
  maskedMiscSelectLe : BitVec 32
  attributesLe : Attributes
  keyId : BitVec 256
  mac : BitVec 128
deriving DecidableEq

def Token.zero : Token :=
  ⟨⟨0, ⟨0, 0⟩, List.Vector.replicate 32 0, List.Vector.replicate 32 0⟩, 0, 0, 0, 0, ⟨0, 0⟩, 0, 0⟩

structure KeyRequest where
  keyName : BitVec 16
  attributeMask : Attributes
  miscMask : BitVec 32
  isvSvn : BitVec 16
  keyId : BitVec 256
  cpuSvn : BitVec 128

structure Platform where
  sha256 : List UInt8 → Measurement
  pad : Measurement → Nat
  report : Report
  getKey : KeyRequest → BitVec 128
  cmac128 : BitVec 128 → LaunchBody → BitVec 128

structure Cache where
  wlVersion : Nat
  entriesCount : Nat
  wlEntries : Nat → Entry

def Cache.empty : Cache := ⟨0, 0, fun _ => Entry.zero⟩

structure InitCalls where
  withinEnclave : Bool
  sha256Msg : Nat
  createReport : Nat
  rsa3072Verify : Nat

structure TokenCalls where
  withinEnclave : Bool
  createReport : Nat
  readRand : Nat
  keyId : BitVec 256
  getKey : Nat
  cmac128Init : Nat
  cmac128Update : Nat
  cmac128Final : Nat

def getWhiteListSize (list : List UInt8) : Nat :=
  if WhiteList.entriesCount list > refLeWlMaxNumOfRecords ∨ WhiteList.entriesCount list = 0 then 0
  else refLeWlSize (WhiteList.entriesCount list)

def rsa3072Verify (P : Platform) (data mod exp signature : List UInt8) : Bool :=
  ofLittleEndian signature ^ ofLittleEndian exp % ofLittleEndian mod = P.pad (P.sha256 data)

def copyEntries (list : List UInt8) : Nat → Nat → (Nat → Entry) → Nat → Entry
  | 0, _, entries => entries
  | n + 1, i, entries =>
    copyEntries list n (i + 1) (Function.update entries i (Entry.ofBytes (WhiteList.entry list i).toList).toCache)

def loadWhiteList (list : List UInt8) : Cache where
  wlVersion := WhiteList.wlVersion list
  entriesCount := WhiteList.entriesCount list
  wlEntries := copyEntries list (WhiteList.entriesCount list) 0 Cache.empty.wlEntries

def initWhiteList (P : Platform) (calls : InitCalls) (c : Cache) :
    Option (List UInt8) → Option (ByteArr 384) → Nat × Cache
  | some list, some signature =>
    if list.length < sizeofWhiteList then (leInvalidParameter, c)
    else if getWhiteListSize list = 0 ∨ getWhiteListSize list ≠ list.length
        ∨ getWhiteListSize list > refLeWlSize refLeWlMaxNumOfRecords then (leInvalidParameter, c)
    else if !calls.withinEnclave then (leInvalidParameter, c)
    else if WhiteList.version list ≠ refLeWlCurrentVersion then (leInvalidParameter, c)
    else if c.wlVersion ≥ WhiteList.wlVersion list then (leWhiteListAlreadyUpdated, c)
    else
      let tempExp := copyReversedByteArray (WhiteList.signerExp list)
      let tempMod := copyReversedByteArray (WhiteList.signerMod list)
      if calls.sha256Msg ≠ 0 then (leUnexpectedError, c)
      else if calls.createReport ≠ 0 then (leUnexpectedError, c)
      else if P.report.mrSigner ≠ P.sha256 tempMod.toList then (leInvalidParameter, c)
      else
        let tempSignature := copyReversedByteArray signature
        if calls.rsa3072Verify ≠ 0 then (leUnexpectedError, c)
        else if !rsa3072Verify P (list.take (getWhiteListSize list)) tempMod.toList tempExp.toList
            tempSignature.toList then (leInvalidParameter, c)
        else (aeSuccess, loadWhiteList list)
  | _, _ => (leInvalidParameter, c)

structure LaunchRequest where
  mrEnclave : Measurement
  mrSigner : Measurement
  seAttributes : Attributes

def provision (attributes : Attributes) : Bool := attributes.flags &&& sgxFlagsProvisionKey ≠ 0

def Entry.grants (e : Entry) (r : LaunchRequest) : Bool :=
  (e.provisionKey ≠ 0 || !provision r.seAttributes) && e.mrSigner = r.mrSigner
    && (e.matchMrEnclave = 0 || e.mrEnclave = r.mrEnclave)

def validPrivilege (c : Cache) (r : LaunchRequest) : Bool :=
  (List.range c.entriesCount).any (fun i => (c.wlEntries i).grants r)

def launchBody (r : LaunchRequest) : LaunchBody := ⟨1, r.seAttributes, r.mrEnclave, r.mrSigner⟩

def unsignedToken (P : Platform) (r : LaunchRequest) (keyId : BitVec 256) : Token where
  body := launchBody r
  cpuSvnLe := P.report.cpuSvn
  isvProdIdLe := P.report.isvProdId
  isvSvnLe := P.report.isvSvn
  maskedMiscSelectLe := P.report.miscSelect &&& defaultMiscMask
  attributesLe := ⟨P.report.attributes.flags &&& ~~~ sgxFlagsMode64Bit, 0⟩
  keyId := keyId
  mac := 0

def launchKeyRequest (t : Token) : KeyRequest where
  keyName := 0
  attributeMask := ⟨~~~ sgxFlagsMode64Bit, 0⟩
  miscMask := defaultMiscMask
  isvSvn := t.isvSvnLe
  keyId := t.keyId
  cpuSvn := t.cpuSvnLe

def signToken (P : Platform) (calls : TokenCalls) (t : Token) : Nat × Token :=
  if calls.getKey ≠ 0 then (leGetEinitTokenKeyError, Token.zero)
  else if calls.cmac128Init ≠ 0 ∨ calls.cmac128Update ≠ 0 ∨ calls.cmac128Final ≠ 0 then
    (aeFailure, Token.zero)
  else (aeSuccess, { t with mac := P.cmac128 (P.getKey (launchKeyRequest t)) t.body })

def getLaunchToken (P : Platform) (calls : TokenCalls) (c : Cache) : Option LaunchRequest → Token → Nat × Token
  | some r, lictoken =>
    if !calls.withinEnclave then (leInvalidParameter, lictoken)
    else if !validPrivilege c r then (leInvalidPrivilegeError, lictoken)
    -- The report is only asked for once the body is filled in, an error leaves that behind.
    else if calls.createReport ≠ 0 then
      (leUnexpectedError, { Token.zero with body := launchBody r })
    else if calls.readRand ≠ 0 then (leUnexpectedError, Token.zero)
    else signToken P calls (unsignedToken P r calls.keyId)
  | none, lictoken => (leInvalidParameter, lictoken)

inductive Call where
  | initWhiteList (calls : InitCalls) (list : Option (List UInt8)) (signature : Option (ByteArr 384))
  | getLaunchToken (calls : TokenCalls) (request : Option LaunchRequest) (lictoken : Token)

def step (P : Platform) (c : Cache) : Call → Nat × Cache
  | .initWhiteList calls list signature => initWhiteList P calls c list signature
  | .getLaunchToken calls request lictoken => ((getLaunchToken P calls c request lictoken).1, c)

def run (P : Platform) : Cache → List Call → Cache
  | c, [] => c
  | c, call :: calls => run P (step P c call).2 calls

end RefLe
