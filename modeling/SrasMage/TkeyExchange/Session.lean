import SrasMage.Memory
import SrasMage.Threads

/-!
This module contains the trusted side of remote attestation (`tkey_exchange.cpp`).
-/

namespace TkeyExchange

open Memory (toBytes)
open Threads

inductive SgxError where
  | unexpected
  | invalidParameter
  | outOfMemory
  | invalidState
  | invalidSignature
  | macMismatch
  | kdfMismatch
  | other (code : Nat)
deriving DecidableEq

abbrev PublicKey := Vector UInt8 64
abbrev PrivateKey := Vector UInt8 32
abbrev SharedKey := Vector UInt8 32
abbrev Signature := Vector UInt8 64
abbrev Key := Vector UInt8 16
abbrev Tag := Vector UInt8 16
abbrev Hash := Vector UInt8 32
abbrev QuoteNonce := Vector UInt8 16

structure TargetInfo where
  mrEnclave : Vector UInt8 32
  attributes : Vector UInt8 16
  rest : List UInt8
deriving DecidableEq

structure Keys where
  smkey : Key
  skey : Key
  mkey : Key
  vkey : Key
deriving DecidableEq

structure Msg2 where
  gB : PublicKey
  spid : Vector UInt8 16
  quoteType : UInt16
  kdfId : UInt16
  signGbGa : Signature
  mac : Tag
deriving DecidableEq

def Msg2.maced (msg2 : Msg2) : List UInt8 :=
  msg2.gB.toList ++ (msg2.spid.toList ++ (toBytes 2 msg2.quoteType.toNat ++ (toBytes 2 msg2.kdfId.toNat ++
    msg2.signGbGa.toList)))

structure QeReport where
  attributes : Vector UInt8 16
  mrEnclave : Vector UInt8 32
  mrSigner : Vector UInt8 32
  reportData : Vector UInt8 64
deriving DecidableEq

structure Msg3 where
  mac : Tag
  gA : PublicKey
  psSecProp : List UInt8
deriving DecidableEq

structure Crypto where
  checkPoint : PublicKey → Bool
  publicKey : PrivateKey → PublicKey
  sharedDhkey : PrivateKey → PublicKey → SharedKey
  ecdsaVerify : List UInt8 → PublicKey → Signature → Bool
  deriveKey : SharedKey → List UInt8 → Key
  kdf : UInt64 → SharedKey → UInt16 → Keys → Prop
  cmac : Key → List UInt8 → Tag
  sha256 : List UInt8 → Hash
  createReport : TargetInfo → List UInt8 → List UInt8
  verifyReport : QeReport → Bool

inductive RaState where
  | inited
  | getGaed
  | procMsg2ed
deriving DecidableEq

structure Item where
  gA : PublicKey
  gB : PublicKey
  vkKey : Key
  spPubkey : PublicKey
  a : PrivateKey
  psSecProp : List UInt8
  mkKey : Key
  skKey : Key
  smkKey : Key
  quoteNonce : QuoteNonce
  qeTarget : TargetInfo
  state : RaState
  deriveKeyCb : UInt64
deriving DecidableEq

def sizeofPsSecProp : Nat := 256

def Item.zero : Item where
  gA := .replicate 64 0
  gB := .replicate 64 0
  vkKey := .replicate 16 0
  spPubkey := .replicate 64 0
  a := .replicate 32 0
  psSecProp := List.replicate sizeofPsSecProp 0
  mkKey := .replicate 16 0
  skKey := .replicate 16 0
  smkKey := .replicate 16 0
  quoteNonce := .replicate 16 0
  qeTarget := ⟨.replicate 32 0, .replicate 16 0, []⟩
  state := .inited
  deriveKeyCb := 0

structure Mem where
  heap : Nat → Item
  allocated : Nat
  size : Nat
  capacity : Nat
  data : List (Option Nat)
  kdfCookie : UInt64

def Mem.init : Mem where
  heap _ := .zero
  allocated := 0
  size := 0
  capacity := 0
  data := []
  kdfCookie := 0

inductive Lock where
  | db
  | item (p : Nat)
deriving DecidableEq

inductive Answer where
  | context (c : Nat)
  | ga (gA : PublicKey)
  | report (report : List UInt8) (nonce : QuoteNonce)
  | msg3 (msg3 : Msg3)
  | key (key : Key)
deriving DecidableEq

abbrev M := Prog Mem Lock SgxError

def require (convert : SgxError → SgxError) : M Unit := do
  let status ← choose fun _ : Option SgxError => True
  match status with
  | none => pure ()
  | some e => fail (convert e)

def ensure (ok : Bool) (e : SgxError) : M Unit := if ok then pure () else fail e

def keepOutOfMemory (e : SgxError) : SgxError := if e = .outOfMemory then e else .unexpected

def readItem {α : Type} (p : Nat) (f : Item → α) : M α := load fun m => f (m.heap p)

def writeItem (p : Nat) (f : Item → Item) : M Unit :=
  store fun m => { m with heap := Function.update m.heap p (f (m.heap p)) }

def initSize : Nat := 10
def maxSize : Nat := 10000

def Mem.vectorGet (m : Mem) (index : Nat) : Option Nat := if index < m.size then m.data[index]?.join else none

def vectorGrow : M Unit := do
  let capacity ← load (·.capacity)
  let size ← load (·.size)
  if capacity = 0 then
    require fun _ => .outOfMemory
    store fun m => { m with data := List.replicate initSize none, capacity := initSize }
  else if size = capacity then
    ensure (capacity < maxSize - initSize) .outOfMemory
    require fun _ => .outOfMemory
    store fun m => { m with data := m.data ++ List.replicate initSize none, capacity := m.capacity + initSize }
  else pure ()

def Mem.publish (m : Mem) (index size : Nat) (item : Item) : Mem :=
  { m with
    heap := Function.update m.heap m.allocated item
    allocated := m.allocated + 1
    data := m.data.set index (some m.allocated)
    size }

def vectorPushBack (item : Item) : M Unit := do
  vectorGrow
  store fun m => m.publish m.size (m.size + 1) item

def lookup (context : Nat) : M Nat := do
  let item ← withLock .db (load (·.vectorGet context))
  match item with
  | some p => return p
  | none => fail .invalidParameter

def enter (context : Nat) (argsOk : Bool) : M Nat := do
  let size ← load (·.size)
  ensure (context < size ∧ argsOk) .invalidParameter
  lookup context

section

variable (crypto : Crypto)

def createKeyPair (p : Nat) : M Answer := do
  let state ← readItem p (·.state)
  ensure (state = .inited) .invalidState
  require keepOutOfMemory
  require keepOutOfMemory
  let (a, gA) ← choose fun pair : PrivateKey × PublicKey => pair.2 = crypto.publicKey pair.1
  writeItem p fun item => { item with a }
  writeItem p fun item => { item with gA }
  writeItem p fun item => { item with state := .getGaed }
  return .ga gA

def sgxRaGetGa (context : Nat) (argsOk : Bool) : M Answer := do
  let p ← enter context argsOk
  withLock (.item p) (createKeyPair crypto p)

structure Snapshot where
  a : PrivateKey
  gA : PublicKey
  spPubkey : PublicKey
  keyCb : UInt64

def snapshot (p : Nat) : M Snapshot := do
  let state ← readItem p (·.state)
  ensure (state = .getGaed) .invalidState
  let a ← readItem p (·.a)
  let gA ← readItem p (·.gA)
  let spPubkey ← readItem p (·.spPubkey)
  let keyCb ← load fun m => (m.heap p).deriveKeyCb ^^^ m.kdfCookie
  return { a, gA, spPubkey, keyCb }

def labelSmk : List UInt8 := [0x53, 0x4D, 0x4B]
def labelSk : List UInt8 := [0x53, 0x4B]
def labelMk : List UInt8 := [0x4D, 0x4B]
def labelVk : List UInt8 := [0x56, 0x4B]

def keepKdfError (e : SgxError) : SgxError :=
  if e = .outOfMemory ∨ e = .invalidParameter ∨ e = .kdfMismatch then e else .unexpected

def Crypto.defaultKeys (dhKey : SharedKey) : Keys where
  smkey := crypto.deriveKey dhKey labelSmk
  skey := crypto.deriveKey dhKey labelSk
  mkey := crypto.deriveKey dhKey labelMk
  vkey := crypto.deriveKey dhKey labelVk

def deriveKeys (keyCb : UInt64) (dhKey : SharedKey) (kdfId : UInt16) : M Keys :=
  if keyCb ≠ 0 then do
    require keepKdfError
    choose (crypto.kdf keyCb dhKey kdfId)
  else if kdfId = 1 then do
    require keepOutOfMemory
    require keepOutOfMemory
    require keepOutOfMemory
    require keepOutOfMemory
    return crypto.defaultKeys dhKey
  else fail .kdfMismatch

def writeKeys (p : Nat) (msg2 : Msg2) (keys : Keys) (qeTarget : TargetInfo) (nonce : QuoteNonce) : M Unit := do
  writeItem p fun item => { item with gB := msg2.gB }
  writeItem p fun item => { item with smkKey := keys.smkey }
  writeItem p fun item => { item with skKey := keys.skey }
  writeItem p fun item => { item with mkKey := keys.mkey }
  writeItem p fun item => { item with vkKey := keys.vkey }
  writeItem p fun item => { item with qeTarget }
  writeItem p fun item => { item with quoteNonce := nonce }

def commit (p : Nat) (msg2 : Msg2) (keys : Keys) (qeTarget : TargetInfo) (nonce : QuoteNonce) : M Answer := do
  let state ← readItem p (·.state)
  ensure (state = .getGaed) .invalidState
  writeKeys p msg2 keys qeTarget nonce
  let hashed ← readItem p fun item => item.gA.toList ++ (item.gB.toList ++ item.vkKey.toList)
  require keepOutOfMemory
  let reportData := (crypto.sha256 hashed).toList ++ List.replicate 32 0
  require keepOutOfMemory
  writeItem p fun item => { item with state := .procMsg2ed }
  return .report (crypto.createReport qeTarget reportData) nonce

def sgxRaProcMsg2Trusted (context : Nat) (msg2 : Msg2) (qeTarget : TargetInfo) (argsOk : Bool) : M Answer := do
  let p ← enter context argsOk
  let snap ← withLock (.item p) (snapshot p)
  require keepOutOfMemory
  require keepOutOfMemory
  let dhKey := crypto.sharedDhkey snap.a msg2.gB
  require keepOutOfMemory
  ensure (crypto.ecdsaVerify (msg2.gB.toList ++ snap.gA.toList) snap.spPubkey msg2.signGbGa) .invalidSignature
  let keys ← deriveKeys crypto snap.keyCb dhKey msg2.kdfId
  require keepOutOfMemory
  ensure (crypto.cmac keys.smkey msg2.maced = msg2.mac) .macMismatch
  require keepOutOfMemory
  let nonce ← choose fun _ : QuoteNonce => True
  withLock (.item p) (commit crypto p msg2 keys qeTarget nonce)

def qeMrsignerBytes : Array UInt8 :=
  #[0xec, 0x15, 0xb1, 0x07, 0x87, 0xd2, 0xf8, 0x46, 0x67, 0xce, 0xb0, 0xb5, 0x98, 0xff, 0xc4, 0x4a,
    0x1f, 0x1c, 0xb8, 0x0f, 0x67, 0x0a, 0xae, 0x5d, 0xf9, 0xe8, 0xfa, 0x9f, 0x63, 0x76, 0xe1, 0xf8]

def gQeMrsigner : Vector UInt8 32 := ⟨qeMrsignerBytes, rfl⟩

def uintptrMax : Nat := 0xFFFFFFFFFFFFFFFF
def uint32Max : Nat := 0xFFFFFFFF
def sizeofMsg3 : Nat := 336

def copyForMsg3 (p : Nat) (qeReport : QeReport) : M (PublicKey × List UInt8 × Key) := do
  let state ← readItem p (·.state)
  ensure (state = .procMsg2ed) .invalidState
  let qeTarget ← readItem p (·.qeTarget)
  ensure (qeReport.attributes = qeTarget.attributes ∧ qeReport.mrEnclave = qeTarget.mrEnclave) .invalidParameter
  let gA ← readItem p (·.gA)
  let psSecProp ← readItem p (·.psSecProp)
  let smk ← readItem p (·.smkKey)
  return (gA, psSecProp, smk)

structure Digests where
  sha : List UInt8
  cmac : List UInt8

def pieceSize : Nat := 32

def nextPieceSize (quote quoteSize ptr size : Nat) : Nat :=
  if (quote + quoteSize + 2 ^ 64 - ptr) % 2 ^ 32 < size then ((quote + 2 ^ 64 - ptr) % 2 ^ 32 + quoteSize) % 2 ^ 32
  else size

def quotePieces (quote quoteSize : Nat) : Nat → Nat → Nat → Digests → M Digests
  | 0, _, _, _ => choose fun _ => False
  | fuel + 1, ptr, size, digests =>
    if ptr < quote + quoteSize then do
      let size := nextPieceSize quote quoteSize ptr size
      let piece ← choose fun piece : List UInt8 => piece.length = size
      require keepOutOfMemory
      require keepOutOfMemory
      quotePieces quote quoteSize fuel ((ptr + pieceSize) % 2 ^ 64) size ⟨digests.sha ++ piece, digests.cmac ++ piece⟩
    else return digests

structure Msg3Request where
  quoteSize : Nat
  qeReport : QeReport
  msg3Addr : Nat
  msg3Size : Nat
  msg3Outside : Bool

def Msg3Request.quote (r : Msg3Request) : Nat := r.msg3Addr + sizeofMsg3

def Msg3Request.sizesOk (r : Msg3Request) : Bool :=
  r.msg3Size ≤ uintptrMax - r.msg3Addr ∧ sizeofMsg3 ≤ uint32Max - r.quoteSize ∧ sizeofMsg3 + r.quoteSize = r.msg3Size ∧
    r.msg3Outside

def keepReportError (e : SgxError) : SgxError := if e = .macMismatch ∨ e = .outOfMemory then e else .unexpected

def sgxRaGetMsg3Trusted (context : Nat) (r : Msg3Request) (argsOk : Bool) : M Answer := do
  let p ← enter context (argsOk && r.quoteSize ≠ 0)
  ensure r.sizesOk .invalidParameter
  require keepReportError
  ensure (crypto.verifyReport r.qeReport) .macMismatch
  let (gA, psSecProp, smk) ← withLock (.item p) (copyForMsg3 p r.qeReport)
  require keepOutOfMemory
  -- the nonce is read after the lock has been given back
  let nonce ← readItem p (·.quoteNonce)
  require keepOutOfMemory
  require keepOutOfMemory
  require keepOutOfMemory
  require keepOutOfMemory
  let digests ← quotePieces r.quote r.quoteSize (r.quoteSize + 1) r.quote pieceSize
    ⟨nonce.toList, gA.toList ++ psSecProp⟩
  require keepOutOfMemory
  require keepOutOfMemory
  let hash := crypto.sha256 digests.sha
  ensure (r.qeReport.mrSigner ≠ gQeMrsigner ∨ r.qeReport.reportData.toList.take 32 = hash.toList) .macMismatch
  return .msg3 { mac := crypto.cmac smk digests.cmac, gA, psSecProp }

inductive KeyType where
  | sk
  | mk
  | other (type : Nat)
deriving DecidableEq

def Item.key (item : Item) : KeyType → Option Key
  | .mk => some item.mkKey
  | .sk => some item.skKey
  | .other _ => none

def copyKey (p : Nat) (type : KeyType) : M Answer := do
  let state ← readItem p (·.state)
  ensure (state = .procMsg2ed) .invalidState
  let key ← readItem p (·.key type)
  match key with
  | some key => return .key key
  | none => fail .invalidParameter

def sgxRaGetKeys (context : Nat) (type : KeyType) (argsOk keyInside : Bool) : M Answer := do
  let p ← enter context argsOk
  ensure keyInside .invalidParameter
  withLock (.item p) (copyKey p type)

def initCookie : M Unit := do
  let cookie ← load (·.kdfCookie)
  if cookie = 0 then
    require fun _ => .unexpected
    let rand ← choose fun rand : UInt64 => rand ≠ 0
    withLock .db (store fun m => { m with kdfCookie := if m.kdfCookie = 0 then rand else m.kdfCookie })
  else pure ()

def int32Max : Nat := 0x7FFFFFFF

def insert (item : Item) : M Answer := do
  let size ← load (·.size)
  let firstEmpty ← load fun m => (m.data.take size).findIdx? (·.isNone)
  match firstEmpty with
  | some i =>
    store fun m => m.publish i m.size item
    return .context i
  | none =>
    ensure (size < int32Max) .outOfMemory
    vectorPushBack item
    return .context size

def psSecProp (pse : Bool) : M (List UInt8) :=
  if pse then do
    require id
    choose fun _ : List UInt8 => True
  else return Item.zero.psSecProp

def sgxRaInitEx (pubKey : PublicKey) (pse : Bool) (deriveKeyCb : UInt64) (argsOk : Bool) : M Answer := do
  initCookie
  ensure argsOk .invalidParameter
  require keepOutOfMemory
  require keepOutOfMemory
  ensure (crypto.checkPoint pubKey) .invalidParameter
  require fun _ => .outOfMemory
  let psSecProp ← psSecProp pse
  let encoded ← load fun m => deriveKeyCb ^^^ m.kdfCookie
  withLock .db (insert { Item.zero with spPubkey := pubKey, psSecProp, deriveKeyCb := encoded })

inductive Call where
  | initEx (pubKey : PublicKey) (pse : Bool) (deriveKeyCb : UInt64) (argsOk : Bool)
  | getGa (context : Nat) (argsOk : Bool)
  | procMsg2 (context : Nat) (msg2 : Msg2) (qeTarget : TargetInfo) (argsOk : Bool)
  | getMsg3 (context : Nat) (r : Msg3Request) (argsOk : Bool)
  | getKeys (context : Nat) (type : KeyType) (argsOk keyInside : Bool)

def Call.code : Call → M Answer
  | initEx pubKey pse deriveKeyCb argsOk => sgxRaInitEx crypto pubKey pse deriveKeyCb argsOk
  | getGa context argsOk => sgxRaGetGa crypto context argsOk
  | procMsg2 context msg2 qeTarget argsOk => sgxRaProcMsg2Trusted crypto context msg2 qeTarget argsOk
  | getMsg3 context r argsOk => sgxRaGetMsg3Trusted crypto context r argsOk
  | getKeys context type argsOk keyInside => sgxRaGetKeys context type argsOk keyInside

end

end TkeyExchange
