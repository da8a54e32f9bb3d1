import SrasMage.Memory

/-!
This module contains the messages of the provisioning protocol, lists of entries of a type, a length and a
value (`type_length_value.cpp`).
-/

namespace Aesm

open Bytes Memory

inductive TlvStatus where
  | success
  | outOfMemoryError
  | invalidParameterError
  | invalidMsgError
  | unknownError
  | moreTlvs
  | insufficientMemory
  | invalidFormat
  | unsupported
deriving DecidableEq

inductive TlvType where
  | cipherText
  | blockCipherText
  | blockCipherInfo
  | messageAuthenticationCode
  | nonce
  | epidGid
  | epidSigRl
  | epidGroupCert
  | deviceId
  | psId
  | epidJoinProof
  | epidSig
  | epidMembershipCredential
  | epidPsvn
  | quote
  | x509Cert
  | x509Csr
  | esSelector
  | esInformation
  | flags
  | quoteSig
  | platformInfoBlob
  | signature
  | pek
  | platformInfo
  | pwk2
  | seReport
deriving DecidableEq

def TlvType.value (type : TlvType) : UInt8 := UInt8.ofNat type.ctorIdx

def uint16Max : Nat := 0xFFFF
def uint32Max : Nat := 0xFFFFFFFF

def fourBytesSizeType : UInt8 := 128
def unknownTlvHeaderSize : Nat := 0
def smallTlvHeaderSize : Nat := 4
def largeTlvHeaderSize : Nat := 6
def tlvVersion1 : UInt8 := 1
def ivSize : Nat := 12

def isFourBytesSizeType (x : UInt8) : Bool := x &&& fourBytesSizeType != 0
def getTlvType (x : UInt8) : UInt8 := x &&& ~~~fourBytesSizeType

def hton (n v : Nat) : List UInt8 := (toBytes n v).reverse

structure TlvInfo where
  type : UInt8
  version : UInt8
  headerSize : Nat
  size : Nat
  payload : UInt64
deriving DecidableEq

structure TlvMsg where
  msgBuf : UInt64
  bytes : List UInt8
deriving DecidableEq

def readTlvInfo (msg : TlvMsg) : Option TlvInfo :=
  match msg.bytes with
  | b₀ :: version :: b₂ :: b₃ :: rest =>
    if isFourBytesSizeType b₀ then
      match rest with
      | b₄ :: b₅ :: _ =>
        some {
          type := getTlvType b₀,
          version,
          headerSize := largeTlvHeaderSize,
          size := ntoh [b₂, b₃, b₄, b₅],
          payload := msg.msgBuf + UInt64.ofNat largeTlvHeaderSize
        }
      | _ => none
    else
      some {
        type := getTlvType b₀,
        version,
        headerSize := smallTlvHeaderSize,
        size := ntoh [b₂, b₃],
        payload := msg.msgBuf + UInt64.ofNat smallTlvHeaderSize
      }
  | _ => none

def TlvMsg.advance (msg : TlvMsg) (n : Nat) : TlvMsg := ⟨msg.msgBuf + UInt64.ofNat n, msg.bytes.drop n⟩

def decodeOneTlv (msg : TlvMsg) : Option (TlvInfo × TlvMsg) :=
  match readTlvInfo msg with
  | none => none
  | some info =>
    let totalSize := (info.headerSize + info.size) % 2 ^ 32
    if msg.bytes.length < totalSize then none
    else some (info, msg.advance totalSize)

inductive Ended (α : Type) where
  | returned (status : TlvStatus) (a : α)
  | fault
deriving DecidableEq

def decodeLoop (malloc : Nat → Bool) (fuel : Nat) (tmp : TlvMsg) (infos : List TlvInfo) :
    Option (Ended (List TlvInfo)) :=
  match fuel with
  | 0 => none
  | fuel + 1 =>
    if tmp.bytes = [] then some (.returned .success infos)
    else
      match decodeOneTlv tmp with
      | none => some (.returned .invalidMsgError infos)
      | some (info, tmp) =>
        if !malloc 0 then some (.returned .outOfMemoryError infos)
        -- create_new_info copies the old entries to an array of no bytes
        else if infos ≠ [] ∧ (infos.length + 1) % 2 ^ 32 = 0 then some .fault
        else decodeLoop (fun k => malloc (k + 1)) fuel tmp (infos ++ [info])

structure TLVsMsg where
  infos : List TlvInfo
  msg : Option TlvMsg
deriving DecidableEq

def TLVsMsg.empty : TLVsMsg := ⟨[], none⟩

def initFromBuffer (buf : Option UInt64) (malloc : Nat → Bool) (fuel : Nat) (bytes : List UInt8) :
    Option (Ended TLVsMsg) :=
  match buf with
  | none => some (.returned .outOfMemoryError .empty)
  | some addr =>
    match decodeLoop malloc fuel ⟨addr, bytes⟩ [] with
    | none => none
    | some .fault => some .fault
    | some (.returned status infos) => some (.returned status ⟨infos, some ⟨addr, bytes⟩⟩)

inductive Stop where
  | status (status : TlvStatus)
  | fault
deriving DecidableEq

abbrev TlvM := EStateM Stop TLVsMsg

structure Malloc where
  buf : Option UInt64
  fresh : Nat → UInt8
  infos : Bool
  uninit : TlvInfo

def getTlvHeaderSizeFromPayloadSize (payloadSize : Nat) : Nat :=
  if payloadSize > uint16Max then
    if payloadSize > uint32Max - largeTlvHeaderSize then 0 else largeTlvHeaderSize
  else smallTlvHeaderSize

def getTlvTotalSize (payloadSize : Nat) : Nat :=
  if payloadSize > uint16Max then
    if payloadSize > uint32Max - largeTlvHeaderSize then 0 else payloadSize + largeTlvHeaderSize
  else payloadSize + smallTlvHeaderSize

variable (m : Malloc) (info : TlvInfo)

def calcOneTlvSize : Nat :=
  if info.headerSize = unknownTlvHeaderSize then getTlvTotalSize info.size
  else (info.headerSize + info.size) % 2 ^ 32

def write (addr : UInt64) (bytes : List UInt8) : TlvM Unit := do
  match (← get).msg with
  | none => throw .fault
  | some msg =>
    let offset := (addr - msg.msgBuf).toNat
    if offset + bytes.length ≤ msg.bytes.length then
      modify fun t => { t with msg := some { msg with bytes := overwrite msg.bytes offset bytes } }
    else throw .fault

def memcpyS (dest : UInt64) (size : Nat) (src : List UInt8) : TlvM Unit := do
  if size < src.length then throw (.status .unknownError)
  else write dest src

def allocMoreBuffer (newSize : Nat) : TlvM (UInt64 × Nat) := do
  let t ← get
  match t.msg, m.buf with
  | _, none => throw (.status .outOfMemoryError)
  | none, some p =>
    set { t with msg := some ⟨p, tabulate m.fresh newSize⟩ }
    return (p, newSize)
  | some old, some p =>
    let size := (old.bytes.length + newSize) % 2 ^ 32
    if size < old.bytes.length then throw (.status .unknownError)
    else
      set {
        infos := t.infos.map fun info => { info with payload := p + (info.payload - old.msgBuf) }
        msg := some ⟨p, old.bytes ++ tabulate (fun i => m.fresh (old.bytes.length + i)) newSize⟩
        : TLVsMsg
      }
      return (p + UInt64.ofNat old.bytes.length, newSize)

def createNewInfo : TlvM Unit := do
  let t ← get
  if !m.infos then throw (.status .outOfMemoryError)
  else if t.infos ≠ [] ∧ (t.infos.length + 1) % 2 ^ 32 = 0 then throw .fault
  else set { t with infos := t.infos ++ [m.uninit] }

def writeTlvHeader (msg : UInt64) (info : TlvInfo) : TlvM Unit := do
  if info.size > uint16Max ∨ info.headerSize = largeTlvHeaderSize then
    write msg ([info.type ||| fourBytesSizeType, info.version] ++ hton 4 info.size)
  else
    write msg ([info.type, info.version] ++ hton 2 info.size)

def tlvMsgInitOneTlv (tlvMsg : UInt64 × Nat) : TlvM TlvInfo := do
  let hsize :=
    if info.headerSize = unknownTlvHeaderSize then getTlvHeaderSizeFromPayloadSize info.size
    else info.headerSize
  let tsize := (hsize + info.size) % 2 ^ 32
  if tlvMsg.2 < tsize then throw (.status .insufficientMemory)
  else
    writeTlvHeader tlvMsg.1 info
    if tsize < tlvMsg.2 then throw (.status .moreTlvs)
    else return { info with headerSize := hsize, payload := tlvMsg.1 + UInt64.ofNat hsize }

def setNewInfo : TlvM Unit :=
  modify fun t => { t with infos := t.infos.dropLast ++ [info] }

def addTlv (type : TlvType) (headerSize size : Nat) (fill : TlvInfo → TlvM Unit) : TlvM Unit := do
  let oneInfo : TlvInfo := { type := type.value, version := tlvVersion1, headerSize, size, payload := 0 }
  let newBuf ← allocMoreBuffer m (calcOneTlvSize oneInfo)
  createNewInfo m
  let oneInfo ← tlvMsgInitOneTlv oneInfo newBuf
  fill oneInfo
  setNewInfo oneInfo

def addTlvByDataSize (type : TlvType) (data : List UInt8) : TlvM Unit :=
  addTlv m type unknownTlvHeaderSize data.length fun info => memcpyS info.payload info.size data

def addCipherText (text : List UInt8) (keyId : UInt8) : TlvM Unit :=
  addTlv m .cipherText unknownTlvHeaderSize ((text.length + 1) % 2 ^ 32) fun info => do
    write info.payload [keyId]
    memcpyS (info.payload + 1) ((info.size + 2 ^ 32 - 1) % 2 ^ 32) text

inductive Text where
  | null (len : Nat)
  | bytes (text : List UInt8)

def Text.len : Text → Nat
  | null len => len
  | bytes text => text.length

def copyEncryptedText : Text → TlvM Unit
  | .null _ => pure ()
  | .bytes text =>
    if 0 < text.length then
      memcpyS (info.payload + UInt64.ofNat ivSize) ((info.size + 2 ^ 32 - ivSize) % 2 ^ 32) text
    else pure ()

def addBlockCipherText (iv : Vector UInt8 ivSize) (text : Text) : TlvM Unit :=
  addTlv m .blockCipherText unknownTlvHeaderSize ((text.len + ivSize) % 2 ^ 32) fun info => do
    copyEncryptedText info text
    memcpyS info.payload ivSize iv.toList

def addBlockCipherInfo (sk : Vector UInt8 16) : TlvM Unit :=
  addTlvByDataSize m .blockCipherInfo sk.toList

def addMac (mac : Vector UInt8 16) : TlvM Unit :=
  addTlvByDataSize m .messageAuthenticationCode mac.toList

def addNonce (nonce : List UInt8) : TlvM Unit := addTlvByDataSize m .nonce nonce

def addEpidGid (gid : Vector UInt8 4) : TlvM Unit := addTlvByDataSize m .epidGid gid.toList

def addQuote (quoteData : List UInt8) : TlvM Unit := addTlvByDataSize m .quote quoteData

def addX509Csr (csrData : List UInt8) : TlvM Unit := addTlvByDataSize m .x509Csr csrData

def tlvMsgInitOrUnknownError (tlvMsg : UInt64 × Nat) : TlvM TlvInfo :=
  tryCatch (tlvMsgInitOneTlv info tlvMsg) fun
    | .status _ => throw (.status .unknownError)
    | .fault => throw .fault

def addQuoteSignature (quoteSignature : List UInt8) : TlvM Unit := do
  let oneInfo : TlvInfo := {
    type := TlvType.quoteSig.value, version := tlvVersion1, headerSize := largeTlvHeaderSize,
    size := quoteSignature.length, payload := 0
  }
  let newBuf ← allocMoreBuffer m (calcOneTlvSize oneInfo)
  createNewInfo m
  let oneInfo ← tlvMsgInitOrUnknownError oneInfo newBuf
  memcpyS oneInfo.payload oneInfo.size quoteSignature
  setNewInfo oneInfo

def addEsSelector (protocol selectorId : UInt8) : TlvM Unit :=
  addTlvByDataSize m .esSelector [protocol, selectorId]

def addPsid (psid : Vector UInt8 32) : TlvM Unit := addTlvByDataSize m .psId psid.toList

def addPlatformInfo (pi : Vector UInt8 26) : TlvM Unit := addTlvByDataSize m .platformInfo pi.toList

def addFlags (flags : Vector UInt8 16) : TlvM Unit := addTlvByDataSize m .flags flags.toList

def addPceReportSign (report : Vector UInt8 384) (ecdsaSign : Vector UInt8 64) : TlvM Unit :=
  addTlv m .seReport largeTlvHeaderSize (384 + 64) fun info => do
    memcpyS info.payload info.size report.toList
    memcpyS (info.payload + 384) (info.size - 384) ecdsaSign.toList

inductive AddCall where
  | cipherText (text : List UInt8) (keyId : UInt8)
  | blockCipherText (iv : Vector UInt8 ivSize) (text : Text)
  | blockCipherInfo (sk : Vector UInt8 16)
  | mac (mac : Vector UInt8 16)
  | nonce (nonce : List UInt8)
  | epidGid (gid : Vector UInt8 4)
  | quote (quoteData : List UInt8)
  | x509Csr (csrData : List UInt8)
  | quoteSignature (quoteSignature : List UInt8)
  | esSelector (protocol selectorId : UInt8)
  | psid (psid : Vector UInt8 32)
  | platformInfo (pi : Vector UInt8 26)
  | flags (flags : Vector UInt8 16)
  | pceReportSign (report : Vector UInt8 384) (ecdsaSign : Vector UInt8 64)

def AddCall.run : AddCall → TlvM Unit
  | .cipherText text keyId => addCipherText m text keyId
  | .blockCipherText iv text => addBlockCipherText m iv text
  | .blockCipherInfo sk => addBlockCipherInfo m sk
  | .mac data => addMac m data
  | .nonce data => addNonce m data
  | .epidGid gid => addEpidGid m gid
  | .quote data => addQuote m data
  | .x509Csr data => addX509Csr m data
  | .quoteSignature data => addQuoteSignature m data
  | .esSelector protocol selectorId => addEsSelector m protocol selectorId
  | .psid data => addPsid m data
  | .platformInfo pi => addPlatformInfo m pi
  | .flags data => addFlags m data
  | .pceReportSign report ecdsaSign => addPceReportSign m report ecdsaSign

def addAll (calls : List (Malloc × AddCall)) : TlvM Unit := calls.forM fun call => call.2.run call.1

end Aesm
