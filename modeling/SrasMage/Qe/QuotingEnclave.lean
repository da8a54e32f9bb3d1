import SrasMage.Hoare
import SrasMage.Memory
import SrasMage.StreamCipher
import SrasMage.Qe.Epid
import SrasMage.Trts.Enclave

/-!
This module contains how the quoting enclave makes a quote (`psw/ae/qe/quoting_enclave.cpp`).
-/

namespace Qe

open Bytes Memory StreamCipher
open Trts (Enclave)

inductive AeError where
  | qeParameterError
  | qeUnexpectedError
  | qeEpidblobError
  | qeSigrlError
  | qeRevokedError
deriving DecidableEq

structure Member (F : Type) where
  f : F
  gid : Vector UInt8 4
  epidSk : Vector UInt8 64
  xeid : Nat

structure Env (F G : Type) [Field F] [AddCommGroup G] [Module F G] where
  enclave : Enclave
  epid : Epid F G
  host : Nat → Mem
  fails : Nat → Bool
  readRand : Nat → Nat → UInt8
  sha256 : List UInt8 → Vector UInt8 32
  rsaPubEncrypt : Nat → List UInt8 → Vector UInt8 256
  keystream : List UInt8 → List UInt8 → Nat → UInt8
  gcmMac : List UInt8 → List UInt8 → List UInt8 → Vector UInt8 16
  ecdsaVerifyHash : Vector UInt8 32 → Vector UInt8 64 → List UInt8 → List UInt8 → Bool
  verifyReport : Vector UInt8 432 → Bool
  verifyBlob : Except AeError (Member F)
  isvSvn : Nat

structure Args where
  blob : Nat
  blobSize : Nat
  enclaveReport : Nat
  report : Vector UInt8 432
  quoteType : Nat
  spid : Nat
  spidId : Vector UInt8 16
  nonce : Nat
  nonceRand : Vector UInt8 16
  sigRl : Nat
  sigRlSize : Nat
  qeReport : Nat
  quote : Nat
  quoteSize : Nat
  pceIsvsvn : Nat

def Args.reportBody (args : Args) : List UInt8 := args.report.toList.take 384

def sizeofReport : Nat := 432
def sizeofQuote : Nat := 436
def qeQuoteBodySize : Nat := sizeofQuote - 4
def sizeofWrapKey : Nat := 288
def quoteIvSize : Nat := 12
def sizeofMac : Nat := 16
def sizeofBasicSignature : Nat := 352
def sizeofEpidSignature : Nat := sizeofBasicSignature + 4 + 4 + sizeofNrProof
def sizeofSigRlEntry : Nat := 128
def sizeofSigRl : Nat := 2 + 2 + 4 + 4 + 4 + sizeofSigRlEntry
def seEcdsaSignSize : Nat := 32
def seQuoteLengthWithoutSig : Nat := sizeofQuote + sizeofWrapKey + quoteIvSize + 4 + sizeofMac
def sgxTrustedEpidBlobSizeSdk : Nat := 2836
def uint32Max : Nat := 0xFFFFFFFF

def seEpidSigRlVersion : Nat := 0x200
def seEpidSigRlId : Nat := 0xE00
def qeQuoteVersion : Nat := 2
def sgxUnlinkableSignature : Nat := 0
def sgxLinkableSignature : Nat := 1

structure Streams where
  out : Mem
  sigRl : List UInt8
  quote : List UInt8
  gcm : List UInt8
  qeReport : Option (List UInt8)

structure State where
  reads : Nat
  calls : Nat
  streams : Streams

abbrev M := EStateM AeError State

variable {F G : Type} [Field F] [AddCommGroup G] [Module F G] (env : Env F G)

def nextCall : M Nat := do
  let s ← get
  modify fun s => { s with calls := s.calls + 1 }
  return s.calls

def call (e : AeError) : M Nat := do
  let n ← nextCall
  if env.fails n then throw e else return n

def memcpyIn (addr n : Nat) : M (List UInt8) := do
  let s ← get
  modify fun s => { s with reads := s.reads + n }
  return tabulate (fun i => env.host (s.reads + i) (addr + i)) n

def updateStreams (g : Streams → Streams) : M Unit := modify fun s => { s with streams := g s.streams }

def memcpyOut (addr : Nat) (bytes : List UInt8) : M Unit :=
  updateStreams fun d => { d with out := store d.out addr bytes }

def updateSigRlHash (bytes : List UInt8) : M Unit := do
  let _ ← call env .qeUnexpectedError
  updateStreams fun d => { d with sigRl := d.sigRl ++ bytes }

def updateQuoteHash (bytes : List UInt8) : M Unit := do
  let _ ← call env .qeUnexpectedError
  updateStreams fun d => { d with quote := d.quote ++ bytes }

structure WrapKey where
  key : List UInt8
  iv : List UInt8
  wrapped : List UInt8

def aesGcm128EncUpdate (w : WrapKey) (data : List UInt8) : M (List UInt8) := do
  let _ ← call env .qeUnexpectedError
  let s ← get
  updateStreams fun d => { d with gcm := d.gcm ++ data }
  return encryptAt (env.keystream w.key w.iv) s.streams.gcm.length data

structure SigRlInfo where
  header : List UInt8
  x : List UInt8
  y : List UInt8
  signSize : Nat

def entryCount (header : List UInt8) : Nat := ofBytes ((header.drop 12).take 4).reverse

def Args.sign (args : Args) : Nat := args.quote + sizeofQuote

def Args.whenReport (args : Args) (x : M Unit) : M Unit := if args.qeReport ≠ 0 then x else pure ()

def startQuoteHash (args : Args) (body : List UInt8) : M Unit := args.whenReport do
  let _ ← call env .qeUnexpectedError
  updateStreams fun d => { d with quote := [] }
  updateQuoteHash env args.nonceRand.toList
  updateQuoteHash env body

def startSigRlHash (args : Args) (header : List UInt8) : M Unit :=
  if args.sigRl ≠ 0 then do
    let _ ← call env .qeUnexpectedError
    updateStreams fun d => { d with sigRl := [] }
    updateSigRlHash env (header.take (sizeofSigRl - sizeofSigRlEntry))
  else pure ()

def makeWrapKey : M WrapKey := do
  let n ← call env .qeUnexpectedError
  let key := tabulate (env.readRand n) 16
  let _ ← call env .qeUnexpectedError
  let _ ← call env .qeUnexpectedError
  let _ ← call env .qeUnexpectedError
  let k ← call env .qeUnexpectedError
  let i ← call env .qeUnexpectedError
  return ⟨key, tabulate (env.readRand i) quoteIvSize, (env.rsaPubEncrypt k key).toList ++ (env.sha256 key).toList⟩

def encryptBasicSign (args : Args) (w : WrapKey) (basicSig : List UInt8) (signSize : Nat) : M Unit := do
  memcpyOut args.sign w.wrapped
  memcpyOut (args.sign + 288) w.iv
  memcpyOut (args.sign + 300) (toBytes 4 signSize)
  let _ ← call env .qeUnexpectedError
  updateStreams fun d => { d with gcm := [] }
  let encrypted ← aesGcm128EncUpdate env w basicSig
  memcpyOut (args.sign + 304) encrypted
  args.whenReport do
    updateQuoteHash env w.wrapped
    updateQuoteHash env w.iv
    updateQuoteHash env (toBytes 4 signSize)
    updateQuoteHash env encrypted

def proveEntries (args : Args) (w : WrapKey) (f : F) (body basename basicSig : List UInt8) : Nat → Nat → Bool → M Bool
  | 0, _, isMatch => return isMatch
  | n + 1, i, isMatch => do
    let entry ← memcpyIn env (args.sigRl + 16 + sizeofSigRlEntry * i) sizeofSigRlEntry
    let k ← nextCall
    let (status, nr) := epidNrProve env.epid k f (body.take qeQuoteBodySize) basename basicSig entry
    if status = .otherErr then throw .qeUnexpectedError
    else do
      updateSigRlHash env entry
      let encrypted ← aesGcm128EncUpdate env w nr
      memcpyOut (args.sign + 664 + sizeofNrProof * i) encrypted
      args.whenReport (updateQuoteHash env encrypted)
      proveEntries args w f body basename basicSig n (i + 1) (isMatch || status = .sigRevokedInSigRl)

def verifySigRl (member : Member F) (info : SigRlInfo) (isMatch : Bool) : M Unit := do
  let _ ← call env .qeUnexpectedError
  let _ ← call env .qeUnexpectedError
  let _ ← call env .qeUnexpectedError
  let s ← get
  if env.ecdsaVerifyHash (env.sha256 s.streams.sigRl) member.epidSk info.x info.y = false then throw .qeSigrlError
  else if isMatch then throw .qeRevokedError
  else pure ()

def processSigRl (args : Args) (member : Member F) (info : SigRlInfo) (w : WrapKey)
    (body basename basicSig : List UInt8) : M Unit := do
  let encryptedRlVer ← aesGcm128EncUpdate env w ((info.header.drop 8).take 4)
  let encryptedN2 ← aesGcm128EncUpdate env w ((info.header.drop 12).take 4)
  memcpyOut (args.sign + 656) encryptedRlVer
  memcpyOut (args.sign + 660) encryptedN2
  args.whenReport do
    updateQuoteHash env encryptedRlVer
    updateQuoteHash env encryptedN2
  let isMatch ← proveEntries env args w member.f body basename basicSig (entryCount info.header) 0 false
  verifySigRl env member info isMatch

def withoutSigRl (args : Args) (w : WrapKey) : M Unit := do
  let encrypted ← aesGcm128EncUpdate env w (List.replicate 8 0)
  memcpyOut (args.sign + 656) encrypted
  args.whenReport (updateQuoteHash env encrypted)

def encryptRevocation (args : Args) (member : Member F) (info : SigRlInfo) (w : WrapKey)
    (body basename basicSig : List UInt8) : M Unit :=
  if args.sigRl ≠ 0 then processSigRl env args member info w body basename basicSig else withoutSigRl env args w

def finishQuote (args : Args) (w : WrapKey) (signSize : Nat) : M Unit := do
  let _ ← call env .qeUnexpectedError
  let s ← get
  let tag := (env.gcmMac w.key w.iv s.streams.gcm).toList
  memcpyOut (args.sign + 304 + signSize) tag
  args.whenReport do
    updateQuoteHash env tag
    let _ ← call env .qeUnexpectedError
    let _ ← call env .qeParameterError
    updateStreams fun d => { d with qeReport := some ((env.sha256 d.quote).toList ++ List.replicate 32 0) }

def qeEpidSign (args : Args) (member : Member F) (info : SigRlInfo) (body basename : List UInt8) : M Unit := do
  let n ← call env .qeUnexpectedError
  let basicSig := (env.epid.signBasic n member.f (body.take qeQuoteBodySize) basename).toList
  startQuoteHash env args body
  startSigRlHash env args info.header
  let w ← makeWrapKey env
  encryptBasicSign env args w basicSig info.signSize
  encryptRevocation env args member info w body basename basicSig
  finishQuote env args w info.signSize

def checkArgs (args : Args) : Bool :=
  args.blob ≠ 0 && args.enclaveReport ≠ 0 && args.spid ≠ 0 && args.quote ≠ 0 && args.quoteSize ≠ 0
    && !(args.sigRl ≠ 0 && args.sigRlSize < sizeofSigRl + 2 * seEcdsaSignSize)
    && !(args.sigRl = 0 && args.sigRlSize ≠ 0)
    && args.blobSize = sgxTrustedEpidBlobSizeSdk
    && (args.quoteType = sgxLinkableSignature || args.quoteType = sgxUnlinkableSignature)
    && !(args.nonce = 0 && args.qeReport ≠ 0) && !(args.nonce ≠ 0 && args.qeReport = 0)
    && env.enclave.sgxIsOutsideEnclave args.sigRl args.sigRlSize
    && env.enclave.sgxIsOutsideEnclave args.quote args.quoteSize
    && env.enclave.sgxIsWithinEnclave args.blob args.blobSize
    && env.enclave.sgxIsWithinEnclave args.enclaveReport sizeofReport
    && env.enclave.sgxIsWithinEnclave args.spid 16
    && (args.nonce = 0 || env.enclave.sgxIsWithinEnclave args.nonce 16
      && env.enclave.sgxIsWithinEnclave args.qeReport sizeofReport)

def headerOk (args : Args) (gid : Vector UInt8 4) (header : List UInt8) : Bool :=
  ofBytes (header.take 2) = seEpidSigRlVersion && ofBytes ((header.drop 2).take 2) = seEpidSigRlId
    && (header.drop 4).take 4 = gid.toList
    && sizeofSigRl - sizeofSigRlEntry + entryCount header * sizeofSigRlEntry + 2 * seEcdsaSignSize = args.sigRlSize

def readSigRl (args : Args) (gid : Vector UInt8 4) : M SigRlInfo :=
  if args.sigRl ≠ 0 then do
    let header ← memcpyIn env args.sigRl sizeofSigRl
    if !headerOk args gid header then throw .qeParameterError
    else do
      let x ← memcpyIn env (args.sigRl + args.sigRlSize - seEcdsaSignSize * 2) seEcdsaSignSize
      let y ← memcpyIn env (args.sigRl + args.sigRlSize - seEcdsaSignSize * 1) seEcdsaSignSize
      let signSize := sizeofEpidSignature - sizeofNrProof + entryCount header * sizeofNrProof
      if signSize > uint32Max then throw .qeParameterError
      else return ⟨header, x.reverse, y.reverse, signSize⟩
  else
    return ⟨List.replicate sizeofSigRl 0, List.replicate seEcdsaSignSize 0, List.replicate seEcdsaSignSize 0,
      sizeofBasicSignature + 4 + 4⟩

def makeBasename (args : Args) : M (List UInt8) :=
  if args.quoteType = sgxUnlinkableSignature then do
    let n ← call env .qeUnexpectedError
    return args.spidId.toList ++ tabulate (env.readRand n) 16
  else return args.spidId.toList ++ List.replicate 16 0

def quoteBody (args : Args) (member : Member F) (basename : List UInt8) (signSize : Nat) : List UInt8 :=
  toBytes 2 qeQuoteVersion ++ toBytes 2 args.quoteType ++ member.gid.toList.reverse ++ toBytes 2 env.isvSvn
    ++ toBytes 2 args.pceIsvsvn ++ toBytes 4 member.xeid ++ basename ++ args.reportBody
    ++ toBytes 4 (sizeofWrapKey + quoteIvSize + 4 + signSize + sizeofMac)

def ofExcept {α : Type} : Except AeError α → M α
  | .ok a => pure a
  | .error e => throw e

def writeQuote (args : Args) (member : Member F) (info : SigRlInfo) (basename : List UInt8) : M Unit := do
  memcpyOut args.quote (List.replicate args.quoteSize 0)
  let _ ← call env .qeParameterError
  let body := quoteBody env args member basename info.signSize
  tryCatch (qeEpidSign env args member info body basename) fun e => do
    memcpyOut args.sign (List.replicate (args.quoteSize - sizeofQuote) 0)
    throw e
  memcpyOut args.quote body

def getQuote (args : Args) : M Unit :=
  if !checkArgs env args then throw .qeParameterError
  else if !env.verifyReport args.report then throw .qeParameterError
  else do
    let member ← ofExcept env.verifyBlob
    let info ← readSigRl env args member.gid
    let basename ← makeBasename env args
    let _ ← call env .qeUnexpectedError
    if args.quoteSize < seQuoteLengthWithoutSig + info.signSize then throw .qeParameterError
    else writeQuote env args member info basename

end Qe
