import SrasMage.Memory

/-!
This module contains the launch enclave (`launch_enclave.cpp`).
-/

namespace Le

open Memory

inductive AeError where
  | failure
  | unexpectedError
  | invalidParameter
  | getEinittokenKeyError
  | invalidAttribute
  | invalidPrivilegeError
  | whitelistUninitializedError
  | whiteListAlreadyUpdated
deriving DecidableEq

abbrev Measurement := Vector UInt8 32

structure PublicKey where
  gx : List UInt8
  gy : List UInt8
deriving DecidableEq

structure Signature where
  x : List UInt8
  y : List UInt8
deriving DecidableEq

structure Attributes where
  flags : UInt64
  xfrm : UInt64
deriving DecidableEq

structure KeyRequest where
  keyName : UInt16
  keyId : Vector UInt8 32
  cpuSvn : Vector UInt8 16
  isvSvn : UInt16
  attributeMask : Attributes
  miscMask : UInt32
deriving DecidableEq

structure Report where
  cpuSvn : Vector UInt8 16
  miscSelect : UInt32
  attributes : Attributes
  mrSigner : Measurement
  isvProdId : Nat
  isvSvn : UInt16
deriving DecidableEq

inductive Call where
  | openContext
  | verifyProviderCert
  | checkPoint
  | verifyWlCert
  | createReport
  | readRand
  | getKey
  | cmacInit
  | cmacUpdate
  | cmacFinal
deriving DecidableEq

structure Crypto where
  ecdsaVerify : List UInt8 → PublicKey → Signature → Bool
  checkPoint : PublicKey → Bool
  getKey : KeyRequest → Vector UInt8 16
  cmac : Vector UInt8 16 → List UInt8 → Vector UInt8 16

def check {σ : Type} (ok : Bool) (e : AeError) : EStateM AeError σ Unit := if ok then pure () else throw e

def leMaxMrsignerNumber : Nat := 2048
def sizeofMeasurement : Nat := 32
def sizeofSignature : Nat := 64
def sizeofWlCert : Nat := 16
def sizeofWlProviderCert : Nat := 136
def sizeofWlCertChain : Nat := 152

def wlCertVersion : Nat := 0x0100
def wlCertType : Nat := 0x0100
def wlCertProviderId : Nat := 0
def wlProviderCertVersion : Nat := 0x0100
def wlProviderCertType : Nat := 0
def wlProviderCertProviderId : Nat := 0
def wlProviderCertRootId : Nat := 0

def gLeMrsigner : List Measurement :=
  [#v[0xac, 0xb7, 0x70, 0x12, 0x05, 0x3e, 0x05, 0xa6, 0x3d, 0x41, 0x3b, 0x8b, 0xba, 0xe8, 0xfb, 0x6c,
    0x5d, 0x73, 0xb3, 0xf2, 0x99, 0x6d, 0x91, 0xc4, 0x3b, 0xbb, 0xf9, 0x09, 0x59, 0xc0, 0xf8, 0xd4]]

def gServiceEnclaveMrsigner : List Measurement :=
  [#v[0xec, 0x15, 0xb1, 0x07, 0x87, 0xd2, 0xf8, 0x46, 0x67, 0xce, 0xb0, 0xb5, 0x98, 0xff, 0xc4, 0x4a,
    0x1f, 0x1c, 0xb8, 0x0f, 0x67, 0x0a, 0xae, 0x5d, 0xf9, 0xe8, 0xfa, 0x9f, 0x63, 0x76, 0xe1, 0xf8],
   #v[0xC5, 0x4A, 0x62, 0xF2, 0xBE, 0x9E, 0xF7, 0x6E, 0xFB, 0x1F, 0x39, 0x30, 0xAD, 0x81, 0xEA, 0x7F,
    0x60, 0xDE, 0xFC, 0x1F, 0x5F, 0x25, 0xE0, 0x9B, 0x7C, 0x06, 0x7A, 0x81, 0x5A, 0xE0, 0xC6, 0xCB]]

def gWlRootPubkey : PublicKey where
  gx := [0x29, 0x39, 0x1e, 0x9b, 0xcb, 0x86, 0xd6, 0xeb, 0x3c, 0x17, 0x91, 0xc8, 0x8f, 0xc9, 0x5f, 0x8c,
    0xee, 0x0c, 0x1c, 0x75, 0x60, 0x9c, 0x16, 0xc2, 0x18, 0x6d, 0x67, 0x31, 0x45, 0x5c, 0x36, 0xa9]
  gy := [0x5f, 0x09, 0x83, 0x0d, 0xe1, 0x22, 0xda, 0xe4, 0xed, 0x97, 0x54, 0xe6, 0xfe, 0xe2, 0xcc, 0x93,
    0x5e, 0x05, 0x99, 0x84, 0xc9, 0x4f, 0x44, 0x24, 0x7a, 0x28, 0xcf, 0x81, 0xca, 0x11, 0x7e, 0xb6]

def sgxFlagsInitted : UInt64 := 0x1
def sgxFlagsDebug : UInt64 := 0x2
def sgxFlagsMode64bit : UInt64 := 0x4
def sgxFlagsProvisionKey : UInt64 := 0x10
def sgxFlagsEinittokenKey : UInt64 := 0x20
def sgxFlagsKss : UInt64 := 0x80
def flagsNonSecurityBits : UInt64 :=
  0xFFFFFFFFFFFFC0 ||| sgxFlagsMode64bit ||| sgxFlagsProvisionKey ||| sgxFlagsEinittokenKey
def flagsSecurityBitsReserved : UInt64 :=
  ~~~(flagsNonSecurityBits ||| sgxFlagsInitted ||| sgxFlagsDebug ||| sgxFlagsKss)

def sgxKeyselectEinittoken : UInt16 := 0

def field (bytes : List UInt8) (offset size : Nat) : List UInt8 := (bytes.drop offset).take size

variable (chain : List UInt8) (cache : Mem)

def number (offset size : Nat) : Nat := ofBytes (field chain offset size)

def swapEndian8x32b (bytes : List UInt8) : List UInt8 :=
  (List.range 8).flatMap fun i => (field bytes (4 * (7 - i)) 4).reverse

def swapAt (array : List UInt8) (i j : Nat) : List UInt8 :=
  (array.set i (array.getD j 0)).set j (array.getD i 0)

def reverseByteArray (array : List UInt8) : List UInt8 :=
  (List.range (array.length / 2)).foldl (fun array i => swapAt array i (array.length - i - 1)) array

def signatureAt (offset : Nat) : Signature where
  x := swapEndian8x32b (field chain offset 32)
  y := swapEndian8x32b (field chain (offset + 32) 32)

def wlPubkey : PublicKey where
  gx := reverseByteArray (field chain 8 32)
  gy := reverseByteArray (field chain 40 32)

def providerCertBody : List UInt8 := field chain 0 (sizeofWlProviderCert - sizeofSignature)

def bufSize : Nat :=
  (chain.length + 2 ^ 32 - (sizeofWlProviderCert + sizeofSignature)) % 2 ^ 32

def wlCert : List UInt8 := field chain sizeofWlProviderCert (bufSize chain)

def newWlVersion : Nat := ntoh (toBytes 4 (number chain 144 4))
def entryNumber : Nat := ntoh (toBytes 4 (number chain 148 4))

def cachedVersion : Nat := ofBytes (load cache 0 2)
def cachedWlVersion : Nat := ofBytes (load cache 8 4)
def cachedEntryNumber : Nat := ofBytes (load cache 12 4)
def cachedMrSigner (i : Nat) : List UInt8 := load cache (sizeofWlCert + sizeofMeasurement * i) sizeofMeasurement

def emptyCache : Mem := fun _ => 0

section

variable (crypto : Crypto) (fails : Call → Bool) (report : Report)

def cacheWlCert (chain : List UInt8) (entryNumber newWlVersion : Nat) : EStateM AeError Mem Unit := do
  set emptyCache
  modify fun cache => store cache 0 (wlCert chain)
  modify fun cache => store cache 12 (toBytes 4 entryNumber)
  modify fun cache => store cache 8 (toBytes 4 newWlVersion)

def leInitWhiteList (chain : List UInt8) (entryNumber : Nat) : EStateM AeError Mem Unit := do
  check (number chain 0 2 = wlProviderCertVersion) .invalidParameter
  check (number chain 2 2 = wlProviderCertType) .invalidParameter
  check (number chain 4 2 = wlProviderCertProviderId) .invalidParameter
  check (number chain 6 2 = wlProviderCertRootId) .invalidParameter
  check (number chain 136 2 = wlCertVersion) .invalidParameter
  check (number chain 138 2 = wlCertType) .invalidParameter
  check (number chain 140 2 = wlCertProviderId) .invalidParameter
  let cache ← get
  check (cachedVersion cache = 0 ∨ cachedWlVersion cache < newWlVersion chain) .whiteListAlreadyUpdated
  check (!fails .openContext) .unexpectedError
  check (!fails .verifyProviderCert) .unexpectedError
  check (crypto.ecdsaVerify (providerCertBody chain) gWlRootPubkey (signatureAt chain 72)) .invalidParameter
  check (!fails .checkPoint) .unexpectedError
  check (crypto.checkPoint (wlPubkey chain)) .invalidParameter
  check (!fails .verifyWlCert) .unexpectedError
  check (crypto.ecdsaVerify (wlCert chain) (wlPubkey chain) (signatureAt chain (chain.length - sizeofSignature)))
    .invalidParameter
  check (!fails .createReport) .unexpectedError
  check (report.isvProdId = ntoh (toBytes 2 (number chain 142 2))) .invalidParameter
  cacheWlCert chain entryNumber (newWlVersion chain)

def leInitWhiteListWrapper (inside : Bool) (chain : List UInt8) : EStateM AeError Mem Unit := do
  check inside .invalidParameter
  check (sizeofWlCertChain + sizeofMeasurement + sizeofSignature ≤ chain.length) .invalidParameter
  check (entryNumber chain ≤ leMaxMrsignerNumber) .invalidParameter
  check (chain.length = (sizeofWlCertChain + sizeofSignature + sizeofMeasurement * entryNumber chain) % 2 ^ 32)
    .invalidParameter
  leInitWhiteList crypto fails report chain (entryNumber chain)

structure Token where
  valid : UInt32
  attributes : Attributes
  mrEnclave : Measurement
  mrSigner : Measurement
  cpuSvnLe : Vector UInt8 16
  isvProdIdLe : Nat
  isvSvnLe : UInt16
  maskedMiscSelectLe : UInt32
  attributesLe : Attributes
  keyId : Vector UInt8 32
  mac : Vector UInt8 16
deriving DecidableEq

def Token.zero : Token where
  valid := 0
  attributes := ⟨0, 0⟩
  mrEnclave := .replicate 32 0
  mrSigner := .replicate 32 0
  cpuSvnLe := .replicate 16 0
  isvProdIdLe := 0
  isvSvnLe := 0
  maskedMiscSelectLe := 0
  attributesLe := ⟨0, 0⟩
  keyId := .replicate 32 0
  mac := .replicate 16 0

def Token.body (token : Token) : List UInt8 :=
  toBytes 4 token.valid.toNat ++ (List.replicate 44 0 ++ (toBytes 8 token.attributes.flags.toNat ++
    (toBytes 8 token.attributes.xfrm.toNat ++ (token.mrEnclave.toList ++ (List.replicate 32 0 ++
    (token.mrSigner.toList ++ List.replicate 32 0))))))

def leCalcLicToken (keyId : Vector UInt8 32) : EStateM AeError Token Unit := do
  check (!fails .readRand) .unexpectedError
  modify fun token => { token with keyId }
  let token ← get
  let keyRequest : KeyRequest :=
    { keyName := sgxKeyselectEinittoken, keyId := token.keyId, cpuSvn := token.cpuSvnLe, isvSvn := token.isvSvnLe
      attributeMask := ⟨~~~sgxFlagsMode64bit, 0⟩, miscMask := 0xFFFFFFFF }
  modify fun token => { token with maskedMiscSelectLe := token.maskedMiscSelectLe &&& keyRequest.miscMask }
  modify fun token =>
    { token with
      attributesLe := ⟨token.attributesLe.flags &&& keyRequest.attributeMask.flags,
        token.attributesLe.xfrm &&& keyRequest.attributeMask.xfrm⟩ }
  check (!fails .getKey) .getEinittokenKeyError
  let launchKey := crypto.getKey keyRequest
  check (!fails .cmacInit) .failure
  check (!fails .cmacUpdate) .failure
  check (!fails .cmacFinal) .failure
  modify fun token => { token with mac := crypto.cmac launchKey token.body }

structure Request where
  mrEnclave : Measurement
  mrSigner : Measurement
  attributes : Attributes
deriving DecidableEq

def Request.isDebug (r : Request) : Bool := r.attributes.flags &&& sgxFlagsDebug ≠ 0
def Request.hasProvisionKey (r : Request) : Bool := r.attributes.flags &&& sgxFlagsProvisionKey ≠ 0

variable (cache : Mem)

def isListed (mrSigner : Measurement) : Bool :=
  (List.range (cachedEntryNumber cache)).any fun i => cachedMrSigner cache i = mrSigner.toList

def isWildCard : Bool := cachedMrSigner cache 0 = List.replicate 32 0

def checkRequest (r : Request) : EStateM AeError Token Unit := do
  check (r.attributes.flags &&& flagsSecurityBitsReserved = 0) .invalidAttribute
  check (!fails .createReport) .unexpectedError
  let isProduction := report.mrSigner ∈ gLeMrsigner
  check (!(isProduction ∧ r.hasProvisionKey) ∨ r.mrSigner ∈ gServiceEnclaveMrsigner) .invalidAttribute
  let isControlled := !r.isDebug ∧ isProduction
  check (!isControlled ∨ cachedVersion cache ≠ 0) .whitelistUninitializedError
  check (!isControlled ∨ isWildCard cache ∨ isListed cache r.mrSigner) .invalidPrivilegeError

def leGenerateLaunchToken (keyId : Vector UInt8 32) (cache : Mem) (r : Request) : EStateM AeError Token Unit := do
  checkRequest fails report cache r
  set Token.zero
  modify fun token =>
    { token with
      valid := 1, mrEnclave := r.mrEnclave, mrSigner := r.mrSigner, attributes := r.attributes
      cpuSvnLe := report.cpuSvn, isvSvnLe := report.isvSvn, isvProdIdLe := report.isvProdId
      attributesLe := report.attributes, maskedMiscSelectLe := report.miscSelect }
  tryCatch (leCalcLicToken crypto fails keyId) fun e => do
    set Token.zero
    throw e

def leGetLaunchTokenWrapper (keyId : Vector UInt8 32) (argsOk : Bool) (cache : Mem) (r : Request) :
    EStateM AeError Token Unit := do
  check argsOk .invalidParameter
  leGenerateLaunchToken crypto fails report keyId cache r

end

inductive Event where
  | accepted (chain : List UInt8)
  | rejected (chain : List UInt8) (e : AeError)
  | token (r : Request) (after : Token)
  | refused (r : Request) (e : AeError) (before after : Token)

inductive Step (crypto : Crypto) (report : Report) (cache : Mem) : Event → Mem → Prop
  | accepted (fails : Call → Bool) (inside : Bool) {chain : List UInt8} {cache' : Mem} : chain.length < 2 ^ 32 →
    leInitWhiteListWrapper crypto fails report inside chain cache = .ok () cache' →
    Step crypto report cache (.accepted chain) cache'
  | rejected (fails : Call → Bool) (inside : Bool) {chain : List UInt8} {e : AeError} {cache' : Mem} :
    chain.length < 2 ^ 32 → leInitWhiteListWrapper crypto fails report inside chain cache = .error e cache' →
    Step crypto report cache (.rejected chain e) cache'
  | token (fails : Call → Bool) (keyId : Vector UInt8 32) (argsOk : Bool) {r : Request} {before after : Token} :
    leGetLaunchTokenWrapper crypto fails report keyId argsOk cache r before = .ok () after →
    Step crypto report cache (.token r after) cache
  | refused (fails : Call → Bool) (keyId : Vector UInt8 32) (argsOk : Bool) {r : Request} {e : AeError}
    {before after : Token} : leGetLaunchTokenWrapper crypto fails report keyId argsOk cache r before = .error e after →
    Step crypto report cache (.refused r e before after) cache

end Le
