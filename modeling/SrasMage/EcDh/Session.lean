import SrasMage.EcDh.Report

/-!
This module contains the sessions of local attestation (`ec_dh.cpp`).
-/

namespace EcDh

open Memory

inductive Version where
  | v1
  | v2
deriving DecidableEq

inductive Primitive where
  | sha256
  | createReport
  | verifyReport
  | cmacMsg
  | cmacInit
  | cmacUpdateProp
  | cmacUpdateKey
  | cmacFinal
  | cmacClose
deriving DecidableEq

inductive Call where
  | createSelfReport
  | openContext
  | createKeyPair
  | computeSharedDhkey
  | deriveSmk
  | deriveAek
  | closeContext
  | generate (version : Version) (primitive : Primitive)
  | verify (version : Version) (primitive : Primitive)
deriving DecidableEq

abbrev PublicKey := Vector UInt8 64
abbrev PrivateKey := Vector UInt8 32
abbrev SharedKey := Vector UInt8 32
abbrev Key := Vector UInt8 16
abbrev Tag := Vector UInt8 16
abbrev Hash := Vector UInt8 32
abbrev ReportData := Vector UInt8 64

structure Crypto where
  sha256 : List UInt8 → Hash
  cmac : Key → List UInt8 → Tag
  publicKey : PrivateKey → PublicKey
  sharedDhkey : PrivateKey → PublicKey → SharedKey
  reportMac : List UInt8 → List UInt8 → Tag

structure Env where
  self : Enclave
  prvKey : PrivateKey
  keyId : Vector UInt8 32
  fails : Call → Option SgxError
  junkHash : Call → Hash
  junkReport : Call → Report
  junkTag : Call → Tag
  junkData : Call → List UInt8

abbrev M := EStateM SgxError (List (Call × Bool))

structure Msg1 where
  gA : PublicKey
  target : List UInt8
deriving DecidableEq

structure Msg2 where
  gB : PublicKey
  report : Report
  cmac : Tag
deriving DecidableEq

structure Msg3 where
  cmac : Tag
  report : Report
  additionalProp : List UInt8
deriving DecidableEq

def uintMax : Nat := 0xFFFFFFFF
def sizeofMsg3Body : Nat := 436
def sizeofMsg3 : Nat := 452

inductive Role where
  | initiator
  | responder
deriving DecidableEq

inductive SessionState where
  | error
  | reset
  | responderWaitM2
  | initiatorWaitM1
  | initiatorWaitM3
  | active
deriving DecidableEq

structure Session where
  role : Role
  state : SessionState
  prvKey : PrivateKey
  pubKey : PublicKey
  peerPubKey : PublicKey
  smk : Key
  sharedKey : SharedKey
deriving DecidableEq

def Session.cleared (state : SessionState) : Session where
  role := .initiator
  state
  prvKey := .replicate 32 0
  pubKey := .replicate 64 0
  peerPubKey := .replicate 64 0
  smk := .replicate 16 0
  sharedKey := .replicate 32 0

structure EnclaveIdentity where
  cpuSvn : Vector UInt8 16
  miscSelect : Vector UInt8 4
  reserved1 : Vector UInt8 28
  attributes : Vector UInt8 16
  mrEnclave : Vector UInt8 32
  reserved2 : Vector UInt8 32
  mrSigner : Vector UInt8 32
  reserved3 : Vector UInt8 96
  isvProdId : Vector UInt8 2
  isvSvn : Vector UInt8 2
deriving DecidableEq

section

variable (crypto : Crypto) (env : Env)

variable (c : Call) (msg2 : Msg2)

def attempt : M Bool := do
  modify (· ++ [(c, (env.fails c).isNone)])
  return (env.fails c).isNone

def require : M Unit := do
  modify (· ++ [(c, (env.fails c).isNone)])
  match env.fails c with
  | none => pure ()
  | some e => throw e

def orJunk {α : Type} (value junk : α) : M α := do
  let ok ← attempt env c
  return if ok then value else junk

def createReport (target : List UInt8) (data : ReportData) : Report :=
  let r : Report := { enclave := env.self, reportData := data, keyId := env.keyId, mac := .replicate 16 0 }
  { r with mac := crypto.reportMac target r.maced }

def verifyReport (r : Report) : Bool := r.mac = crypto.reportMac env.self.targetInfo r.maced

def deriveKey (sharedKey : SharedKey) (label : List UInt8) : Key :=
  let keyDeriveKey := crypto.cmac (.replicate 16 0) sharedKey.toList
  crypto.cmac keyDeriveKey ([0x01] ++ label ++ [0x00, 0x80, 0x00])

def labelSmk : List UInt8 := [0x53, 0x4D, 0x4B]
def labelAek : List UInt8 := [0x41, 0x45, 0x4B]

def ensure (ok : Bool) (e : SgxError) : M Unit := if ok then pure () else throw e

def verifyCmac128 (key : Key) (data : List UInt8) (mac : Tag) : M Unit := do
  require env c
  ensure (mac = crypto.cmac key data) .macMismatch

def requireReport (r : Report) : M Unit := do
  require env c
  ensure (verifyReport crypto env r) .macMismatch

def aesCmacKdfId : Vector UInt8 2 := #v[1, 0]

def padHash (hash : Hash) : ReportData := (hash ++ Vector.replicate 32 (0 : UInt8) : Vector UInt8 (32 + 32))

def hashWithKdfId (hash : Hash) : ReportData :=
  (hash ++ (aesCmacKdfId ++ Vector.replicate 30 (0 : UInt8) : Vector UInt8 (2 + 30)) : Vector UInt8 (32 + (2 + 30)))

def liftExcept {α : Type} : Except SgxError α → M α
  | .ok a => pure a
  | .error e => throw e

def dhGenerateMessage2 (msg1 : Msg1) (gB : PublicKey) (smk : Key) : M Msg2 := do
  require env (.generate .v1 .sha256)
  let msgHash := crypto.sha256 (msg1.gA.toList ++ gB.toList)
  require env (.generate .v1 .createReport)
  let report := createReport crypto env msg1.target (hashWithKdfId msgHash)
  require env (.generate .v1 .cmacMsg)
  return { gB, report, cmac := crypto.cmac smk report.bytes }

def kdfId (reportData : ReportData) : List UInt8 := (reportData.toList.drop 32).take 2

def dhVerifyMessage2 (gA : PublicKey) (smk : Key) : M Unit := do
  ensure (kdfId msg2.report.reportData = aesCmacKdfId.toList) .kdfMismatch
  verifyCmac128 crypto env (.verify .v1 .cmacMsg) smk msg2.report.bytes msg2.cmac
  requireReport crypto env (.verify .v1 .verifyReport) msg2.report
  require env (.verify .v1 .sha256)
  let msgHash := crypto.sha256 (gA.toList ++ msg2.gB.toList)
  ensure (msg2.report.reportData.toList.take 32 = msgHash.toList) .macMismatch

def macedMsg3 (report : Report) (additionalProp : List UInt8) : List UInt8 :=
  let macedSize := (sizeofMsg3Body + additionalProp.length) % 2 ^ 32
  (report.bytes ++ (toBytes 4 additionalProp.length ++ additionalProp)).take macedSize

def dhGenerateMessage3 (gA : PublicKey) (smk : Key) (additionalProp : List UInt8) : M Msg3 := do
  require env (.generate .v1 .sha256)
  let msgHash := crypto.sha256 (msg2.gB.toList ++ gA.toList)
  let target ← liftExcept (makeTargetInfo protoSpecLAv2 msg2.report)
  require env (.generate .v1 .createReport)
  let report := createReport crypto env target (padHash msgHash)
  require env (.generate .v1 .cmacMsg)
  return { cmac := crypto.cmac smk (macedMsg3 report additionalProp), report, additionalProp }

def dhVerifyMessage3 (msg3 : Msg3) (gA gB : PublicKey) (smk : Key) : M Unit := do
  verifyCmac128 crypto env (.verify .v1 .cmacMsg) smk (macedMsg3 msg3.report msg3.additionalProp) msg3.cmac
  requireReport crypto env (.verify .v1 .verifyReport) msg3.report
  require env (.verify .v1 .sha256)
  let msgHash := crypto.sha256 (gB.toList ++ gA.toList)
  ensure (msg3.report.reportData.toList.take 32 = msgHash.toList) .macMismatch

def cmac128 (site : Primitive → Call) (smk : Key) (additionalProp : List UInt8) (a : PublicKey) : M Tag := do
  let data ← orJunk env (site .cmacUpdateProp) additionalProp (env.junkData (site .cmacUpdateProp))
  let data ← orJunk env (site .cmacUpdateKey) (data ++ a.toList) (env.junkData (site .cmacUpdateKey))
  let tag ← orJunk env (site .cmacFinal) (crypto.cmac smk data) (env.junkTag (site .cmacFinal))
  let _ ← attempt env (site .cmacClose)
  return tag

def generateMessage2LAv2 (msg1 : Msg1) (gB : PublicKey) (smk : Key) : M Msg2 := do
  let hash ← orJunk env (.generate .v2 .sha256) (crypto.sha256 (protoSpecLAv2.toList ++ gB.toList))
    (env.junkHash (.generate .v2 .sha256))
  let rpt ← orJunk env (.generate .v2 .createReport) (createReport crypto env msg1.target (padHash hash))
    (env.junkReport (.generate .v2 .createReport))
  require env (.generate .v2 .cmacMsg)
  return { gB, report := { rpt with reportData := protoSpecLAv2 }, cmac := crypto.cmac smk gB.toList }

def attemptCheck (ok : Bool) : M Bool := do
  let called ← attempt env c
  return called && ok

def verifyMessage2LAv2 (smk : Key) : M Bool := do
  let hash ← orJunk env (.verify .v2 .sha256) (crypto.sha256 (msg2.report.reportData.toList ++ msg2.gB.toList))
    (env.junkHash (.verify .v2 .sha256))
  let rpt := { msg2.report with reportData := padHash hash }
  let reportOk ← attemptCheck env (.verify .v2 .verifyReport) (verifyReport crypto env rpt)
  if !reportOk then return false
  else
    let cmacOk ← attemptCheck env (.verify .v2 .cmacMsg) (msg2.cmac = crypto.cmac smk msg2.gB.toList)
    return cmacOk && msg2.report.reportData.toList.take 7 = protoSpecLAv2.toList.take 7

def generateMessage3LAv2 (a : PublicKey) (smk : Key) (additionalProp : List UInt8) : M Msg3 := do
  let ps := msg2.report.reportData
  let ti ← liftExcept (makeTargetInfo ps msg2.report)
  let hash ← orJunk env (.generate .v2 .sha256) (crypto.sha256 (a.toList ++ ps.toList))
    (env.junkHash (.generate .v2 .sha256))
  let report ← orJunk env (.generate .v2 .createReport) (createReport crypto env ti (padHash hash))
    (env.junkReport (.generate .v2 .createReport))
  require env (.generate .v2 .cmacInit)
  let cmac ← cmac128 crypto env (.generate .v2) smk additionalProp a
  return { cmac, report, additionalProp }

def verifyMessage3LAv2 (msg3 : Msg3) (a : PublicKey) (smk : Key) : M Unit := do
  let hash ← orJunk env (.verify .v2 .sha256) (crypto.sha256 (a.toList ++ protoSpecLAv2.toList))
    (env.junkHash (.verify .v2 .sha256))
  ensure (msg3.report.reportData = padHash hash) .unexpected
  let reportOk ← attemptCheck env (.verify .v2 .verifyReport)
    (verifyReport crypto env { msg3.report with reportData := padHash hash })
  ensure reportOk .unexpected
  let initOk ← attempt env (.verify .v2 .cmacInit)
  ensure initOk .outOfMemory
  let tag ← cmac128 crypto env (.verify .v2) smk msg3.additionalProp a
  ensure (tag = msg3.cmac) .macMismatch

end

structure Outcome (α : Type) where
  result : Except SgxError α
  session : Session
  log : List (Call × Bool)

def convertError (e : SgxError) : SgxError := if e = .outOfMemory then e else .unexpected

def convertErrorMsg2 (e : SgxError) : SgxError := if e = .outOfMemory ∨ e = .kdfMismatch then e else .unexpected

section

variable (crypto : Crypto) (env : Env)

def closing {α : Type} (convert : SgxError → SgxError) (body : M (α × Session)) : Outcome α :=
  let close := (Call.closeContext, (env.fails .closeContext).isNone)
  match body [] with
  | .error e log => ⟨.error (convert e), .cleared .error, log ++ [close]⟩
  | .ok (a, session) log =>
    if (env.fails .closeContext).isNone then ⟨.ok a, session, log ++ [close]⟩
    else ⟨.error .unexpected, .cleared .error, log ++ [close]⟩

def sgxDhInitSession (role : Role) : Session where
  role
  state := if role = .initiator then .initiatorWaitM1 else .reset
  prvKey := .replicate 32 0
  pubKey := .replicate 64 0
  peerPubKey := .replicate 64 0
  smk := .replicate 16 0
  sharedKey := .replicate 32 0

def dhGenerateMessage1 (session : Session) : M (Msg1 × Session) := do
  require env .createSelfReport
  let tempReport := createReport crypto env (List.replicate sizeofTargetInfo 0) (.replicate 64 0)
  let target ← liftExcept (makeTargetInfo protoSpecLAv2 tempReport)
  require env .openContext
  tryCatch (require env .createKeyPair) fun e => do
    let _ ← attempt env .closeContext
    throw e
  let pubKey := crypto.publicKey env.prvKey
  require env .closeContext
  return ({ gA := pubKey, target }, { session with prvKey := env.prvKey, pubKey })

def sgxDhResponderGenMsg1 (sessionOk argsOk : Bool) (session : Session) : Outcome Msg1 :=
  if !sessionOk then ⟨.error .invalidParameter, session, []⟩
  else if !argsOk ∨ session.role ≠ .responder then ⟨.error .invalidParameter, .cleared .error, []⟩
  else if session.state ≠ .reset then ⟨.error .invalidState, .cleared .error, []⟩
  else
    match dhGenerateMessage1 crypto env session [] with
    | .error e log => ⟨.error (convertError e), .cleared .error, log⟩
    | .ok (msg1, session) log => ⟨.ok msg1, { session with state := .responderWaitM2 }, log⟩

variable (version : Version) (msg2 : Msg2)

def genMsg2 : Msg1 → PublicKey → Key → M Msg2 :=
  match version with
  | .v1 => dhGenerateMessage2 crypto env
  | .v2 => generateMessage2LAv2 crypto env

def initiatorBody1 (msg1 : Msg1) (session : Session) : M (Msg2 × Session) := do
  require env .openContext
  require env .createKeyPair
  let pubKey := crypto.publicKey env.prvKey
  require env .computeSharedDhkey
  let sharedKey := crypto.sharedDhkey env.prvKey msg1.gA
  require env .deriveSmk
  let smk := deriveKey crypto sharedKey labelSmk
  let msg2 ← genMsg2 crypto env version msg1 pubKey smk
  return (msg2, { session with pubKey, peerPubKey := msg1.gA, smk, sharedKey, state := .initiatorWaitM3 })

def dhInitiatorProcMsg1 (sessionOk argsOk : Bool) (msg1 : Msg1) (session : Session) : Outcome Msg2 :=
  if !sessionOk then ⟨.error .invalidParameter, session, []⟩
  else if !argsOk ∨ session.role ≠ .initiator then ⟨.error .invalidParameter, .cleared .error, []⟩
  else if session.state ≠ .initiatorWaitM1 then ⟨.error .invalidState, .cleared .error, []⟩
  else closing env convertError (initiatorBody1 crypto env version msg1 session)

def checkMsg2 (gA : PublicKey) (smk : Key) : M Version :=
  tryCatch (do dhVerifyMessage2 crypto env msg2 gA smk; return .v1) fun e => do
    let isLAv2 ← verifyMessage2LAv2 crypto env msg2 smk
    if isLAv2 then return .v2 else throw e

def genMsg3 (gA : PublicKey) (smk : Key) (additionalProp : List UInt8) : M Msg3 :=
  match version with
  | .v1 => dhGenerateMessage3 crypto env msg2 gA smk additionalProp
  | .v2 => generateMessage3LAv2 crypto env msg2 gA smk additionalProp

structure Established where
  msg3 : Msg3
  aek : Key
  identity : EnclaveIdentity

def initiatorIdentity (e : Enclave) (buffer : EnclaveIdentity) : EnclaveIdentity :=
  { buffer with
    isvSvn := e.isvSvn, isvProdId := e.isvProdId, attributes := e.attributes, mrSigner := e.mrSigner,
    mrEnclave := e.mrEnclave }

def responderBody2 (additionalProp : List UInt8) (buffer : EnclaveIdentity) (session : Session) :
    M (Established × Session) := do
  require env .openContext
  require env .computeSharedDhkey
  let sharedKey := crypto.sharedDhkey session.prvKey msg2.gB
  require env .deriveSmk
  let smk := deriveKey crypto sharedKey labelSmk
  let version ← checkMsg2 crypto env msg2 session.pubKey smk
  let identity := initiatorIdentity msg2.report.enclave buffer
  let msg3 ← genMsg3 crypto env version msg2 session.pubKey smk additionalProp
  require env .deriveAek
  return ({ msg3, aek := deriveKey crypto sharedKey labelAek, identity }, .cleared .active)

def sgxDhResponderProcMsg2 (sessionOk argsOk : Bool) (msg2 : Msg2) (additionalProp : List UInt8)
    (buffer : EnclaveIdentity) (session : Session) : Outcome Established :=
  if !sessionOk then ⟨.error .invalidParameter, session, []⟩
  else if !argsOk ∨ additionalProp.length > uintMax - sizeofMsg3 ∨ session.role ≠ .responder then
    ⟨.error .invalidParameter, .cleared .error, []⟩
  else if session.state ≠ .responderWaitM2 then ⟨.error .invalidState, .cleared .error, []⟩
  else closing env convertErrorMsg2 (responderBody2 crypto env msg2 additionalProp buffer session)

def verMsg3 (msg3 : Msg3) (gA gB : PublicKey) (smk : Key) : M Unit :=
  match version with
  | .v1 => dhVerifyMessage3 crypto env msg3 gA gB smk
  | .v2 => verifyMessage3LAv2 crypto env msg3 gA smk

def responderIdentity (e : Enclave) : EnclaveIdentity where
  cpuSvn := e.cpuSvn
  miscSelect := e.miscSelect
  reserved1 := e.cetAttributes ++ (e.reserved1 ++ e.isvExtProdId)
  attributes := e.attributes
  mrEnclave := e.mrEnclave
  reserved2 := e.reserved2
  mrSigner := e.mrSigner
  reserved3 := e.reserved3 ++ e.configId
  isvProdId := e.isvProdId
  isvSvn := e.isvSvn

def initiatorBody3 (msg3 : Msg3) (session : Session) : M (Key × EnclaveIdentity) := do
  verMsg3 crypto env version msg3 session.peerPubKey session.pubKey session.smk
  require env .deriveAek
  return (deriveKey crypto session.sharedKey labelAek, responderIdentity msg3.report.enclave)

def dhInitiatorProcMsg3 (sessionOk argsOk : Bool) (msg3 : Msg3) (session : Session) : Outcome (Key × EnclaveIdentity) :=
  if !sessionOk then ⟨.error .invalidParameter, session, []⟩
  else if !argsOk ∨ msg3.additionalProp.length > uintMax - sizeofMsg3 ∨ session.role ≠ .initiator then
    ⟨.error .invalidParameter, .cleared .error, []⟩
  else if session.state ≠ .initiatorWaitM3 then ⟨.error .invalidState, .cleared .error, []⟩
  else
    match initiatorBody3 crypto env version msg3 session [] with
    | .error e log => ⟨.error (convertError e), .cleared .error, log⟩
    | .ok r log => ⟨.ok r, .cleared .active, log⟩

def sgxLAv1InitiatorProcMsg1 := dhInitiatorProcMsg1 crypto env .v1
def sgxLAv2InitiatorProcMsg1 := dhInitiatorProcMsg1 crypto env .v2
def sgxLAv1InitiatorProcMsg3 := dhInitiatorProcMsg3 crypto env .v1
def sgxLAv2InitiatorProcMsg3 := dhInitiatorProcMsg3 crypto env .v2

end

end EcDh
