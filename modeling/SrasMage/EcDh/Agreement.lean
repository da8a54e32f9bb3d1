import SrasMage.EcDh.Failures

/-!
This module contains that the two sides of an undisturbed attestation agree, and that no message 2 is taken
for one of the other version.
-/

namespace EcDh

open Hoare

structure Agreement where
  initiatorState : SessionState
  responderState : SessionState
  initiatorAek : Key
  responderAek : Key
  initiatorIdentity : EnclaveIdentity
  responderIdentity : EnclaveIdentity
deriving DecidableEq

def attest (crypto : Crypto) (initiator responder : Env) (version : Version) (additionalProp : List UInt8)
    (buffer : EnclaveIdentity) : Except SgxError Agreement := do
  let first := sgxDhResponderGenMsg1 crypto responder true true (sgxDhInitSession .responder)
  let msg1 ← first.result
  let second := dhInitiatorProcMsg1 crypto initiator version true true msg1 (sgxDhInitSession .initiator)
  let msg2 ← second.result
  let third := sgxDhResponderProcMsg2 crypto responder true true msg2 additionalProp buffer first.session
  let established ← third.result
  let fourth := dhInitiatorProcMsg3 crypto initiator version true true established.msg3 second.session
  let (aek, responderIdentity) ← fourth.result
  return {
    initiatorState := fourth.session.state
    responderState := third.session.state
    initiatorAek := aek
    responderAek := established.aek
    initiatorIdentity := established.identity
    responderIdentity }

section

variable {crypto : Crypto} {env : Env} {c : Call}

theorem yields_orJunk {α : Type} (value junk : α) (h : env.fails c = none) :
    Yields (orJunk env c value junk) value := by
  have hyields : Yields (orJunk env c value junk) _ := Yields.orJunk value junk
  rw [h] at hyields
  exact hyields

theorem yields_attempt (h : env.fails c = none) : Yields (attempt env c) true := by
  have hyields : Yields (attempt env c) _ := Yields.attempt
  rw [h] at hyields
  exact hyields

theorem yields_attemptCheck {ok : Bool} (h : env.fails c = none) (hok : ok = true) :
    Yields (attemptCheck env c ok) true := by
  subst hok
  have hyields : Yields (attemptCheck env c true) _ := Yields.attemptCheck true
  rw [h] at hyields
  exact hyields

theorem verifyReport_createReport (env env' : Env) (data : ReportData) :
    verifyReport crypto env' (createReport crypto env env'.self.targetInfo data) = true :=
  decide_eq_true rfl

def message2 (crypto : Crypto) (env : Env) (target : List UInt8) (gA gB : PublicKey) (smk : Key) : Version → Msg2
  | .v1 =>
    let report := createReport crypto env target (hashWithKdfId (crypto.sha256 (gA.toList ++ gB.toList)))
    { gB, report, cmac := crypto.cmac smk report.bytes }
  | .v2 =>
    let report := createReport crypto env target (padHash (crypto.sha256 (protoSpecLAv2.toList ++ gB.toList)))
    { gB, report := { report with reportData := protoSpecLAv2 }, cmac := crypto.cmac smk gB.toList }

def message3 (crypto : Crypto) (env : Env) (target : List UInt8) (gA gB : PublicKey) (smk : Key)
    (additionalProp : List UInt8) : Version → Msg3
  | .v1 =>
    let report := createReport crypto env target (padHash (crypto.sha256 (gB.toList ++ gA.toList)))
    { cmac := crypto.cmac smk (macedMsg3 report additionalProp), report, additionalProp }
  | .v2 =>
    let report := createReport crypto env target (padHash (crypto.sha256 (gA.toList ++ protoSpecLAv2.toList)))
    { cmac := crypto.cmac smk (additionalProp ++ gA.toList), report, additionalProp }

section

variable (crypto : Crypto) (env : Env) (target : List UInt8) (gA gB : PublicKey) (smk : Key) (prop : List UInt8)

variable (version : Version)

theorem message2_gB : (message2 crypto env target gA gB smk version).gB = gB := by
  cases version <;> rfl

theorem message2_enclave : (message2 crypto env target gA gB smk version).report.enclave = env.self := by
  cases version <;> rfl

theorem message3_enclave : (message3 crypto env target gA gB smk prop version).report.enclave = env.self := by
  cases version <;> rfl

theorem message3_additionalProp : (message3 crypto env target gA gB smk prop version).additionalProp = prop := by
  cases version <;> rfl

end

theorem yields_genMsg2 (h : ∀ c, env.fails c = none) (version : Version) (msg1 : Msg1) (gB : PublicKey) (smk : Key) :
    Yields (genMsg2 crypto env version msg1 gB smk) (message2 crypto env msg1.target msg1.gA gB smk version) := by
  cases version with
  | v1 =>
    exact (Yields.require (h _)).bind <| (Yields.require (h _)).bind <| (Yields.require (h _)).bind <| .pure _
  | v2 =>
    exact (yields_orJunk _ _ (h _)).bind <| (yields_orJunk _ _ (h _)).bind <| (Yields.require (h _)).bind <| .pure _

theorem yields_cmac128_ok (h : ∀ c, env.fails c = none) (site : Primitive → Call) (smk : Key) (prop : List UInt8)
    (a : PublicKey) : Yields (cmac128 crypto env site smk prop a) (crypto.cmac smk (prop ++ a.toList)) :=
  (yields_orJunk _ _ (h _)).bind <| (yields_orJunk _ _ (h _)).bind <| (yields_orJunk _ _ (h _)).bind <|
    (yields_attempt (h _)).bind <| .pure _

variable (hash : Hash)

theorem toList_padHash : (padHash hash).toList = hash.toList ++ List.replicate 32 0 := by
  change (hash ++ Vector.replicate 32 (0 : UInt8)).toList = _
  rw [Vector.toList_append, Vector.toList_replicate]

theorem toList_hashWithKdfId : (hashWithKdfId hash).toList = hash.toList ++ ([1, 0] ++ List.replicate 30 0) := by
  change (hash ++ (aesCmacKdfId ++ Vector.replicate 30 (0 : UInt8))).toList = _
  rw [Vector.toList_append, Vector.toList_append, Vector.toList_replicate]
  rfl

theorem take_hashWithKdfId : (hashWithKdfId hash).toList.take 32 = hash.toList := by
  rw [toList_hashWithKdfId]
  simp

theorem kdfId_hashWithKdfId : kdfId (hashWithKdfId hash) = aesCmacKdfId.toList := by
  rw [kdfId, toList_hashWithKdfId]
  simp [aesCmacKdfId]

theorem take_padHash : (padHash hash).toList.take 32 = hash.toList := by
  rw [toList_padHash]
  simp

theorem kdfId_padHash : kdfId (padHash hash) ≠ aesCmacKdfId.toList := by
  rw [kdfId, toList_padHash]
  simp [aesCmacKdfId]

theorem yields_checkMsg2 {initiator : Env} (h : ∀ c, env.fails c = none) (version : Version) (gA gB : PublicKey)
    (smk : Key) :
    Yields (checkMsg2 crypto env (message2 crypto initiator env.self.targetInfo gA gB smk version) gA smk) version := by
  cases version with
  | v1 =>
    have hverify : Yields
        (dhVerifyMessage2 crypto env (message2 crypto initiator env.self.targetInfo gA gB smk .v1) gA smk) () :=
      (Yields.ensure _ (decide_eq_true (kdfId_hashWithKdfId _))).bind <|
        ((Yields.require (h _)).bind <| Yields.ensure _ (decide_eq_true rfl)).bind <|
        ((Yields.require (h _)).bind <| Yields.ensure _ (verifyReport_createReport _ _ _)).bind <|
        (Yields.require (h _)).bind <| Yields.ensure _ (decide_eq_true (take_hashWithKdfId _))
    intro log
    obtain ⟨log', hlog⟩ := hverify log
    exact ⟨log', tryCatch_of_ok (bind_of_ok hlog)⟩
  | v2 =>
    refine yields_checkMsg2_v2 kdfId_protoSpecLAv2 (yields_verifyMessage2LAv2 rfl (h _) (h _) ?_ rfl rfl)
    rw [h]
    exact verifyReport_createReport _ _ _

theorem yields_genMsg3 {initiator : Env} (h : ∀ c, env.fails c = none) (version : Version) (target : List UInt8)
    (gA gB : PublicKey) (smk : Key) (prop : List UInt8) :
    Yields (genMsg3 crypto env version (message2 crypto initiator target gA gB smk version) gA smk prop)
      (message3 crypto env initiator.self.targetInfo gA gB smk prop version) := by
  cases version with
  | v1 =>
    exact (Yields.require (h _)).bind <| (Yields.liftExcept (makeTargetInfo_protoSpecLAv2 _)).bind <|
      (Yields.require (h _)).bind <| (Yields.require (h _)).bind <| .pure _
  | v2 =>
    exact (Yields.liftExcept (makeTargetInfo_protoSpecLAv2 _)).bind <| (yields_orJunk _ _ (h _)).bind <|
      (yields_orJunk _ _ (h _)).bind <| (Yields.require (h _)).bind <| (yields_cmac128_ok h _ _ _ _).bind <| .pure _

theorem yields_verMsg3 {responder : Env} (h : ∀ c, env.fails c = none) (version : Version) (gA gB : PublicKey)
    (smk : Key) (prop : List UInt8) :
    Yields (verMsg3 crypto env version (message3 crypto responder env.self.targetInfo gA gB smk prop version)
      gA gB smk) () := by
  cases version with
  | v1 =>
    exact ((Yields.require (h _)).bind <| Yields.ensure _ (decide_eq_true rfl)).bind <|
      ((Yields.require (h _)).bind <| Yields.ensure _ (verifyReport_createReport _ _ _)).bind <|
      (Yields.require (h _)).bind <| Yields.ensure _ (decide_eq_true (take_padHash _))
  | v2 =>
    exact (yields_orJunk _ _ (h _)).bind <| (Yields.ensure _ (decide_eq_true rfl)).bind <|
      (yields_attemptCheck (h _) (verifyReport_createReport _ _ _)).bind <| (Yields.ensure _ rfl).bind <|
      (yields_attempt (h _)).bind <| (Yields.ensure _ rfl).bind <| (yields_cmac128_ok h _ _ _ _).bind <|
      Yields.ensure _ (decide_eq_true rfl)

end

section

variable {crypto : Crypto} {initiator responder : Env}

def sharedKey (crypto : Crypto) (initiator responder : Env) : SharedKey :=
  crypto.sharedDhkey responder.prvKey (crypto.publicKey initiator.prvKey)

def message1 (crypto : Crypto) (responder : Env) : Msg1 :=
  ⟨crypto.publicKey responder.prvKey, responder.self.targetInfo⟩

def responderSession (crypto : Crypto) (responder : Env) : Session :=
  { sgxDhInitSession .responder with
    prvKey := responder.prvKey, pubKey := crypto.publicKey responder.prvKey, state := .responderWaitM2 }

def initiatorSession (crypto : Crypto) (initiator responder : Env) : Session :=
  { sgxDhInitSession .initiator with
    pubKey := crypto.publicKey initiator.prvKey, peerPubKey := crypto.publicKey responder.prvKey
    smk := deriveKey crypto (sharedKey crypto initiator responder) labelSmk
    sharedKey := sharedKey crypto initiator responder, state := .initiatorWaitM3 }

theorem sgxDhResponderGenMsg1_eq (crypto : Crypto) (h : ∀ c, responder.fails c = none) :
    ∃ log, sgxDhResponderGenMsg1 crypto responder true true (sgxDhInitSession .responder)
      = ⟨.ok (message1 crypto responder), responderSession crypto responder, log⟩ := by
  have hkeys : Yields (tryCatch (require responder .createKeyPair) fun e => do
      let _ ← attempt responder .closeContext
      throw e) () := by
    intro log
    obtain ⟨log', hlog⟩ := Yields.require (h .createKeyPair) log
    exact ⟨log', tryCatch_of_ok hlog⟩
  have hbody : Yields (dhGenerateMessage1 crypto responder (sgxDhInitSession .responder)) (message1 crypto responder,
      { sgxDhInitSession .responder with prvKey := responder.prvKey, pubKey := crypto.publicKey responder.prvKey }) :=
    (Yields.require (h _)).bind <| (Yields.liftExcept (makeTargetInfo_protoSpecLAv2 _)).bind <|
      (Yields.require (h _)).bind <| hkeys.bind <| (Yields.require (h _)).bind <| .pure _
  obtain ⟨log, hlog⟩ := hbody []
  refine ⟨log, ?_⟩
  unfold sgxDhResponderGenMsg1
  rw [hlog]
  rfl

theorem closing_eq {α : Type} {env : Env} (convert : SgxError → SgxError) {body : M (α × Session)} {a : α}
    {session : Session} (h : Yields body (a, session)) (hclose : env.fails .closeContext = none) :
    ∃ log, closing env convert body = ⟨.ok a, session, log⟩ := by
  obtain ⟨log, hlog⟩ := h []
  refine ⟨log ++ [(.closeContext, true)], ?_⟩
  unfold closing
  rw [hlog, hclose]
  rfl

theorem dhInitiatorProcMsg1_eq (h : ∀ c, initiator.fails c = none)
    (hdh : crypto.sharedDhkey initiator.prvKey (crypto.publicKey responder.prvKey)
      = crypto.sharedDhkey responder.prvKey (crypto.publicKey initiator.prvKey)) (version : Version) :
    ∃ log, dhInitiatorProcMsg1 crypto initiator version true true (message1 crypto responder)
        (sgxDhInitSession .initiator)
      = ⟨.ok (message2 crypto initiator responder.self.targetInfo (crypto.publicKey responder.prvKey)
          (crypto.publicKey initiator.prvKey) (deriveKey crypto (sharedKey crypto initiator responder) labelSmk)
          version), initiatorSession crypto initiator responder, log⟩ := by
  have hbody : Yields (initiatorBody1 crypto initiator version (message1 crypto responder)
      (sgxDhInitSession .initiator)) (_, _) :=
    (Yields.require (h _)).bind <| (Yields.require (h _)).bind <| (Yields.require (h _)).bind <|
      (Yields.require (h _)).bind <| (yields_genMsg2 h version _ _ _).bind <| .pure _
  obtain ⟨log, hlog⟩ := closing_eq convertError hbody (h .closeContext)
  refine ⟨log, Eq.trans hlog ?_⟩
  simp only [message1, hdh]
  rfl

theorem sgxDhResponderProcMsg2_eq (crypto : Crypto) (initiator : Env) (h : ∀ c, responder.fails c = none)
    (version : Version) (prop : List UInt8)
    (hprop : prop.length ≤ uintMax - sizeofMsg3) (buffer : EnclaveIdentity) :
    ∃ log, sgxDhResponderProcMsg2 crypto responder true true (message2 crypto initiator responder.self.targetInfo
        (crypto.publicKey responder.prvKey) (crypto.publicKey initiator.prvKey)
        (deriveKey crypto (sharedKey crypto initiator responder) labelSmk) version) prop buffer
        (responderSession crypto responder)
      = ⟨.ok ⟨message3 crypto responder initiator.self.targetInfo (crypto.publicKey responder.prvKey)
          (crypto.publicKey initiator.prvKey) (deriveKey crypto (sharedKey crypto initiator responder) labelSmk) prop
          version, deriveKey crypto (sharedKey crypto initiator responder) labelAek,
          initiatorIdentity initiator.self buffer⟩, .cleared .active, log⟩ := by
  let smk := deriveKey crypto (sharedKey crypto initiator responder) labelSmk
  let msg2 := message2 crypto initiator responder.self.targetInfo (crypto.publicKey responder.prvKey)
    (crypto.publicKey initiator.prvKey) smk version
  have hgB : msg2.gB = crypto.publicKey initiator.prvKey := message2_gB _ _ _ _ _ _ _
  have henclave : msg2.report.enclave = initiator.self := message2_enclave _ _ _ _ _ _ _
  have hbody : Yields (responderBody2 crypto responder msg2 prop buffer (responderSession crypto responder))
      (⟨message3 crypto responder initiator.self.targetInfo (crypto.publicKey responder.prvKey)
        (crypto.publicKey initiator.prvKey) smk prop version,
        deriveKey crypto (sharedKey crypto initiator responder) labelAek, initiatorIdentity initiator.self buffer⟩,
        .cleared .active) := by
    unfold responderBody2
    rw [hgB, henclave]
    exact (Yields.require (h _)).bind <| (Yields.require (h _)).bind <| (Yields.require (h _)).bind <|
      (yields_checkMsg2 h version _ _ _).bind <| (yields_genMsg3 h version _ _ _ _ _).bind <|
      (Yields.require (h _)).bind <| .pure _
  obtain ⟨log, hlog⟩ := closing_eq convertErrorMsg2 hbody (h .closeContext)
  refine ⟨log, Eq.trans ?_ hlog⟩
  unfold sgxDhResponderProcMsg2
  rw [if_neg (by decide), if_neg ?_, if_neg ?_]
  . exact not_not.2 rfl
  rintro (hargs | hlength | hrole)
  . cases hargs
  . omega
  . exact hrole rfl

theorem dhInitiatorProcMsg3_eq (crypto : Crypto) (responder : Env) (h : ∀ c, initiator.fails c = none)
    (version : Version) (prop : List UInt8)
    (hprop : prop.length ≤ uintMax - sizeofMsg3) :
    ∃ log, dhInitiatorProcMsg3 crypto initiator version true true (message3 crypto responder initiator.self.targetInfo
        (crypto.publicKey responder.prvKey) (crypto.publicKey initiator.prvKey)
        (deriveKey crypto (sharedKey crypto initiator responder) labelSmk) prop version)
        (initiatorSession crypto initiator responder)
      = ⟨.ok (deriveKey crypto (sharedKey crypto initiator responder) labelAek, responderIdentity responder.self),
          .cleared .active, log⟩ := by
  let msg3 := message3 crypto responder initiator.self.targetInfo (crypto.publicKey responder.prvKey)
    (crypto.publicKey initiator.prvKey) (deriveKey crypto (sharedKey crypto initiator responder) labelSmk) prop version
  have hmsg3 : msg3.additionalProp = prop := message3_additionalProp _ _ _ _ _ _ _ _
  have henclave : msg3.report.enclave = responder.self := message3_enclave _ _ _ _ _ _ _ _
  have hbody : Yields (initiatorBody3 crypto initiator version msg3 (initiatorSession crypto initiator responder))
      (deriveKey crypto (sharedKey crypto initiator responder) labelAek, responderIdentity responder.self) := by
    unfold initiatorBody3
    rw [henclave]
    exact (yields_verMsg3 h version _ _ _ _).bind <| (Yields.require (h _)).bind <| .pure _
  obtain ⟨log, hlog⟩ := hbody []
  have hstate : (initiatorSession crypto initiator responder).state = .initiatorWaitM3 := rfl
  refine ⟨log, ?_⟩
  unfold dhInitiatorProcMsg3
  rw [if_neg (by decide), if_neg ?_, if_neg (not_not.2 hstate), hlog]
  rintro (hargs | hlength | hrole)
  . cases hargs
  . rw [hmsg3] at hlength
    omega
  . exact hrole rfl

theorem attest_eq (hi : ∀ c, initiator.fails c = none) (hr : ∀ c, responder.fails c = none)
    (hdh : crypto.sharedDhkey initiator.prvKey (crypto.publicKey responder.prvKey)
      = crypto.sharedDhkey responder.prvKey (crypto.publicKey initiator.prvKey)) (version : Version)
    (prop : List UInt8) (hprop : prop.length ≤ uintMax - sizeofMsg3) (buffer : EnclaveIdentity) :
    attest crypto initiator responder version prop buffer = .ok {
      initiatorState := .active
      responderState := .active
      initiatorAek := deriveKey crypto (sharedKey crypto initiator responder) labelAek
      responderAek := deriveKey crypto (sharedKey crypto initiator responder) labelAek
      initiatorIdentity := initiatorIdentity initiator.self buffer
      responderIdentity := responderIdentity responder.self } := by
  obtain ⟨log1, h1⟩ := sgxDhResponderGenMsg1_eq crypto hr
  obtain ⟨log2, h2⟩ := dhInitiatorProcMsg1_eq hi hdh version
  obtain ⟨log3, h3⟩ := sgxDhResponderProcMsg2_eq crypto initiator hr version prop hprop buffer
  obtain ⟨log4, h4⟩ := dhInitiatorProcMsg3_eq crypto responder hi version prop hprop
  unfold attest
  rw [h1]
  simp only [bind, Except.bind]
  rw [h2]
  simp only
  rw [h3]
  simp only
  rw [h4]
  rfl

end

def Accepts (crypto : Crypto) (env : Env) (msg2 : Msg2) (gA : PublicKey) (smk : Key) : Version → Prop
  | .v1 => ∃ log log', dhVerifyMessage2 crypto env msg2 gA smk log = .ok () log'
  | .v2 => ∃ log log', verifyMessage2LAv2 crypto env msg2 smk log = .ok true log'

def Crypto.Exact (crypto : Crypto) (target : List UInt8) (r : Report) : Prop :=
  ∀ target' maced, crypto.reportMac target' maced = crypto.reportMac target r.maced → target' = target ∧ maced = r.maced

section

variable {crypto : Crypto} {env : Env} {msg2 : Msg2} {gA : PublicKey} {smk : Key}

theorem Accepts.kdfId (h : Accepts crypto env msg2 gA smk .v1) :
    EcDh.kdfId msg2.report.reportData = aesCmacKdfId.toList := by
  obtain ⟨log, log', h⟩ := h
  obtain ⟨_, _, hensure, -⟩ := bind_eq_ok.1 h
  exact of_decide_eq_true (ensure_eq_ok.1 hensure).1

theorem Accepts.mac_v1 (h : Accepts crypto env msg2 gA smk .v1) :
    msg2.report.mac = crypto.reportMac env.self.targetInfo msg2.report.maced := by
  obtain ⟨log, log', h⟩ := h
  obtain ⟨_, _, -, h⟩ := bind_eq_ok.1 h
  obtain ⟨_, _, -, h⟩ := bind_eq_ok.1 h
  obtain ⟨_, _, hreport, -⟩ := bind_eq_ok.1 h
  obtain ⟨_, _, -, hreport⟩ := bind_eq_ok.1 hreport
  exact of_decide_eq_true (ensure_eq_ok.1 hreport).1

theorem Accepts.mac_v2 (h : Accepts crypto env msg2 gA smk .v2) : ∃ hash, msg2.report.mac
      = crypto.reportMac env.self.targetInfo { msg2.report with reportData := padHash hash : Report }.maced := by
  obtain ⟨log, log', h⟩ := h
  obtain ⟨hash, _, -, h⟩ := bind_eq_ok.1 h
  obtain ⟨reportOk, _, hreport, h⟩ := bind_eq_ok.1 h
  refine ⟨hash, ?_⟩
  cases hreport
  cases hverify : verifyReport crypto env { msg2.report with reportData := padHash hash } with
  | true => exact of_decide_eq_true hverify
  | false =>
    rw [hverify, Bool.and_false] at h
    cases h

theorem reportData_eq_of_maced_eq {r : Report} {data : ReportData}
    (h : { r with reportData := data : Report }.maced = r.maced) : data = r.reportData := by
  have hdata := List.append_cancel_left h
  have hlength : data.toList.length = r.reportData.toList.length := by simp
  exact Vector.toList_inj.1 (List.append_inj_left hdata hlength)

theorem not_accepts_v2 {target : List UInt8} (hkdf : EcDh.kdfId msg2.report.reportData = aesCmacKdfId.toList)
    (hmac : msg2.report.mac = crypto.reportMac target msg2.report.maced) (hexact : crypto.Exact target msg2.report) :
    ¬ Accepts crypto env msg2 gA smk .v2 := by
  intro h
  obtain ⟨hash, hhash⟩ := h.mac_v2
  obtain ⟨-, hmaced⟩ := hexact _ _ (hhash.symm.trans hmac)
  rw [← reportData_eq_of_maced_eq hmaced] at hkdf
  exact kdfId_padHash hash hkdf

end

def EnclaveIdentity.IsOf (identity : EnclaveIdentity) (e : Enclave) : Prop :=
  identity.isvSvn = e.isvSvn ∧ identity.isvProdId = e.isvProdId ∧ identity.attributes = e.attributes ∧
    identity.mrSigner = e.mrSigner ∧ identity.mrEnclave = e.mrEnclave

/--
Undisturbed sessions agree, and no message 2 is taken for one of the other version.
-/
theorem attest_agrees (crypto : Crypto)
    (hdh : ∀ a b, crypto.sharedDhkey a (crypto.publicKey b) = crypto.sharedDhkey b (crypto.publicKey a)) :
    (∀ initiator responder version additionalProp buffer, (∀ c, initiator.fails c = none) →
      (∀ c, responder.fails c = none) → additionalProp.length ≤ uintMax - sizeofMsg3 →
      ∃ agreement, attest crypto initiator responder version additionalProp buffer = .ok agreement ∧
        agreement.initiatorState = .active ∧ agreement.responderState = .active ∧
        agreement.initiatorAek = agreement.responderAek ∧
        agreement.initiatorIdentity.IsOf initiator.self ∧ agreement.responderIdentity.IsOf responder.self) ∧
    (∀ env msg1 gB smk msg2 log log', generateMessage2LAv2 crypto env msg1 gB smk log = .ok msg2 log' →
      ∀ responder gA smk', ¬ Accepts crypto responder msg2 gA smk' .v1) ∧
    (∀ env msg1 gB smk msg2 log log', dhGenerateMessage2 crypto env msg1 gB smk log = .ok msg2 log' →
      crypto.Exact msg1.target msg2.report → ∀ responder gA smk', ¬ Accepts crypto responder msg2 gA smk' .v2) ∧
    ∀ responder msg2 gA smk smk', crypto.Exact responder.self.targetInfo msg2.report →
      ¬ (Accepts crypto responder msg2 gA smk .v1 ∧ Accepts crypto responder msg2 gA smk' .v2) := by
  refine ⟨?_, ?_, ?_, ?_⟩
  . intro initiator responder version additionalProp buffer hi hr hprop
    exact ⟨_, attest_eq hi hr (hdh _ _) version additionalProp hprop buffer, rfl, rfl, rfl,
      ⟨rfl, rfl, rfl, rfl, rfl⟩, ⟨rfl, rfl, rfl, rfl, rfl⟩⟩
  . intro env msg1 gB smk msg2 log log' hgen responder gA smk' haccepts
    obtain ⟨_, _, -, hgen⟩ := bind_eq_ok.mp hgen
    obtain ⟨_, _, -, hgen⟩ := bind_eq_ok.mp hgen
    obtain ⟨_, _, -, hgen⟩ := bind_eq_ok.mp hgen
    obtain ⟨rfl, -⟩ := pure_eq_ok.mp hgen
    exact kdfId_protoSpecLAv2 haccepts.kdfId
  . intro env msg1 gB smk msg2 log log' hgen hexact responder gA smk'
    obtain ⟨_, _, -, hgen⟩ := bind_eq_ok.mp hgen
    obtain ⟨_, _, -, hgen⟩ := bind_eq_ok.mp hgen
    obtain ⟨_, _, -, hgen⟩ := bind_eq_ok.mp hgen
    obtain ⟨rfl, -⟩ := pure_eq_ok.mp hgen
    exact not_accepts_v2 (kdfId_hashWithKdfId _) rfl hexact
  . rintro responder msg2 gA smk smk' hexact ⟨hv1, hv2⟩
    exact not_accepts_v2 hv1.kdfId hv1.mac_v1 hexact hv2

def markedReport : Report :=
  createReport zeroCrypto (zeroEnv fun _ => none) [] (hashWithKdfId (.replicate 32 0))

def markCrypto : Crypto :=
  { zeroCrypto with
    publicKey := fun b => .ofFn fun i => b.toList.getD i 0
    sharedDhkey := fun a gB => .ofFn fun i => a.toList.getD i 0 + gB.toList.getD i 0
    reportMac := fun target maced =>
      if target = [] ∧ maced = markedReport.maced then .replicate 16 1 else .replicate 16 0 }

theorem sharedDhkey_comm (a b : PrivateKey) :
    markCrypto.sharedDhkey a (markCrypto.publicKey b) = markCrypto.sharedDhkey b (markCrypto.publicKey a) := by
  have hget : ∀ (key : PrivateKey) (i : Fin 32), (markCrypto.publicKey key).toList.getD i 0 = key.toList.getD i 0 := by
    intro key i
    have hi : i.val < 64 := by omega
    simp [markCrypto, List.getD, hi]
  simp only [markCrypto] at hget ⊢
  simp only [hget, UInt8.add_comm]

def otherEnv : Env :=
  { zeroEnv fun _ => none with
    self := { zeroEnclave with mrEnclave := .replicate 32 1, isvSvn := .replicate 2 3 }
    prvKey := .replicate 32 5 }

theorem maced_createReport (crypto : Crypto) (env : Env) (target : List UInt8) (data : ReportData) :
    (createReport crypto env target data).maced = (Report.mk env.self data env.keyId (.replicate 16 0)).maced := rfl

theorem markCrypto_exact (r : Report) (h : r.maced = markedReport.maced) : markCrypto.Exact [] r := by
  intro target maced hmac
  by_cases hmarked : target = [] ∧ maced = markedReport.maced
  . exact ⟨hmarked.1, hmarked.2.trans h.symm⟩
  . simp only [markCrypto, h, and_self, if_true, if_neg hmarked] at hmac
    exact absurd hmac (by decide)

theorem attest_agrees_markCrypto :
    (∃ agreement, attest markCrypto (zeroEnv fun _ => none) otherEnv .v2 [7, 8, 9]
      (responderIdentity zeroEnclave) = .ok agreement ∧ agreement.initiatorState = .active ∧
      agreement.initiatorAek = agreement.responderAek ∧ agreement.initiatorIdentity.IsOf zeroEnclave ∧
      agreement.responderIdentity.IsOf otherEnv.self) ∧
    ∃ msg2 log, dhGenerateMessage2 markCrypto (zeroEnv fun _ => none) ⟨.replicate 64 0, []⟩ (.replicate 64 0)
        (.replicate 16 0) [] = .ok msg2 log ∧ markCrypto.Exact [] msg2.report ∧
      ¬ Accepts markCrypto (zeroEnv fun _ => none) msg2 (.replicate 64 0) (.replicate 16 0) .v2 := by
  obtain ⟨hrun, -, hv1, -⟩ := attest_agrees markCrypto sharedDhkey_comm
  obtain ⟨agreement, hok, hactive, -, hagree⟩ := hrun (zeroEnv fun _ => none) otherEnv .v2 [7, 8, 9]
    (responderIdentity zeroEnclave) (fun _ => rfl) (fun _ => rfl) (by decide)
  have hexact : markCrypto.Exact [] (message2 markCrypto (zeroEnv fun _ => none) [] (.replicate 64 0)
      (.replicate 64 0) (.replicate 16 0) .v1).report := markCrypto_exact _ (maced_createReport _ _ _ _)
  obtain ⟨log, hgen⟩ : ∃ log, dhGenerateMessage2 markCrypto (zeroEnv fun _ => none) ⟨.replicate 64 0, []⟩
      (.replicate 64 0) (.replicate 16 0) [] = .ok _ log :=
    yields_genMsg2 (fun _ => rfl) .v1 ⟨.replicate 64 0, []⟩ (.replicate 64 0) (.replicate 16 0) []
  exact ⟨⟨agreement, hok, hactive, hagree⟩, _, log, hgen, hexact, hv1 _ _ _ _ _ _ _ hgen hexact _ _ _⟩

end EcDh
