import SrasMage.EcDh.Session
import SrasMage.Hoare

/-!
This module contains rules for programs that call primitives, and which failures of a primitive make a step of
the attestation fail.
-/

namespace EcDh

open Hoare List

def entries (env : Env) (calls : List Call) : List (Call × Bool) := calls.map fun c => (c, (env.fails c).isNone)

def AllOk (env : Env) (calls : List Call) : Prop := ∀ c ∈ calls, env.fails c = none

theorem AllOk.append {env : Env} {cs cs' : List Call} (h : AllOk env cs) (h' : AllOk env cs') :
    AllOk env (cs ++ cs') := by
  intro c hc
  cases mem_append.1 hc with
  | inl hc => exact h c hc
  | inr hc => exact h' c hc

theorem map_fst_entries (env : Env) (cs : List Call) : (entries env cs).map Prod.fst = cs := by
  simp [entries, Function.comp_def]

theorem entries_append (env : Env) (cs cs' : List Call) : entries env (cs ++ cs') = entries env cs ++ entries env cs' :=
  map_append

section

variable {crypto : Crypto} {env : Env} {log log' : List (Call × Bool)} {c : Call}

theorem require_eq_ok {u : Unit} :
    require env c log = .ok u log' ↔ env.fails c = none ∧ log' = log ++ entries env [c] := by
  simp only [require, bind_eq_ok, entries, map_singleton]
  cases env.fails c with
  | none =>
    constructor
    . rintro ⟨_, _, hmodify, h⟩
      cases hmodify
      cases h
      exact ⟨rfl, rfl⟩
    . rintro ⟨-, rfl⟩
      exact ⟨(), _, rfl, rfl⟩
  | some e =>
    constructor
    . rintro ⟨_, _, hmodify, h⟩
      cases hmodify
      cases h
    . nofun

theorem ensure_eq_ok {ok : Bool} {e : SgxError} {u : Unit} : ensure ok e log = .ok u log' ↔ ok = true ∧ log' = log := by
  cases ok with
  | false => exact ⟨nofun, nofun⟩
  | true => exact pure_eq_ok.trans ⟨fun h => ⟨rfl, h.2.symm⟩, fun h => ⟨rfl, h.2.symm⟩⟩

variable {α : Type} {a : α} {x : M α}

theorem liftExcept_eq_ok {x : Except SgxError α} : liftExcept x log = .ok a log' ↔ x = .ok a ∧ log' = log := by
  cases x with
  | error e => exact ⟨nofun, nofun⟩
  | ok b =>
    refine pure_eq_ok.trans ⟨?_, ?_⟩
    . rintro ⟨rfl, rfl⟩
      exact ⟨rfl, rfl⟩
    rintro ⟨h, rfl⟩
    exact ⟨Except.ok.inj h, rfl⟩

def Makes (env : Env) (x : M α) (calls checked : List Call) : Prop :=
  ∀ log a log', x log = .ok a log' → log' = log ++ entries env calls ∧ AllOk env checked

theorem Makes.require : Makes env (require env c) [c] [c] := by
  intro log _ log' h
  obtain ⟨hnone, rfl⟩ := require_eq_ok.1 h
  exact ⟨rfl, fun _ hc => mem_singleton.1 hc ▸ hnone⟩

theorem Makes.ensure (ok : Bool) (e : SgxError) : Makes env (ensure ok e) [] [] := by
  intro log _ log' h
  obtain ⟨-, rfl⟩ := ensure_eq_ok.1 h
  exact ⟨(append_nil _).symm, nofun⟩

theorem Makes.liftExcept (x : Except SgxError α) : Makes env (liftExcept x) [] [] := by
  intro log _ log' h
  obtain ⟨-, rfl⟩ := liftExcept_eq_ok.1 h
  exact ⟨(append_nil _).symm, nofun⟩

theorem Makes.pure (a : α) : Makes env (Pure.pure a) [] [] := by
  intro log _ log' h
  obtain ⟨-, rfl⟩ := pure_eq_ok.1 h
  exact ⟨(append_nil _).symm, nofun⟩

theorem Makes.orJunk (value junk : α) : Makes env (orJunk env c value junk) [c] [] := by
  intro log _ log' h
  cases h
  exact ⟨rfl, nofun⟩

theorem Makes.attempt : Makes env (attempt env c) [c] [] := by
  intro log _ log' h
  cases h
  exact ⟨rfl, nofun⟩

theorem Makes.bind {β : Type} {f : α → M β} {calls checked calls' checked' : List Call}
    (hx : Makes env x calls checked) (hf : ∀ a, Makes env (f a) calls' checked') :
    Makes env (x >>= f) (calls ++ calls') (checked ++ checked') := by
  intro log b log'' h
  obtain ⟨a, log', hax, hbf⟩ := bind_eq_ok.1 h
  obtain ⟨rfl, hok⟩ := hx _ _ _ hax
  obtain ⟨rfl, hok'⟩ := hf a _ _ _ hbf
  exact ⟨by rw [append_assoc, entries_append], hok.append hok'⟩

theorem Makes.cast {calls checked calls' checked' : List Call} (h : Makes env x calls checked)
    (hcalls : calls = calls') (hchecked : checked = checked') : Makes env x calls' checked' := by
  rw [← hcalls, ← hchecked]
  exact h

def Yields (x : M α) (a : α) : Prop := ∀ log, ∃ log', x log = .ok a log'

theorem Yields.require (h : env.fails c = none) : Yields (require env c) () :=
  fun _ => ⟨_, require_eq_ok.2 ⟨h, rfl⟩⟩

theorem Yields.ensure {ok : Bool} (e : SgxError) (h : ok = true) : Yields (ensure ok e) () :=
  fun _ => ⟨_, ensure_eq_ok.2 ⟨h, rfl⟩⟩

theorem Yields.liftExcept {x : Except SgxError α} (h : x = .ok a) : Yields (liftExcept x) a :=
  fun _ => ⟨_, liftExcept_eq_ok.2 ⟨h, rfl⟩⟩

theorem Yields.pure (a : α) : Yields (Pure.pure a) a := fun log => ⟨log, rfl⟩

theorem Yields.orJunk (value junk : α) :
    Yields (orJunk env c value junk) (if (env.fails c).isNone then value else junk) :=
  fun _ => ⟨_, rfl⟩

theorem Yields.attempt : Yields (attempt env c) (env.fails c).isNone := fun _ => ⟨_, rfl⟩

theorem Yields.attemptCheck (ok : Bool) : Yields (attemptCheck env c ok) ((env.fails c).isNone && ok) :=
  fun _ => ⟨_, rfl⟩

theorem Yields.bind {β : Type} {f : α → M β} {b : β} (hx : Yields x a) (hf : Yields (f a) b) : Yields (x >>= f) b := by
  intro log
  obtain ⟨log', hx⟩ := hx log
  obtain ⟨log'', hf⟩ := hf log'
  exact ⟨log'', bind_eq_ok.2 ⟨a, log', hx, hf⟩⟩

end

section

variable {crypto : Crypto} {env : Env} {log log' : List (Call × Bool)} {c : Call}

def callsMsg2 (version : Version) : List Call :=
  [.generate version .sha256, .generate version .createReport, .generate version .cmacMsg]

def callsMsg3 : Version → List Call
  | .v1 => [.generate .v1 .sha256, .generate .v1 .createReport, .generate .v1 .cmacMsg]
  | .v2 => [.generate .v2 .sha256, .generate .v2 .createReport, .generate .v2 .cmacInit,
      .generate .v2 .cmacUpdateProp, .generate .v2 .cmacUpdateKey, .generate .v2 .cmacFinal, .generate .v2 .cmacClose]

def callsVerifyMsg2 : Version → List Call
  | .v1 => [.verify .v1 .cmacMsg, .verify .v1 .verifyReport, .verify .v1 .sha256]
  | .v2 => [.verify .v2 .sha256, .verify .v2 .verifyReport, .verify .v2 .cmacMsg]

def callsVerifyMsg3 : Version → List Call
  | .v1 => [.verify .v1 .cmacMsg, .verify .v1 .verifyReport, .verify .v1 .sha256]
  | .v2 => [.verify .v2 .sha256, .verify .v2 .verifyReport, .verify .v2 .cmacInit, .verify .v2 .cmacUpdateProp,
      .verify .v2 .cmacUpdateKey, .verify .v2 .cmacFinal, .verify .v2 .cmacClose]

theorem makes_verifyCmac128 (key : Key) (data : List UInt8) (mac : Tag) :
    Makes env (verifyCmac128 crypto env c key data mac) [c] [c] :=
  Makes.require.bind fun _ => .ensure _ _

theorem makes_requireReport (r : Report) : Makes env (requireReport crypto env c r) [c] [c] :=
  Makes.require.bind fun _ => .ensure _ _

theorem makes_dhGenerateMessage2 (msg1 : Msg1) (gB : PublicKey) (smk : Key) :
    Makes env (dhGenerateMessage2 crypto env msg1 gB smk) (callsMsg2 .v1) (callsMsg2 .v1) :=
  Makes.require.bind fun _ => Makes.require.bind fun _ => Makes.require.bind fun _ => .pure _

theorem makes_generateMessage2LAv2 (msg1 : Msg1) (gB : PublicKey) (smk : Key) :
    Makes env (generateMessage2LAv2 crypto env msg1 gB smk) (callsMsg2 .v2) [.generate .v2 .cmacMsg] :=
  (Makes.orJunk _ _).bind fun _ => (Makes.orJunk _ _).bind fun _ => Makes.require.bind fun _ => .pure _

theorem makes_dhVerifyMessage2 (msg2 : Msg2) (gA : PublicKey) (smk : Key) :
    Makes env (dhVerifyMessage2 crypto env msg2 gA smk) (callsVerifyMsg2 .v1) (callsVerifyMsg2 .v1) :=
  (Makes.ensure _ _).bind fun _ => (makes_verifyCmac128 _ _ _).bind fun _ => (makes_requireReport _).bind fun _ =>
    Makes.require.bind fun _ => .ensure _ _

theorem makes_dhGenerateMessage3 (msg2 : Msg2) (gA : PublicKey) (smk : Key) (prop : List UInt8) :
    Makes env (dhGenerateMessage3 crypto env msg2 gA smk prop) (callsMsg3 .v1) (callsMsg3 .v1) :=
  Makes.require.bind fun _ => (Makes.liftExcept _).bind fun _ => Makes.require.bind fun _ =>
    Makes.require.bind fun _ => .pure _

theorem makes_dhVerifyMessage3 (msg3 : Msg3) (gA gB : PublicKey) (smk : Key) :
    Makes env (dhVerifyMessage3 crypto env msg3 gA gB smk) (callsVerifyMsg3 .v1) (callsVerifyMsg3 .v1) :=
  (makes_verifyCmac128 _ _ _).bind fun _ => (makes_requireReport _).bind fun _ =>
    Makes.require.bind fun _ => .ensure _ _

theorem makes_cmac128 (site : Primitive → Call) (smk : Key) (prop : List UInt8) (a : PublicKey) :
    Makes env (cmac128 crypto env site smk prop a)
      [site .cmacUpdateProp, site .cmacUpdateKey, site .cmacFinal, site .cmacClose] [] :=
  (Makes.orJunk _ _).bind fun _ => (Makes.orJunk _ _).bind fun _ => (Makes.orJunk _ _).bind fun _ =>
    Makes.attempt.bind fun _ => .pure _

theorem makes_generateMessage3LAv2 (msg2 : Msg2) (a : PublicKey) (smk : Key) (prop : List UInt8) :
    Makes env (generateMessage3LAv2 crypto env msg2 a smk prop) (callsMsg3 .v2) [.generate .v2 .cmacInit] :=
  (Makes.liftExcept _).bind fun _ => (Makes.orJunk _ _).bind fun _ => (Makes.orJunk _ _).bind fun _ =>
    Makes.require.bind fun _ => (makes_cmac128 _ _ _ _).bind fun _ => .pure _

variable {calls : List Call}

theorem Makes.ensured {α : Type} {x : M Bool} (e : SgxError) {rest : M α} {checked : List Call}
    (hx : ∀ log b log', x log = .ok b log' → log' = log ++ entries env [c] ∧ (b = true → env.fails c = none))
    (h : Makes env rest calls checked) :
    Makes env (do let ok ← x; EcDh.ensure ok e; rest) (c :: calls) (c :: checked) := by
  intro log a log'' hok
  obtain ⟨b, log', hb, hrest⟩ := bind_eq_ok.1 hok
  obtain ⟨rfl, hnone⟩ := hx _ _ _ hb
  obtain ⟨_, _, hensure, hrest⟩ := bind_eq_ok.1 hrest
  obtain ⟨htrue, rfl⟩ := ensure_eq_ok.1 hensure
  obtain ⟨rfl, hchecked⟩ := h _ _ _ hrest
  refine ⟨by rw [append_assoc, ← entries_append]; rfl, ?_⟩
  intro c' hc'
  cases hc' with
  | head => exact hnone htrue
  | tail _ hc' => exact hchecked c' hc'

theorem attempt_ensured (log : List (Call × Bool)) (b : Bool) (log' : List (Call × Bool))
    (h : attempt env c log = .ok b log') : log' = log ++ entries env [c] ∧ (b = true → env.fails c = none) := by
  cases h
  exact ⟨rfl, Option.isNone_iff_eq_none.1⟩

theorem attemptCheck_ensured (ok : Bool) (log : List (Call × Bool)) (b : Bool) (log' : List (Call × Bool))
    (h : attemptCheck env c ok log = .ok b log') :
    log' = log ++ entries env [c] ∧ (b = true → env.fails c = none) := by
  cases h
  exact ⟨rfl, fun hb => Option.isNone_iff_eq_none.1 (Bool.and_eq_true_iff.1 hb).1⟩

theorem makes_verifyMessage3LAv2 (msg3 : Msg3) (a : PublicKey) (smk : Key) :
    Makes env (verifyMessage3LAv2 crypto env msg3 a smk) (callsVerifyMsg3 .v2)
      [.verify .v2 .verifyReport, .verify .v2 .cmacInit] :=
  (Makes.orJunk _ _).bind fun _ => (Makes.ensure _ _).bind fun _ =>
    Makes.ensured _ (attemptCheck_ensured _) <| Makes.ensured _ attempt_ensured <|
      (makes_cmac128 _ _ _ _).bind fun _ => .ensure _ _

theorem verifyMessage2LAv2_eq_true {msg2 : Msg2} {smk : Key}
    (h : verifyMessage2LAv2 crypto env msg2 smk log = .ok true log') :
    log' = log ++ entries env (callsVerifyMsg2 .v2) ∧ AllOk env [.verify .v2 .verifyReport, .verify .v2 .cmacMsg] := by
  obtain ⟨hash, _, hhash, h⟩ := bind_eq_ok.1 h
  cases hhash
  obtain ⟨reportOk, _, hreport, h⟩ := bind_eq_ok.1 h
  obtain ⟨rfl, hreportOk⟩ := attemptCheck_ensured _ _ _ _ hreport
  cases reportOk with
  | false => cases h
  | true =>
    obtain ⟨cmacOk, _, hcmac, h⟩ := bind_eq_ok.1 h
    obtain ⟨rfl, hcmacOk⟩ := attemptCheck_ensured _ _ _ _ hcmac
    obtain ⟨hand, rfl⟩ := pure_eq_ok.1 h
    refine ⟨by simp [entries, callsVerifyMsg2], ?_⟩
    intro c hc
    rcases mem_pair.1 hc with rfl | rfl
    . exact hreportOk rfl
    . exact hcmacOk (Bool.and_eq_true_iff.1 hand).1

def Within {α : Type} (env : Env) (x : M α) (calls : List Call) : Prop :=
  let Extends (log log' : List (Call × Bool)) := ∃ part, log' = log ++ entries env part ∧ ∀ c ∈ part, c ∈ calls
  ∀ log, Runs x log (fun _ => Extends log) fun _ => Extends log

theorem Within.require (h : c ∈ calls) : Within env (require env c) calls := by
  intro log
  apply Runs.bind
  apply Runs.modify
  have hsingle : ∃ part, log ++ [(c, (env.fails c).isNone)] = log ++ entries env part ∧ ∀ c ∈ part, c ∈ calls :=
    ⟨[c], rfl, fun _ hc => mem_singleton.1 hc ▸ h⟩
  split
  . exact hsingle
  . exact hsingle

theorem Within.ensure (ok : Bool) (e : SgxError) : Within env (ensure ok e) calls := by
  intro log
  cases ok with
  | false => exact ⟨[], (append_nil _).symm, nofun⟩
  | true => exact ⟨[], (append_nil _).symm, nofun⟩

theorem Within.bind {α β : Type} {x : M α} {f : α → M β} (hx : Within env x calls)
    (hf : ∀ a, Within env (f a) calls) : Within env (x >>= f) calls := by
  have happend : ∀ {part part' : List Call}, (∀ c ∈ part, c ∈ calls) → (∀ c ∈ part', c ∈ calls) →
      ∀ c ∈ part ++ part', c ∈ calls := by
    intro part part' h h' c hc
    exact (mem_append.mp hc).elim (h c) (h' c)
  intro log
  apply Runs.bind
  refine (hx log).mono ?_ fun _ _ => id
  rintro a _ ⟨part, rfl, hpart⟩
  refine (hf a _).mono ?_ ?_
  all_goals
    rintro _ _ ⟨part', rfl, hpart'⟩
    exact ⟨part ++ part', by rw [entries_append, append_assoc], happend hpart hpart'⟩

theorem within_dhVerifyMessage2 (msg2 : Msg2) (gA : PublicKey) (smk : Key) :
    Within env (dhVerifyMessage2 crypto env msg2 gA smk) (callsVerifyMsg2 .v1) := by
  refine (Within.ensure _ _).bind fun _ => Within.bind (.bind (.require ?_) fun _ => .ensure _ _) fun _ =>
    Within.bind (.bind (.require ?_) fun _ => .ensure _ _) fun _ => (Within.require ?_).bind fun _ => .ensure _ _
  all_goals simp [callsVerifyMsg2]

theorem checkMsg2_eq_ok {msg2 : Msg2} {gA : PublicKey} {smk : Key} {version : Version}
    (h : checkMsg2 crypto env msg2 gA smk log = .ok version log') :
    match version with
    | .v1 => log' = log ++ entries env (callsVerifyMsg2 .v1) ∧ AllOk env (callsVerifyMsg2 .v1)
    | .v2 => ∃ part, (∀ c ∈ part, c ∈ callsVerifyMsg2 .v1) ∧
        log' = log ++ entries env (part ++ callsVerifyMsg2 .v2) ∧
        AllOk env [.verify .v2 .verifyReport, .verify .v2 .cmacMsg] := by
  cases hverify : dhVerifyMessage2 crypto env msg2 gA smk log with
  | ok u log1 =>
    have hfirst : (do dhVerifyMessage2 crypto env msg2 gA smk; return Version.v1 : M Version) log = .ok .v1 log1 :=
      bind_of_ok hverify
    cases (tryCatch_of_ok hfirst).symm.trans h
    exact makes_dhVerifyMessage2 _ _ _ _ _ _ hverify
  | error e log1 =>
    obtain ⟨part, rfl, hpart⟩ := (within_dhVerifyMessage2 msg2 gA smk log).error hverify
    have hfirst : (do dhVerifyMessage2 crypto env msg2 gA smk; return Version.v1 : M Version) log
        = .error e (log ++ entries env part) := bind_of_error hverify
    replace h := (tryCatch_of_error hfirst).symm.trans h
    obtain ⟨isLAv2, log2, hv2, h⟩ := bind_eq_ok.1 h
    cases isLAv2 with
    | false => cases h
    | true =>
      cases h
      obtain ⟨rfl, hok⟩ := verifyMessage2LAv2_eq_true hv2
      exact ⟨part, hpart, by rw [append_assoc, entries_append], hok⟩

end

inductive Api where
  | initiatorProcMsg1 (version : Version)
  | responderProcMsg2
  | initiatorProcMsg3 (version : Version)
deriving DecidableEq

structure Input where
  sessionOk : Bool
  argsOk : Bool
  session : Session
  msg1 : Msg1
  msg2 : Msg2
  msg3 : Msg3
  additionalProp : List UInt8
  buffer : EnclaveIdentity

def Api.run (crypto : Crypto) (env : Env) (i : Input) : Api → Bool × List (Call × Bool)
  | initiatorProcMsg1 version =>
    let o := dhInitiatorProcMsg1 crypto env version i.sessionOk i.argsOk i.msg1 i.session
    (o.result.isOk, o.log)
  | responderProcMsg2 =>
    let o := sgxDhResponderProcMsg2 crypto env i.sessionOk i.argsOk i.msg2 i.additionalProp i.buffer i.session
    (o.result.isOk, o.log)
  | initiatorProcMsg3 version =>
    let o := dhInitiatorProcMsg3 crypto env version i.sessionOk i.argsOk i.msg3 i.session
    (o.result.isOk, o.log)

def Call.isVerifyLAv2 : Call → Bool
  | .verify .v2 _ => true
  | _ => false

def contributes (calls : List Call) : Call → Bool
  | .closeContext => false
  | .generate _ .cmacClose => false
  | .verify _ .cmacClose => false
  | .verify .v1 _ => !calls.any Call.isVerifyLAv2
  | _ => true

def FailsClosed (crypto : Crypto) (env : Env) (i : Input) (api : Api) : Prop :=
  (api.run crypto env i).1 = true →
    ∀ e ∈ (api.run crypto env i).2, contributes ((api.run crypto env i).2.map Prod.fst) e.1 = true → e.2 = true

def Api.ignored : Api → List Call
  | initiatorProcMsg1 .v2 => [.generate .v2 .sha256, .generate .v2 .createReport]
  | responderProcMsg2 =>
    [.verify .v2 .sha256, .generate .v2 .sha256, .generate .v2 .createReport, .generate .v2 .cmacUpdateProp,
      .generate .v2 .cmacUpdateKey, .generate .v2 .cmacFinal]
  | initiatorProcMsg3 .v2 =>
    [.verify .v2 .sha256, .verify .v2 .cmacUpdateProp, .verify .v2 .cmacUpdateKey, .verify .v2 .cmacFinal]
  | _ => []

def Api.checked : Api → List Call
  | initiatorProcMsg1 version =>
    [.openContext, .createKeyPair, .computeSharedDhkey, .deriveSmk, .generate version .cmacMsg, .closeContext]
  | responderProcMsg2 =>
    [.openContext, .computeSharedDhkey, .deriveSmk, .verify .v2 .verifyReport, .verify .v2 .cmacMsg,
      .generate .v2 .cmacInit, .deriveAek, .closeContext]
  | initiatorProcMsg3 _ => [.verify .v2 .verifyReport, .verify .v2 .cmacInit, .deriveAek]

section

variable {crypto : Crypto} {env : Env} {i : Input}

theorem failsClosed_of_entries {api : Api}
    (h : (api.run crypto env i).1 = true → ∃ calls, (api.run crypto env i).2 = entries env calls ∧
      ∀ c ∈ calls, contributes calls c = true → env.fails c = none) :
    FailsClosed crypto env i api := by
  intro hok e he hcontributes
  obtain ⟨calls, hlog, hcalls⟩ := h hok
  rw [hlog] at he hcontributes
  rw [map_fst_entries] at hcontributes
  obtain ⟨c, hc, rfl⟩ := mem_map.1 he
  exact Option.isNone_iff_eq_none.2 (hcalls c hc hcontributes)

theorem closing_isOk {α : Type} {convert : SgxError → SgxError} {body : M (α × Session)}
    (h : (closing env convert body).result.isOk = true) :
    ∃ r log, body [] = .ok r log ∧ env.fails .closeContext = none ∧
      (closing env convert body).log = log ++ entries env [.closeContext] := by
  unfold closing at *
  split at h
  . cases h
  next hbody =>
  split at h
  . next hclose =>
    refine ⟨_, _, hbody, Option.isNone_iff_eq_none.1 hclose, ?_⟩
    rw [if_pos hclose]
    rfl
  . cases h

def callsBefore2 : List Call := [.openContext, .createKeyPair, .computeSharedDhkey, .deriveSmk]

variable {version : Version}

theorem makes_initiatorBody1 {checked : List Call} {msg1 : Msg1} {session : Session}
    (h : ∀ gB smk, Makes env (genMsg2 crypto env version msg1 gB smk) (callsMsg2 version) checked) :
    Makes env (initiatorBody1 crypto env version msg1 session) (callsBefore2 ++ callsMsg2 version)
      (callsBefore2 ++ checked) := by
  refine Makes.cast (Makes.require.bind fun _ => Makes.require.bind fun _ => Makes.require.bind fun _ =>
    Makes.require.bind fun _ => (h _ _).bind fun _ => .pure _) ?_ ?_
  . rw [append_nil]
    rfl
  . rw [append_nil]
    rfl

theorem makes_initiatorBody3 {calls checked : List Call} {msg3 : Msg3} {session : Session}
    (h : Makes env (verMsg3 crypto env version msg3 session.peerPubKey session.pubKey session.smk) calls checked) :
    Makes env (initiatorBody3 crypto env version msg3 session) (calls ++ [.deriveAek]) (checked ++ [.deriveAek]) :=
  h.bind fun _ => Makes.require.bind fun _ => .pure _

theorem dhInitiatorProcMsg1_isOk (h : (Api.run crypto env i (.initiatorProcMsg1 version)).1 = true) :
    ∃ r log, initiatorBody1 crypto env version i.msg1 i.session [] = .ok r log ∧ env.fails .closeContext = none ∧
      (Api.run crypto env i (.initiatorProcMsg1 version)).2 = log ++ entries env [.closeContext] := by
  simp only [Api.run, dhInitiatorProcMsg1] at h ⊢
  split at h
  . cases h
  next hsession =>
  split at h
  . cases h
  next hargs =>
  split at h
  . cases h
  next hstate =>
  rw [if_neg hsession, if_neg hargs, if_neg hstate]
  exact closing_isOk h

theorem sgxDhResponderProcMsg2_isOk (h : (Api.run crypto env i .responderProcMsg2).1 = true) :
    ∃ r log, responderBody2 crypto env i.msg2 i.additionalProp i.buffer i.session [] = .ok r log ∧
      env.fails .closeContext = none ∧
      (Api.run crypto env i .responderProcMsg2).2 = log ++ entries env [.closeContext] := by
  simp only [Api.run, sgxDhResponderProcMsg2] at h ⊢
  split at h
  . cases h
  next hsession =>
  split at h
  . cases h
  next hargs =>
  split at h
  . cases h
  next hstate =>
  rw [if_neg hsession, if_neg hargs, if_neg hstate]
  exact closing_isOk h

theorem dhInitiatorProcMsg3_isOk (h : (Api.run crypto env i (.initiatorProcMsg3 version)).1 = true) :
    ∃ r, initiatorBody3 crypto env version i.msg3 i.session []
      = .ok r (Api.run crypto env i (.initiatorProcMsg3 version)).2 := by
  simp only [Api.run, dhInitiatorProcMsg3] at h ⊢
  split at h
  . cases h
  next hsession =>
  split at h
  . cases h
  next hargs =>
  split at h
  . cases h
  next hstate =>
  rw [if_neg hsession, if_neg hargs, if_neg hstate]
  split at h
  . cases h
  . next r log hbody => exact ⟨r, hbody⟩

theorem none_of_checked {calls checked ignored : List Call} (hchecked : AllOk env checked)
    (hignored : AllOk env ignored)
    (hcover : ∀ c ∈ calls, c ∈ checked ∨ c ∈ ignored ∨ contributes calls c = false) :
    ∀ c ∈ calls, contributes calls c = true → env.fails c = none := by
  intro c hc hcontributes
  obtain h | h | h := hcover c hc
  . exact hchecked c h
  . exact hignored c h
  . rw [h] at hcontributes
    cases hcontributes

theorem failsClosed_initiatorProcMsg1 (version : Version)
    (h : AllOk env (Api.checked (.initiatorProcMsg1 version)) → AllOk env (Api.ignored (.initiatorProcMsg1 version))) :
    FailsClosed crypto env i (.initiatorProcMsg1 version) := by
  apply failsClosed_of_entries
  intro hok
  obtain ⟨r, log, hbody, hclose, hlog⟩ := dhInitiatorProcMsg1_isOk hok
  have hcloseOk : AllOk env [.closeContext] := fun _ hc => mem_singleton.1 hc ▸ hclose
  cases version with
  | v1 =>
    obtain ⟨rfl, hall⟩ := makes_initiatorBody1 (fun _ _ => makes_dhGenerateMessage2 _ _ _) _ _ _ hbody
    refine ⟨_, hlog.trans (entries_append _ _ _).symm, ?_⟩
    exact fun c hc _ => hall.append hcloseOk c hc
  | v2 =>
    obtain ⟨rfl, hall⟩ := makes_initiatorBody1 (fun _ _ => makes_generateMessage2LAv2 _ _ _) _ _ _ hbody
    refine ⟨_, hlog.trans (entries_append _ _ _).symm, none_of_checked (hall.append hcloseOk)
      (h (hall.append hcloseOk)) ?_⟩
    decide

theorem failsClosed_initiatorProcMsg3 (version : Version)
    (h : AllOk env (Api.checked (.initiatorProcMsg3 version)) → AllOk env (Api.ignored (.initiatorProcMsg3 version))) :
    FailsClosed crypto env i (.initiatorProcMsg3 version) := by
  apply failsClosed_of_entries
  intro hok
  obtain ⟨r, hbody⟩ := dhInitiatorProcMsg3_isOk hok
  cases version with
  | v1 =>
    obtain ⟨hlog, hall⟩ := makes_initiatorBody3 (makes_dhVerifyMessage3 _ _ _ _) _ _ _ hbody
    exact ⟨_, hlog, fun c hc _ => hall c hc⟩
  | v2 =>
    obtain ⟨hlog, hall⟩ := makes_initiatorBody3 (makes_verifyMessage3LAv2 _ _ _) _ _ _ hbody
    exact ⟨_, hlog, none_of_checked hall (h hall) (by decide)⟩

theorem mem_callsVerifyMsg2_v1 {c : Call} (h : c ∈ callsVerifyMsg2 .v1) : ∃ p, c = .verify .v1 p := by
  simp only [callsVerifyMsg2, mem_cons, not_mem_nil, or_false] at h
  rcases h with rfl | rfl | rfl <;> exact ⟨_, rfl⟩

theorem responderBody2_eq_ok {session : Session} {msg2 : Msg2} {prop : List UInt8} {buffer : EnclaveIdentity}
    {r : Established × Session} {log : List (Call × Bool)}
    (h : responderBody2 crypto env msg2 prop buffer session [] = .ok r log) :
    ∃ version log1 log2 msg3, AllOk env [.openContext, .computeSharedDhkey, .deriveSmk, .deriveAek] ∧
      checkMsg2 crypto env msg2 session.pubKey (deriveKey crypto (crypto.sharedDhkey session.prvKey msg2.gB) labelSmk)
        (entries env [.openContext, .computeSharedDhkey, .deriveSmk]) = .ok version log1 ∧
      genMsg3 crypto env version msg2 session.pubKey
        (deriveKey crypto (crypto.sharedDhkey session.prvKey msg2.gB) labelSmk) prop log1 = .ok msg3 log2 ∧
      log = log2 ++ entries env [.deriveAek] := by
  obtain ⟨_, _, hopen, h⟩ := bind_eq_ok.1 h
  obtain ⟨hopenOk, rfl⟩ := require_eq_ok.1 hopen
  obtain ⟨_, _, hshared, h⟩ := bind_eq_ok.1 h
  obtain ⟨hsharedOk, rfl⟩ := require_eq_ok.1 hshared
  obtain ⟨_, _, hsmk, h⟩ := bind_eq_ok.1 h
  obtain ⟨hsmkOk, rfl⟩ := require_eq_ok.1 hsmk
  obtain ⟨version, log1, hcheck, h⟩ := bind_eq_ok.1 h
  obtain ⟨msg3, log2, hgen, h⟩ := bind_eq_ok.1 h
  obtain ⟨_, _, haek, h⟩ := bind_eq_ok.1 h
  obtain ⟨haekOk, rfl⟩ := require_eq_ok.1 haek
  obtain ⟨-, rfl⟩ := pure_eq_ok.1 h
  refine ⟨version, log1, log2, msg3, ?_, hcheck, hgen, rfl⟩
  intro c hc
  simp only [mem_cons, not_mem_nil, or_false] at hc
  rcases hc with rfl | rfl | rfl | rfl
  . exact hopenOk
  . exact hsharedOk
  . exact hsmkOk
  . exact haekOk

theorem failsClosed_responderProcMsg2
    (h : AllOk env (Api.checked .responderProcMsg2) → AllOk env (Api.ignored .responderProcMsg2)) :
    FailsClosed crypto env i .responderProcMsg2 := by
  apply failsClosed_of_entries
  intro hok
  obtain ⟨r, log, hbody, hclose, hlog⟩ := sgxDhResponderProcMsg2_isOk hok
  obtain ⟨version, log1, log2, msg3, hall, hcheck, hgen, rfl⟩ := responderBody2_eq_ok hbody
  have hchecked := checkMsg2_eq_ok hcheck
  cases version with
  | v1 =>
    obtain ⟨rfl, hverify⟩ := hchecked
    obtain ⟨rfl, hgenerate⟩ := makes_dhGenerateMessage3 _ _ _ _ _ _ _ hgen
    rw [← entries_append, ← entries_append, ← entries_append, ← entries_append] at hlog
    refine ⟨_, hlog, ?_⟩
    intro c hc _
    simp only [mem_append, mem_singleton] at hc
    rcases hc with (((hc | hc) | hc) | rfl) | rfl
    . exact hall c (mem_append_left [Call.deriveAek] hc)
    . exact hverify c hc
    . exact hgenerate c hc
    . exact hall _ (by simp)
    . exact hclose
  | v2 =>
    obtain ⟨part, hpart, rfl, hverify⟩ := hchecked
    obtain ⟨rfl, hgenerate⟩ := makes_generateMessage3LAv2 _ _ _ _ _ _ _ hgen
    rw [← entries_append, ← entries_append, ← entries_append, ← entries_append] at hlog
    have hcheckedOk : AllOk env (Api.checked .responderProcMsg2) := by
      intro c hc
      simp only [Api.checked, mem_cons, not_mem_nil, or_false] at hc
      rcases hc with rfl | rfl | rfl | rfl | rfl | rfl | rfl | rfl
      . exact hall _ (by simp)
      . exact hall _ (by simp)
      . exact hall _ (by simp)
      . exact hverify _ (by simp)
      . exact hverify _ (by simp)
      . exact hgenerate _ (by simp)
      . exact hall _ (by simp)
      . exact hclose
    have hcover : ∀ c ∈ [.openContext, .computeSharedDhkey, .deriveSmk] ++ (callsVerifyMsg2 .v2 ++ (callsMsg3 .v2 ++
        [.deriveAek, .closeContext])), c ∈ Api.checked .responderProcMsg2 ∨ c ∈ Api.ignored .responderProcMsg2 ∨
          c = .generate .v2 .cmacClose := by decide
    refine ⟨_, hlog, none_of_checked hcheckedOk (h hcheckedOk) ?_⟩
    intro c hc
    by_cases hmem : c ∈ part
    . -- the calls of the check that has been given up
      obtain ⟨p, rfl⟩ := mem_callsVerifyMsg2_v1 (hpart c hmem)
      refine .inr (.inr ?_)
      cases p <;> simp [contributes, callsVerifyMsg2, Call.isVerifyLAv2]
    obtain hc | hc | rfl := hcover c (by
      simp only [mem_append, mem_cons, not_mem_nil, or_false, hmem, false_or] at hc ⊢
      tauto)
    . exact .inl hc
    . exact .inr (.inl hc)
    . exact .inr (.inr rfl)

theorem kdfId_protoSpecLAv2 : kdfId protoSpecLAv2 ≠ aesCmacKdfId.toList := by decide

theorem yields_generateMessage2LAv2 (crypto : Crypto) (msg1 : Msg1) (gB : PublicKey) (smk : Key)
    (hcmac : env.fails (.generate .v2 .cmacMsg) = none) :
    ∃ msg2, Yields (generateMessage2LAv2 crypto env msg1 gB smk) msg2 :=
  ⟨_, (Yields.orJunk _ _).bind <| (Yields.orJunk _ _).bind <| (Yields.require hcmac).bind <| .pure _⟩

theorem yields_verifyMessage2LAv2 {msg2 : Msg2} {smk : Key} {hash : Hash}
    (hhash : hash = if (env.fails (.verify .v2 .sha256)).isNone then
      crypto.sha256 (msg2.report.reportData.toList ++ msg2.gB.toList) else env.junkHash (.verify .v2 .sha256))
    (hverify : env.fails (.verify .v2 .verifyReport) = none) (hmac : env.fails (.verify .v2 .cmacMsg) = none)
    (hreport : verifyReport crypto env { msg2.report with reportData := padHash hash } = true)
    (hcmac : msg2.cmac = crypto.cmac smk msg2.gB.toList)
    (hspec : msg2.report.reportData.toList.take 7 = protoSpecLAv2.toList.take 7) :
    Yields (verifyMessage2LAv2 crypto env msg2 smk) true := by
  refine (Yields.orJunk _ _).bind ?_
  rw [← hhash]
  refine (Yields.attemptCheck _).bind ?_
  rw [hverify, hreport]
  refine (Yields.attemptCheck _).bind ?_
  rw [hmac, hcmac, hspec]
  simpa using Yields.pure true

theorem yields_checkMsg2_v2 {msg2 : Msg2} {gA : PublicKey} {smk : Key}
    (hkdf : kdfId msg2.report.reportData ≠ aesCmacKdfId.toList)
    (h : Yields (verifyMessage2LAv2 crypto env msg2 smk) true) : Yields (checkMsg2 crypto env msg2 gA smk) .v2 := by
  intro log
  have hverify : dhVerifyMessage2 crypto env msg2 gA smk log = .error .kdfMismatch log := by
    apply bind_of_error
    rw [decide_eq_false hkdf]
    rfl
  have hfirst : (do dhVerifyMessage2 crypto env msg2 gA smk; return Version.v1 : M Version) log
      = .error .kdfMismatch log := bind_of_error hverify
  obtain ⟨log', htrue⟩ := h log
  exact ⟨log', (tryCatch_of_error hfirst).trans (bind_of_ok htrue)⟩

theorem yields_cmac128 (crypto : Crypto) (env : Env) (site : Primitive → Call) (smk : Key) (prop : List UInt8)
    (a : PublicKey) : ∃ tag, Yields (cmac128 crypto env site smk prop a) tag :=
  ⟨_, (Yields.orJunk _ _).bind <| (Yields.orJunk _ _).bind <| (Yields.orJunk _ _).bind <|
    Yields.attempt.bind <| .pure _⟩

theorem yields_generateMessage3LAv2 (crypto : Crypto) (msg2 : Msg2) (a : PublicKey) (smk : Key) (prop : List UInt8)
    (hspec : msg2.report.reportData = protoSpecLAv2) (hinit : env.fails (.generate .v2 .cmacInit) = none) :
    ∃ msg3, Yields (generateMessage3LAv2 crypto env msg2 a smk prop) msg3 := by
  have htarget : makeTargetInfo msg2.report.reportData msg2.report = .ok msg2.report.enclave.targetInfo := by
    rw [hspec]
    exact makeTargetInfo_protoSpecLAv2 msg2.report
  obtain ⟨tag, htag⟩ := yields_cmac128 crypto env (.generate .v2) smk prop a
  exact ⟨_, (Yields.liftExcept htarget).bind <| (Yields.orJunk _ _).bind <| (Yields.orJunk _ _).bind <|
    (Yields.require hinit).bind <| htag.bind <| .pure _⟩

theorem closing_of_ok {α : Type} (convert : SgxError → SgxError) {body : M (α × Session)} {r : α × Session}
    {log : List (Call × Bool)} (h : body [] = .ok r log) (hclose : env.fails .closeContext = none) :
    (closing env convert body).result.isOk = true ∧
      (closing env convert body).log = log ++ entries env [.closeContext] := by
  have hsome : (closing env convert body).result.isOk = true := by
    unfold closing
    rw [h, hclose]
    rfl
  obtain ⟨r', log', hbody, -, hlog⟩ := closing_isOk hsome
  cases h.symm.trans hbody
  exact ⟨hsome, hlog⟩

def selfReport (crypto : Crypto) (env : Env) (reportData checkedData : ReportData) : Report :=
  { createReport crypto env env.self.targetInfo checkedData with reportData }

theorem verifyReport_selfReport (reportData checkedData : ReportData) :
    verifyReport crypto env { selfReport crypto env reportData checkedData with reportData := checkedData } = true :=
  decide_eq_true rfl

def zeroInput (env : Env) (role : Role) (state : SessionState) (msg2 : Msg2) (msg3 : Msg3) : Input where
  sessionOk := true
  argsOk := true
  session := { Session.cleared state with role }
  msg1 := ⟨.replicate 64 0, []⟩
  msg2
  msg3
  additionalProp := []
  buffer := responderIdentity env.self

def zeroMsg2 (crypto : Crypto) (env : Env) : Msg2 where
  gB := .replicate 64 0
  report := createReport crypto env [] (.replicate 64 0)
  cmac := .replicate 16 0

def zeroMsg3 (crypto : Crypto) (env : Env) : Msg3 where
  cmac := .replicate 16 0
  report := createReport crypto env [] (.replicate 64 0)
  additionalProp := []

def Overlooks (crypto : Crypto) (env : Env) (api : Api) : Prop :=
  ∃ i calls, (api.run crypto env i).1 = true ∧ (api.run crypto env i).2 = entries env calls ∧
    ∀ c ∈ api.ignored, c ∈ calls

theorem overlooks_initiatorProcMsg1 (h : AllOk env (Api.checked (.initiatorProcMsg1 .v2))) :
    Overlooks crypto env (.initiatorProcMsg1 .v2) := by
  let i := zeroInput env .initiator .initiatorWaitM1 (zeroMsg2 crypto env) (zeroMsg3 crypto env)
  have hbody : ∃ r, Yields (initiatorBody1 crypto env .v2 i.msg1 i.session) r := by
    obtain ⟨msg2, hmsg2⟩ := yields_generateMessage2LAv2 crypto i.msg1 (crypto.publicKey env.prvKey)
      (deriveKey crypto (crypto.sharedDhkey env.prvKey i.msg1.gA) labelSmk) (h (.generate .v2 .cmacMsg) (by decide))
    exact ⟨_, (Yields.require (h .openContext (by decide))).bind <|
      (Yields.require (h .createKeyPair (by decide))).bind <|
      (Yields.require (h .computeSharedDhkey (by decide))).bind <|
      (Yields.require (h .deriveSmk (by decide))).bind <| hmsg2.bind <| .pure _⟩
  obtain ⟨r, hr⟩ := hbody
  obtain ⟨log, hlog⟩ := hr []
  obtain ⟨hok, hcalls⟩ := closing_of_ok convertError hlog (h .closeContext (by decide))
  obtain ⟨rfl, -⟩ := makes_initiatorBody1 (fun _ _ => makes_generateMessage2LAv2 _ _ _) _ _ _ hlog
  exact ⟨i, _, hok, hcalls.trans (entries_append _ _ _).symm, by decide⟩

theorem overlooks_responderProcMsg2 (h : AllOk env (Api.checked .responderProcMsg2)) :
    Overlooks crypto env .responderProcMsg2 := by
  let gB : PublicKey := .replicate 64 0
  let hash := if (env.fails (.verify .v2 .sha256)).isNone then crypto.sha256 (protoSpecLAv2.toList ++ gB.toList)
    else env.junkHash (.verify .v2 .sha256)
  let smk := deriveKey crypto (crypto.sharedDhkey (.replicate 32 0) gB) labelSmk
  let msg2 : Msg2 := ⟨gB, selfReport crypto env protoSpecLAv2 (padHash hash), crypto.cmac smk gB.toList⟩
  let i := zeroInput env .responder .responderWaitM2 msg2 (zeroMsg3 crypto env)
  have hcheck : Yields (checkMsg2 crypto env msg2 i.session.pubKey smk) .v2 :=
    yields_checkMsg2_v2 kdfId_protoSpecLAv2 (yields_verifyMessage2LAv2 rfl (h _ (by decide)) (h _ (by decide))
      (verifyReport_selfReport _ _) rfl rfl)
  have hbody : ∃ r, Yields (responderBody2 crypto env msg2 [] i.buffer i.session) r := by
    obtain ⟨msg3, hmsg3⟩ := yields_generateMessage3LAv2 crypto msg2 i.session.pubKey smk [] rfl (h _ (by decide))
    exact ⟨_, (Yields.require (h .openContext (by decide))).bind <|
      (Yields.require (h .computeSharedDhkey (by decide))).bind <|
      (Yields.require (h .deriveSmk (by decide))).bind <| hcheck.bind <| hmsg3.bind <|
      (Yields.require (h .deriveAek (by decide))).bind <| .pure _⟩
  obtain ⟨r, hr⟩ := hbody
  obtain ⟨log, hlog⟩ := hr []
  obtain ⟨hok, hcalls⟩ := closing_of_ok convertErrorMsg2 hlog (h .closeContext (by decide))
  obtain ⟨version, log1, log2, msg3, -, hversion, hgen, rfl⟩ := responderBody2_eq_ok hlog
  obtain ⟨_, hv2⟩ := hcheck (entries env [.openContext, .computeSharedDhkey, .deriveSmk])
  cases hv2.symm.trans hversion
  obtain ⟨part, -, rfl, -⟩ := checkMsg2_eq_ok hversion
  obtain ⟨rfl, -⟩ := makes_generateMessage3LAv2 _ _ _ _ _ _ _ hgen
  rw [← entries_append, ← entries_append, ← entries_append, ← entries_append] at hcalls
  refine ⟨i, _, hok, hcalls, ?_⟩
  have hmem : ∀ c ∈ Api.ignored .responderProcMsg2, c ∈ callsVerifyMsg2 .v2 ∨ c ∈ callsMsg3 .v2 := by decide
  intro c hc
  simp only [mem_append]
  exact (hmem c hc).elim (fun h => .inl (.inl (.inl (.inr (.inr h))))) fun h => .inl (.inl (.inr h))

theorem overlooks_initiatorProcMsg3 (h : AllOk env (Api.checked (.initiatorProcMsg3 .v2))) :
    Overlooks crypto env (.initiatorProcMsg3 .v2) := by
  let a : PublicKey := .replicate 64 0
  let hash := if (env.fails (.verify .v2 .sha256)).isNone then crypto.sha256 (a.toList ++ protoSpecLAv2.toList)
    else env.junkHash (.verify .v2 .sha256)
  obtain ⟨tag, htag⟩ := yields_cmac128 crypto env (.verify .v2) (.replicate 16 0) [] a
  let msg3 : Msg3 := ⟨tag, selfReport crypto env (padHash hash) (padHash hash), []⟩
  let i := zeroInput env .initiator .initiatorWaitM3 (zeroMsg2 crypto env) msg3
  have hverify : Yields (verifyMessage3LAv2 crypto env msg3 a (.replicate 16 0)) () := by
    refine (Yields.orJunk _ _).bind <| (Yields.ensure _ (decide_eq_true rfl)).bind <|
      (Yields.attemptCheck _).bind <| (Yields.ensure _ ?_).bind <| Yields.attempt.bind <| (Yields.ensure _ ?_).bind <|
      htag.bind <| Yields.ensure _ (decide_eq_true rfl)
    . rw [h (.verify .v2 .verifyReport) (by decide)]
      exact verifyReport_selfReport _ _
    . rw [h (.verify .v2 .cmacInit) (by decide)]
      rfl
  have hbody : ∃ r, Yields (initiatorBody3 crypto env .v2 msg3 i.session) r :=
    ⟨_, Yields.bind (x := verMsg3 crypto env .v2 msg3 a _ _) hverify <|
      (Yields.require (h .deriveAek (by decide))).bind <| .pure _⟩
  obtain ⟨r, hr⟩ := hbody
  obtain ⟨log, hlog⟩ := hr []
  obtain ⟨hcalls, -⟩ := makes_initiatorBody3 (makes_verifyMessage3LAv2 _ _ _) _ _ _ hlog
  have hrun : Api.run crypto env i (.initiatorProcMsg3 .v2) = (true, log) := by
    change ((dhInitiatorProcMsg3 crypto env .v2 true true msg3 i.session).result.isOk,
      (dhInitiatorProcMsg3 crypto env .v2 true true msg3 i.session).log) = _
    unfold dhInitiatorProcMsg3
    rw [hlog]
    rfl
  refine ⟨i, _, by rw [hrun], by rw [hrun]; exact hcalls, by decide⟩

theorem contributes_of_mem_ignored {api : Api} {c : Call} (h : c ∈ api.ignored) (calls : List Call) :
    contributes calls c = true := by
  match api with
  | .initiatorProcMsg1 .v2 =>
    simp only [Api.ignored, mem_cons, not_mem_nil, or_false] at h
    rcases h with rfl | rfl <;> rfl
  | .responderProcMsg2 =>
    simp only [Api.ignored, mem_cons, not_mem_nil, or_false] at h
    rcases h with rfl | rfl | rfl | rfl | rfl | rfl <;> rfl
  | .initiatorProcMsg3 .v2 =>
    simp only [Api.ignored, mem_cons, not_mem_nil, or_false] at h
    rcases h with rfl | rfl | rfl | rfl <;> rfl

/--
Whatever a function is called with, it notices all failures that contribute to what it does if and only if none of
the calls whose status it ignores fails, unless one of those it checks does.
-/
theorem failsClosed_iff (crypto : Crypto) (env : Env) (api : Api) :
    (∀ i, FailsClosed crypto env i api) ↔ (AllOk env api.checked → AllOk env api.ignored) := by
  constructor
  . intro hclosed hchecked c hc
    have hoverlooks : Overlooks crypto env api := by
      match api with
      | .initiatorProcMsg1 .v1 => cases hc
      | .initiatorProcMsg1 .v2 => exact overlooks_initiatorProcMsg1 hchecked
      | .responderProcMsg2 => exact overlooks_responderProcMsg2 hchecked
      | .initiatorProcMsg3 .v1 => cases hc
      | .initiatorProcMsg3 .v2 => exact overlooks_initiatorProcMsg3 hchecked
    obtain ⟨i, calls, hok, hlog, hmem⟩ := hoverlooks
    have hentry : (c, (env.fails c).isNone) ∈ (api.run crypto env i).2 := by
      rw [hlog]
      exact mem_map_of_mem (hmem c hc)
    exact Option.isNone_iff_eq_none.mp (hclosed i hok _ hentry (contributes_of_mem_ignored hc _))
  . intro h i
    cases api with
    | initiatorProcMsg1 version => exact failsClosed_initiatorProcMsg1 version h
    | responderProcMsg2 => exact failsClosed_responderProcMsg2 h
    | initiatorProcMsg3 version => exact failsClosed_initiatorProcMsg3 version h

end

def zeroEnclave : Enclave where
  cpuSvn := .replicate 16 0
  miscSelect := .replicate 4 0
  cetAttributes := .replicate 1 0
  reserved1 := .replicate 11 0
  isvExtProdId := .replicate 16 0
  attributes := .replicate 16 0
  mrEnclave := .replicate 32 0
  reserved2 := .replicate 32 0
  mrSigner := .replicate 32 0
  reserved3 := .replicate 32 0
  configId := .replicate 64 0
  isvProdId := .replicate 2 0
  isvSvn := .replicate 2 0
  configSvn := .replicate 2 0
  reserved4 := .replicate 42 0
  isvFamilyId := .replicate 16 0

def zeroReport : Report := ⟨zeroEnclave, .replicate 64 0, .replicate 32 0, .replicate 16 0⟩

def zeroCrypto : Crypto where
  sha256 _ := .replicate 32 0
  cmac _ _ := .replicate 16 0
  publicKey _ := .replicate 64 0
  sharedDhkey _ _ := .replicate 32 0
  reportMac _ _ := .replicate 16 0

def zeroEnv (fails : Call → Option SgxError) : Env where
  self := zeroEnclave
  prvKey := .replicate 32 0
  keyId := .replicate 32 0
  fails
  junkHash _ := .replicate 32 0
  junkReport _ := zeroReport
  junkTag _ := .replicate 16 0
  junkData _ := []

theorem sgxLAv2InitiatorProcMsg1_sha256_fails :
    ¬ FailsClosed zeroCrypto
      (zeroEnv fun c => if c = .generate .v2 .sha256 then some .outOfMemory else none)
      (zeroInput (zeroEnv fun _ => none) .initiator .initiatorWaitM1 (zeroMsg2 zeroCrypto (zeroEnv fun _ => none))
        (zeroMsg3 zeroCrypto (zeroEnv fun _ => none)))
      (.initiatorProcMsg1 .v2) := by
  intro h
  have := h (by decide +kernel) (.generate .v2 .sha256, false) (by decide +kernel) rfl
  cases this

end EcDh
