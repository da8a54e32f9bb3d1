import SrasMage.Hoare
import SrasMage.Le.LaunchEnclave
import SrasMage.Run

/-!
This module contains that launch tokens follow the newest white list that the launch enclave has accepted.
-/

namespace Le

open Hoare Memory

theorem runs_check {σ : Type} {ok : Bool} {e : AeError} {s : σ} {Q : Unit → σ → Prop} {R : AeError → σ → Prop}
    (hQ : ok = true → Q () s) (hR : R e s) : Runs (check ok e) s Q R := by
  cases ok with
  | false => exact hR
  | true => exact hQ rfl

def entry (chain : List UInt8) (i : Nat) : List UInt8 :=
  field chain (sizeofWlCertChain + sizeofMeasurement * i) sizeofMeasurement

def storedCache (chain : List UInt8) : Mem :=
  store (store (store emptyCache 0 (wlCert chain)) 12 (toBytes 4 (entryNumber chain))) 8
    (toBytes 4 (newWlVersion chain))

structure WellFormed (chain : List UInt8) : Prop where
  entries : 0 < entryNumber chain
  length : chain.length = 216 + 32 * entryNumber chain
  small : entryNumber chain ≤ 2048
  version : number chain 136 2 = wlCertVersion

structure Accepts (crypto : Crypto) (chain : List UInt8) (cache : Mem) : Prop where
  wellFormed : WellFormed chain
  newer : cachedVersion cache = 0 ∨ cachedWlVersion cache < newWlVersion chain
  provider : crypto.ecdsaVerify (providerCertBody chain) gWlRootPubkey (signatureAt chain 72) = true
  wl : crypto.ecdsaVerify (wlCert chain) (wlPubkey chain) (signatureAt chain (chain.length - sizeofSignature)) = true

section

variable {crypto : Crypto} {fails : Call → Bool} {report : Report} {chain : List UInt8} {cache : Mem}

theorem runs_cacheWlCert :
    Runs (cacheWlCert chain (entryNumber chain) (newWlVersion chain)) cache (fun _ cache' => cache' = storedCache chain)
      (fun _ cache' => cache' = cache) := by
  change storedCache chain = storedCache chain
  rfl

theorem runs_leInitWhiteListWrapper (inside : Bool) :
    Runs (leInitWhiteListWrapper crypto fails report inside chain) cache
      (fun _ cache' => Accepts crypto chain cache ∧ cache' = storedCache chain) (fun _ cache' => cache' = cache) := by
  refine .bind (runs_check (fun _ => ?_) rfl)
  refine .bind (runs_check (fun hmin => ?_) rfl)
  refine .bind (runs_check (fun hsmall => ?_) rfl)
  refine .bind (runs_check (fun hlength => ?_) rfl)
  refine .bind (runs_check (fun _ => ?_) rfl)
  refine .bind (runs_check (fun _ => ?_) rfl)
  refine .bind (runs_check (fun _ => ?_) rfl)
  refine .bind (runs_check (fun _ => ?_) rfl)
  refine .bind (runs_check (fun hversion => ?_) rfl)
  refine .bind (runs_check (fun _ => ?_) rfl)
  refine .bind (runs_check (fun _ => ?_) rfl)
  refine .bind (.get ?_)
  refine .bind (runs_check (fun hnewer => ?_) rfl)
  refine .bind (runs_check (fun _ => ?_) rfl)
  refine .bind (runs_check (fun _ => ?_) rfl)
  refine .bind (runs_check (fun hprovider => ?_) rfl)
  refine .bind (runs_check (fun _ => ?_) rfl)
  refine .bind (runs_check (fun _ => ?_) rfl)
  refine .bind (runs_check (fun _ => ?_) rfl)
  refine .bind (runs_check (fun hwl => ?_) rfl)
  refine .bind (runs_check (fun _ => ?_) rfl)
  refine .bind (runs_check (fun _ => ?_) rfl)
  refine runs_cacheWlCert.mono (fun _ cache' hstored => ⟨⟨?_, of_decide_eq_true hnewer, hprovider, hwl⟩, hstored⟩)
    fun _ _ h => h
  have hmin : 152 + 32 + 64 ≤ chain.length := of_decide_eq_true hmin
  have hsmall : entryNumber chain ≤ 2048 := of_decide_eq_true hsmall
  have hlength : chain.length = (152 + 64 + 32 * entryNumber chain) % 2 ^ 32 := of_decide_eq_true hlength
  exact ⟨by omega, by omega, hsmall, of_decide_eq_true hversion⟩

theorem bufSize_eq (h : WellFormed chain) : bufSize chain = 16 + 32 * entryNumber chain := by
  have hlength := h.length
  have hsmall := h.small
  unfold bufSize sizeofWlProviderCert sizeofSignature
  omega

theorem length_wlCert (h : WellFormed chain) : (wlCert chain).length = 16 + 32 * entryNumber chain := by
  have hlength := h.length
  unfold wlCert field sizeofWlProviderCert
  rw [List.length_take, List.length_drop, bufSize_eq h]
  omega

theorem field_wlCert (h : WellFormed chain) {offset size : Nat} (hle : offset + size ≤ 16 + 32 * entryNumber chain) :
    field (wlCert chain) offset size = field chain (136 + offset) size := by
  unfold wlCert field sizeofWlProviderCert
  rw [bufSize_eq h, List.drop_take, List.take_take, List.drop_drop, Nat.min_eq_left (by omega)]

theorem load_storedCache (h : WellFormed chain) {offset size : Nat} (hle : offset + size ≤ 16 + 32 * entryNumber chain)
    (hapart : offset + size ≤ 8 ∨ 16 ≤ offset) :
    load (storedCache chain) offset size = field chain (136 + offset) size := by
  unfold storedCache
  rw [load_store_apart (by rw [length_toBytes]; unfold Apart; omega),
    load_store_apart (by rw [length_toBytes]; unfold Apart; omega)]
  have hpart := load_store_part emptyCache 0 (wlCert chain) (k := offset) (n := size)
    (by rw [length_wlCert h]; exact hle)
  rw [Nat.zero_add] at hpart
  rw [hpart]
  exact field_wlCert h hle

theorem cachedVersion_storedCache (h : WellFormed chain) : cachedVersion (storedCache chain) = wlCertVersion := by
  unfold cachedVersion
  rw [load_storedCache h (by omega) (by omega)]
  exact h.version

theorem cachedWlVersion_storedCache (chain : List UInt8) :
    cachedWlVersion (storedCache chain) = newWlVersion chain := by
  unfold cachedWlVersion storedCache
  have hsame := load_store_same (store (store emptyCache 0 (wlCert chain)) 12 (toBytes 4 (entryNumber chain))) 8
    (toBytes 4 (newWlVersion chain))
  rw [length_toBytes] at hsame
  rw [hsame]
  exact ofBytes_toBytes (ntoh_lt _)

theorem cachedEntryNumber_storedCache (chain : List UInt8) :
    cachedEntryNumber (storedCache chain) = entryNumber chain := by
  unfold cachedEntryNumber storedCache
  rw [load_store_apart (by rw [length_toBytes]; unfold Apart; omega)]
  have hsame := load_store_same (store emptyCache 0 (wlCert chain)) 12 (toBytes 4 (entryNumber chain))
  rw [length_toBytes] at hsame
  rw [hsame]
  exact ofBytes_toBytes (ntoh_lt _)

theorem cachedMrSigner_storedCache (h : WellFormed chain) {i : Nat} (hi : i < entryNumber chain) :
    cachedMrSigner (storedCache chain) i = entry chain i := by
  unfold cachedMrSigner sizeofWlCert sizeofMeasurement
  rw [load_storedCache h (by omega) (by omega)]
  unfold entry sizeofWlCertChain sizeofMeasurement
  rw [← Nat.add_assoc]

theorem cachedVersion_emptyCache : cachedVersion emptyCache = 0 := by decide

def Admits (chain : List UInt8) (mrSigner : Measurement) : Prop :=
  entry chain 0 = List.replicate 32 0 ∨ ∃ i < entryNumber chain, entry chain i = mrSigner.toList

structure Permits (cache : Mem) (r : Request) : Prop where
  provisionKey : r.hasProvisionKey = true → r.mrSigner ∈ gServiceEnclaveMrsigner
  version : r.isDebug = false → cachedVersion cache ≠ 0
  listed : r.isDebug = false → isWildCard cache = true ∨ isListed cache r.mrSigner = true

variable {r : Request} {before : Token}

theorem runs_checkRequest (hproduction : report.mrSigner ∈ gLeMrsigner) :
    Runs (checkRequest fails report cache r) before (fun _ _ => Permits cache r) (fun _ after => after = before) := by
  refine .bind (runs_check (fun _ => ?_) rfl)
  refine .bind (runs_check (fun _ => ?_) rfl)
  refine .bind (runs_check (fun hprovision => ?_) rfl)
  refine .bind (runs_check (fun hversion => ?_) rfl)
  refine runs_check (fun hlisted => ?_) rfl
  simp only [hproduction, true_and, and_true, decide_eq_true_eq, Bool.not_eq_true', decide_eq_false_iff_not] at *
  constructor
  . intro hkey
    exact hprovision.resolve_left (fun hno => hno hkey)
  . intro hdebug
    exact hversion.resolve_left (fun hno => hno hdebug)
  . intro hdebug
    exact hlisted.resolve_left (fun hno => hno hdebug)

theorem runs_leCalcLicToken (keyId : Vector UInt8 32) : Runs (leCalcLicToken crypto fails keyId) before
      (fun _ after => after.valid = before.valid ∧ after.mrEnclave = before.mrEnclave ∧
        after.mrSigner = before.mrSigner ∧ after.attributes = before.attributes) (fun _ _ => True) := by
  refine .bind (runs_check (fun _ => ?_) trivial)
  refine .bind (.modify ?_)
  refine .bind (.get ?_)
  refine .bind (.modify ?_)
  refine .bind (.modify ?_)
  refine .bind (runs_check (fun _ => ?_) trivial)
  refine .bind (runs_check (fun _ => ?_) trivial)
  refine .bind (runs_check (fun _ => ?_) trivial)
  refine .bind (runs_check (fun _ => ?_) trivial)
  exact .modify ⟨rfl, rfl, rfl, rfl⟩

structure Token.For (token : Token) (r : Request) : Prop where
  valid : token.valid = 1
  mrEnclave : token.mrEnclave = r.mrEnclave
  mrSigner : token.mrSigner = r.mrSigner
  attributes : token.attributes = r.attributes

theorem runs_leGetLaunchTokenWrapper (hproduction : report.mrSigner ∈ gLeMrsigner) (keyId : Vector UInt8 32)
    (argsOk : Bool) :
    Runs (leGetLaunchTokenWrapper crypto fails report keyId argsOk cache r) before
      (fun _ after => Permits cache r ∧ after.For r) (fun _ after => after = before ∨ after = Token.zero) := by
  refine .bind (runs_check (fun _ => ?_) (.inl rfl))
  refine .bind ((runs_checkRequest hproduction).mono (fun _ _ hpermits => ?_) fun _ _ hsame => .inl hsame)
  refine .bind (.modify ?_)
  refine .bind (.modify ?_)
  refine .tryCatch ((runs_leCalcLicToken keyId).mono ?_ fun e after _ => Runs.bind (.modify (.inr rfl)))
  rintro _ after ⟨hvalid, hmrEnclave, hmrSigner, hattributes⟩
  exact ⟨hpermits, hvalid, hmrEnclave, hmrSigner, hattributes⟩

end

def acceptedChains (trace : List Event) : List (List UInt8) :=
  trace.filterMap fun
    | .accepted chain => some chain
    | _ => none

def Authentic (Signed : PublicKey → List UInt8 → Prop) (chain : List UInt8) : Prop :=
  Signed gWlRootPubkey (providerCertBody chain) ∧ Signed (wlPubkey chain) (wlCert chain)

structure Cached (Signed : PublicKey → List UInt8 → Prop) (chains : List (List UInt8)) (cache : Mem) : Prop where
  empty : chains.getLast? = none → cache = emptyCache
  last : ∀ chain, chains.getLast? = some chain → WellFormed chain ∧ cache = storedCache chain
  authentic : ∀ chain ∈ chains, Authentic Signed chain
  version : ∀ chain ∈ chains, newWlVersion chain ≤ cachedWlVersion cache

def Event.Follows (Signed : PublicKey → List UInt8 → Prop) (chains : List (List UInt8)) (cache cache' : Mem) :
    Event → Prop
  | .accepted chain => Authentic Signed chain ∧ ∀ earlier ∈ chains, newWlVersion earlier < newWlVersion chain
  | .rejected _ _ => cache' = cache
  | .token r after =>
    after.For r ∧ (r.isDebug = false → ∃ chain, chains.getLast? = some chain ∧ Authentic Signed chain ∧
      Admits chain r.mrSigner) ∧ (r.hasProvisionKey = true → r.mrSigner ∈ gServiceEnclaveMrsigner)
  | .refused _ _ before after => after = before ∨ after = Token.zero

section

variable {crypto : Crypto} {report : Report} {Signed : PublicKey → List UInt8 → Prop} {chains : List (List UInt8)}
variable {cache cache' : Mem} {chain : List UInt8} {r : Request}

theorem Cached.nil : Cached Signed [] emptyCache where
  empty _ := rfl
  last _ hlast := by cases hlast
  authentic _ hmem := by cases hmem
  version _ hmem := by cases hmem

theorem Accepts.authentic (h : Accepts crypto chain cache)
    (hunforgeable : ∀ message key signature, crypto.ecdsaVerify message key signature = true → Signed key message) :
    Authentic Signed chain :=
  ⟨hunforgeable _ _ _ h.provider, hunforgeable _ _ _ h.wl⟩

theorem Cached.lt_newWlVersion (h : Cached Signed chains cache) (haccepts : Accepts crypto chain cache) :
    ∀ earlier ∈ chains, newWlVersion earlier < newWlVersion chain := by
  intro earlier hmem
  rcases haccepts.newer with hzero | hlt
  . cases hlast : chains.getLast? with
    | none =>
      rw [List.getLast?_eq_none_iff] at hlast
      rw [hlast] at hmem
      cases hmem
    | some last =>
      -- The version of a stored certificate is not zero.
      obtain ⟨hwell, hcache⟩ := h.last last hlast
      rw [hcache, cachedVersion_storedCache hwell] at hzero
      cases hzero
  . exact Nat.lt_of_le_of_lt (h.version earlier hmem) hlt

theorem Cached.snoc (h : Cached Signed chains cache) (haccepts : Accepts crypto chain cache)
    (hauthentic : Authentic Signed chain) : Cached Signed (chains ++ [chain]) (storedCache chain) where
  empty hlast := by
    rw [List.getLast?_concat] at hlast
    cases hlast
  last last hlast := by
    rw [List.getLast?_concat] at hlast
    cases hlast
    exact ⟨haccepts.wellFormed, rfl⟩
  authentic earlier hmem := by
    rcases List.mem_append.1 hmem with hmem | hmem
    . exact h.authentic earlier hmem
    rw [List.mem_singleton.1 hmem]
    exact hauthentic
  version earlier hmem := by
    rw [cachedWlVersion_storedCache]
    rcases List.mem_append.1 hmem with hmem | hmem
    . exact Nat.le_of_lt (h.lt_newWlVersion haccepts earlier hmem)
    . exact Nat.le_of_eq (congrArg newWlVersion (List.mem_singleton.1 hmem))

theorem Cached.admits (h : Cached Signed chains cache) (hpermits : Permits cache r) (hdebug : r.isDebug = false) :
    ∃ chain, chains.getLast? = some chain ∧ Authentic Signed chain ∧ Admits chain r.mrSigner := by
  cases hlast : chains.getLast? with
  | none =>
    refine absurd ?_ (hpermits.version hdebug)
    rw [h.empty hlast]
    exact cachedVersion_emptyCache
  | some chain =>
    obtain ⟨hwell, hcache⟩ := h.last chain hlast
    refine ⟨chain, rfl, h.authentic chain (List.mem_of_getLast? hlast), ?_⟩
    rcases hpermits.listed hdebug with hwild | hlisted
    . left
      rw [← cachedMrSigner_storedCache hwell hwell.entries, ← hcache]
      exact of_decide_eq_true hwild
    right
    obtain ⟨i, hi, hentry⟩ := List.any_eq_true.1 hlisted
    rw [hcache, cachedEntryNumber_storedCache, List.mem_range] at hi
    refine ⟨i, hi, ?_⟩
    rw [← cachedMrSigner_storedCache hwell hi, ← hcache]
    exact of_decide_eq_true hentry

variable (hproduction : report.mrSigner ∈ gLeMrsigner)
variable (hunforgeable : ∀ message key signature, crypto.ecdsaVerify message key signature = true → Signed key message)

include hunforgeable in
theorem Cached.step {trace : List Event} {e : Event} (h : Cached Signed (acceptedChains trace) cache)
    (hstep : Step crypto report cache e cache') : Cached Signed (acceptedChains (trace ++ [e])) cache' := by
  unfold acceptedChains at *
  rw [List.filterMap_append]
  cases hstep with
  | accepted fails inside _ hok =>
    obtain ⟨haccepts, hcache⟩ := (runs_leInitWhiteListWrapper inside).ok hok
    rw [hcache]
    exact h.snoc haccepts (haccepts.authentic hunforgeable)
  | rejected fails inside _ herror =>
    rw [(runs_leInitWhiteListWrapper inside).error herror]
    exact (List.append_nil _).symm ▸ h
  | token => exact (List.append_nil _).symm ▸ h
  | refused => exact (List.append_nil _).symm ▸ h

include hproduction hunforgeable in
theorem Cached.follows {e : Event} (h : Cached Signed chains cache) (hstep : Step crypto report cache e cache') :
    e.Follows Signed chains cache cache' := by
  cases hstep with
  | accepted fails inside _ hok =>
    have haccepts := ((runs_leInitWhiteListWrapper inside).ok hok).1
    exact ⟨haccepts.authentic hunforgeable, h.lt_newWlVersion haccepts⟩
  | rejected fails inside _ herror => exact (runs_leInitWhiteListWrapper inside).error herror
  | token fails keyId argsOk hok =>
    obtain ⟨hpermits, hfor⟩ := (runs_leGetLaunchTokenWrapper hproduction keyId argsOk).ok hok
    exact ⟨hfor, h.admits hpermits, hpermits.provisionKey⟩
  | refused fails keyId argsOk herror => exact (runs_leGetLaunchTokenWrapper hproduction keyId argsOk).error herror

include hproduction hunforgeable in
/--
Launch tokens follow the newest authentic white list.
-/
theorem launchTokens_follow {trace : List Event} {e : Event} (hrun : Run (Step crypto report) emptyCache trace cache)
    (hstep : Step crypto report cache e cache') : e.Follows Signed (acceptedChains trace) cache cache' := by
  have hcached : Cached Signed (acceptedChains trace) cache :=
    Run.invariant (I := fun trace cache => Cached Signed (acceptedChains trace) cache) hrun Cached.nil
      (fun _ _ _ _ h hstep => h.step hunforgeable hstep)
  exact hcached.follows hproduction hunforgeable hstep

end

namespace Sample

def crypto : Crypto where
  ecdsaVerify _ _ _ := true
  checkPoint _ := true
  getKey _ := .replicate 16 0
  cmac _ _ := .replicate 16 0

def report : Report where
  cpuSvn := .replicate 16 0
  miscSelect := 0
  attributes := ⟨0, 0⟩
  mrSigner := gLeMrsigner.head (by decide)
  isvProdId := 0
  isvSvn := 0

def chain : List UInt8 :=
  [0, 1] ++ List.replicate 134 0 ++ [0, 1, 0, 1, 0, 0, 0, 0, 0, 0, 0, 7, 0, 0, 0, 1] ++ List.replicate 32 5 ++
    List.replicate 64 0

def request : Request where
  mrEnclave := .replicate 32 0
  mrSigner := .replicate 32 5
  attributes := ⟨sgxFlagsMode64bit, 0⟩

end Sample

theorem launchTokens_follow_sample :
    ∃ token cache, Run (Step Sample.crypto Sample.report) emptyCache [.accepted Sample.chain] cache ∧
      Step Sample.crypto Sample.report cache (.token Sample.request token) cache ∧
      (Event.token Sample.request token).Follows (fun _ _ => True) [Sample.chain] cache cache := by
  obtain ⟨_, cache, hok⟩ : ∃ a cache, leInitWhiteListWrapper Sample.crypto (fun _ => false) Sample.report true
      Sample.chain emptyCache = .ok a cache := exists_ok (by decide +kernel)
  have hcache : cache = storedCache Sample.chain := ((runs_leInitWhiteListWrapper true).ok hok).2
  obtain ⟨_, token, htoken⟩ : ∃ a token, leGetLaunchTokenWrapper Sample.crypto (fun _ => false) Sample.report
      (.replicate 32 0) true (storedCache Sample.chain) Sample.request Token.zero = .ok a token :=
    exists_ok (by decide +kernel)
  rw [← hcache] at htoken
  have hrun : Run (Step Sample.crypto Sample.report) emptyCache [.accepted Sample.chain] cache :=
    .snoc .nil (.accepted _ true (by decide +kernel) hok)
  have hstep : Step Sample.crypto Sample.report cache (.token Sample.request token) cache := .token _ _ true htoken
  exact ⟨token, cache, hrun, hstep, launchTokens_follow (by decide) (fun _ _ _ _ => trivial) hrun hstep⟩

end Le
