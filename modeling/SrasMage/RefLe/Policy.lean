import SrasMage.Bytes
import SrasMage.RefLe.Basic

/-!
This module contains the launch policy of the reference launch enclave.
-/

namespace RefLe

open Bytes List

def acceptedList (P : Platform) (c : Cache) : Call → Option (List UInt8)
  | .initWhiteList calls list signature =>
    if (initWhiteList P calls c list signature).1 = aeSuccess then list else none
  | .getLaunchToken _ _ _ => none

def accepted (P : Platform) : Cache → List Call → List (List UInt8)
  | _, [] => []
  | c, call :: calls => (acceptedList P c call).toList ++ accepted P (step P c call).2 calls

def cacheOf : Option (List UInt8) → Cache
  | none => Cache.empty
  | some list => loadWhiteList list

def Entry.Allows (e : Entry) (r : LaunchRequest) : Prop :=
  (provision r.seAttributes = true → e.provisionKey ≠ 0) ∧ copyReversedByteArray e.mrSigner = r.mrSigner
    ∧ (e.matchMrEnclave ≠ 0 → copyReversedByteArray e.mrEnclave = r.mrEnclave)

def Unforgeable (P : Platform) (mod : ByteArr 384) (signed : List UInt8 → Prop) : Call → Prop
  | .initWhiteList _ (some list) (some signature) =>
    (P.sha256 (copyReversedByteArray (WhiteList.signerMod list)).toList = P.report.mrSigner →
        copyReversedByteArray (WhiteList.signerMod list) = mod)
      ∧ (ofLittleEndian (copyReversedByteArray signature).toList ^ 3 % ofLittleEndian mod.toList
          = P.pad (P.sha256 list) → ∃ m, signed m ∧ P.sha256 m = P.sha256 list)
      ∧ ∀ m, signed m → P.sha256 m = P.sha256 list → m = list
  | _ => True

def NamesExponent (mod : ByteArr 384) : Call → Prop
  | .initWhiteList _ (some list) _ =>
    copyReversedByteArray (WhiteList.signerMod list) = mod →
      ofLittleEndian (copyReversedByteArray (WhiteList.signerExp list)).toList = 3
  | _ => True

section

variable {P : Platform} {c : Cache}

structure Verified (P : Platform) (c : Cache) (list : List UInt8) (signature : ByteArr 384) : Prop where
  size : getWhiteListSize list = list.length
  version : c.wlVersion < WhiteList.wlVersion list
  signer : P.sha256 (copyReversedByteArray (WhiteList.signerMod list)).toList = P.report.mrSigner
  signature : rsa3072Verify P list (copyReversedByteArray (WhiteList.signerMod list)).toList
    (copyReversedByteArray (WhiteList.signerExp list)).toList
    (copyReversedByteArray signature).toList = true

theorem aeSuccess_ne : leInvalidParameter ≠ aeSuccess ∧ leWhiteListAlreadyUpdated ≠ aeSuccess
    ∧ leUnexpectedError ≠ aeSuccess := by decide

theorem initWhiteList_cases (calls : InitCalls) (list? : Option (List UInt8)) (signature? : Option (ByteArr 384)) :
    (∃ e, e ≠ aeSuccess ∧ initWhiteList P calls c list? signature? = (e, c))
    ∨ ∃ list signature, list? = some list ∧ signature? = some signature
      ∧ initWhiteList P calls c list? signature? = (aeSuccess, loadWhiteList list)
      ∧ Verified P c list signature := by
  rcases list? with _ | list
  . exact .inl ⟨_, aeSuccess_ne.1, rfl⟩
  rcases signature? with _ | signature
  . exact .inl ⟨_, aeSuccess_ne.1, rfl⟩
  rw [initWhiteList]
  by_cases hshort : list.length < sizeofWhiteList
  . exact .inl ⟨_, aeSuccess_ne.1, if_pos hshort⟩
  rw [if_neg hshort]
  by_cases hsize : getWhiteListSize list = 0 ∨ getWhiteListSize list ≠ list.length
      ∨ getWhiteListSize list > refLeWlSize refLeWlMaxNumOfRecords
  . exact .inl ⟨_, aeSuccess_ne.1, if_pos hsize⟩
  rw [if_neg hsize]
  by_cases hwithin : (!calls.withinEnclave) = true
  . exact .inl ⟨_, aeSuccess_ne.1, if_pos hwithin⟩
  rw [if_neg hwithin]
  by_cases hformat : WhiteList.version list ≠ refLeWlCurrentVersion
  . exact .inl ⟨_, aeSuccess_ne.1, if_pos hformat⟩
  rw [if_neg hformat]
  by_cases hversion : c.wlVersion ≥ WhiteList.wlVersion list
  . exact .inl ⟨_, aeSuccess_ne.2.1, if_pos hversion⟩
  rw [if_neg hversion]
  by_cases hsha : calls.sha256Msg ≠ 0
  . exact .inl ⟨_, aeSuccess_ne.2.2, if_pos hsha⟩
  rw [if_neg hsha]
  by_cases hreport : calls.createReport ≠ 0
  . exact .inl ⟨_, aeSuccess_ne.2.2, if_pos hreport⟩
  rw [if_neg hreport]
  by_cases hsigner : P.report.mrSigner ≠ P.sha256 (copyReversedByteArray (WhiteList.signerMod list)).toList
  . exact .inl ⟨_, aeSuccess_ne.1, if_pos hsigner⟩
  rw [if_neg hsigner]
  by_cases hstatus : calls.rsa3072Verify ≠ 0
  . exact .inl ⟨_, aeSuccess_ne.2.2, if_pos hstatus⟩
  rw [if_neg hstatus]
  by_cases hverify : (!rsa3072Verify P (list.take (getWhiteListSize list))
      (copyReversedByteArray (WhiteList.signerMod list)).toList
      (copyReversedByteArray (WhiteList.signerExp list)).toList
      (copyReversedByteArray signature).toList) = true
  . exact .inl ⟨_, aeSuccess_ne.1, if_pos hverify⟩
  rw [if_neg hverify]
  have hlength : getWhiteListSize list = list.length := by omega
  refine .inr ⟨list, signature, rfl, rfl, rfl, hlength, by omega, (not_not.mp hsigner).symm, ?_⟩
  rw [hlength, take_length] at hverify
  exact (Bool.not_eq_false _).mp fun hfalse => hverify (by rw [hfalse]; rfl)

theorem Verified.signed {mod : ByteArr 384} {signed : List UInt8 → Prop} {list : List UInt8}
    {signature : ByteArr 384} (h : Verified P c list signature) {calls : InitCalls}
    (hcrypto : Unforgeable P mod signed (.initWhiteList calls (some list) (some signature)))
    (hexp : NamesExponent mod (.initWhiteList calls (some list) (some signature))) :
    signed list := by
  rcases hcrypto with ⟨hmod, hroot, hcollision⟩
  have hmod' := hmod h.signer
  have hverify := h.signature
  rw [rsa3072Verify, hexp hmod', hmod'] at hverify
  rcases hroot (of_decide_eq_true hverify) with ⟨m, hm, hhash⟩
  rw [← hcollision m hm hhash]
  exact hm

theorem step_cases (call : Call) : (acceptedList P c call = none ∧ (step P c call).2 = c)
    ∨ ∃ calls list signature, call = .initWhiteList calls (some list) (some signature)
      ∧ acceptedList P c call = some list ∧ (step P c call).2 = loadWhiteList list
      ∧ Verified P c list signature := by
  cases call with
  | getLaunchToken calls request lictoken => exact .inl ⟨rfl, rfl⟩
  | initWhiteList calls list? signature? =>
    rcases initWhiteList_cases (P := P) (c := c) calls list? signature?
      with ⟨e, he, heq⟩ | ⟨list, signature, rfl, rfl, heq, hverified⟩
    . left
      rw [acceptedList, step, heq, if_neg he]
      exact ⟨rfl, rfl⟩
    right
    refine ⟨calls, list, signature, rfl, ?_, ?_, hverified⟩
    . rw [acceptedList, heq, if_pos rfl]
    . rw [step, heq]

theorem accepted_increasing (calls : List Call) :
    ∀ c : Cache, (∀ list ∈ accepted P c calls, c.wlVersion < WhiteList.wlVersion list)
      ∧ ((accepted P c calls).map WhiteList.wlVersion).Pairwise (· < ·)
      ∧ run P c calls = ((accepted P c calls).getLast?.map loadWhiteList).getD c := by
  induction calls with
  | nil =>
    intro c
    exact ⟨by simp [accepted], by simp [accepted], rfl⟩
  | cons call calls ih =>
    intro c
    rcases ih (step P c call).2 with ⟨habove, hpairwise, hrun⟩
    rw [accepted, run]
    rcases step_cases (P := P) (c := c) call with ⟨hnone, hsame⟩ | ⟨_, list, signature, -, hsome, hload, hverified⟩
    . rw [hsame] at habove hpairwise hrun ⊢
      rw [hnone]
      exact ⟨habove, hpairwise, hrun⟩
    rw [hload] at habove hpairwise hrun ⊢
    rw [hsome]
    have hnewer : ∀ l ∈ accepted P (loadWhiteList list) calls,
        WhiteList.wlVersion list < WhiteList.wlVersion l := habove
    refine ⟨?_, ?_, ?_⟩
    . intro l hl
      rcases mem_cons.1 hl with rfl | hl
      . exact hverified.version
      . exact Nat.lt_trans hverified.version (hnewer l hl)
    . apply List.Pairwise.cons _ hpairwise
      intro v hv
      rcases mem_map.1 hv with ⟨l, hl, rfl⟩
      exact hnewer l hl
    . rw [hrun, Option.toList_some, singleton_append, getLast?_cons]
      cases (accepted P (loadWhiteList list) calls).getLast? <;> rfl

theorem accepted_signed {mod : ByteArr 384} {signed : List UInt8 → Prop} (calls : List Call) :
    ∀ c : Cache, (∀ call ∈ calls, Unforgeable P mod signed call) →
      (∀ call ∈ calls, NamesExponent mod call) → ∀ list ∈ accepted P c calls, signed list := by
  induction calls with
  | nil =>
    intro c _ _ list hlist
    cases hlist
  | cons call calls ih =>
    intro c hcrypto hexp list hlist
    rcases forall_mem_cons.1 hcrypto with ⟨hcrypto1, hcrypto2⟩
    rcases forall_mem_cons.1 hexp with ⟨hexp1, hexp2⟩
    rw [accepted, mem_append] at hlist
    rcases hlist with hlist | hlist
    . rcases step_cases (P := P) (c := c) call with ⟨hnone, -⟩ | ⟨_, l, signature, rfl, hsome, -, hverified⟩
      . rw [hnone] at hlist
        cases hlist
      rw [hsome, Option.mem_toList, Option.some.injEq] at hlist
      subst hlist
      exact hverified.signed hcrypto1 hexp1
    . exact ih _ hcrypto2 hexp2 list hlist

end

section Token

variable {P : Platform}

theorem copyEntries_eq (list : List UInt8) (n : Nat) :
    ∀ (i : Nat) (entries : Nat → Entry) (j : Nat), copyEntries list n i entries j
      = if i ≤ j ∧ j < i + n then (Entry.ofBytes (WhiteList.entry list j).toList).toCache else entries j := by
  induction n with
  | zero =>
    intro i entries j
    rw [copyEntries, if_neg (by omega)]
  | succ n ih =>
    intro i entries j
    rw [copyEntries, ih]
    by_cases hj : j = i
    . subst hj
      rw [if_neg (by omega), if_pos (by omega), Function.update_self]
    rw [Function.update_of_ne hj]
    congr 1
    rw [eq_iff_iff]
    omega

theorem Entry.allows_of_grants {e : Entry} {r : LaunchRequest} (h : e.toCache.grants r = true) : e.Allows r := by
  simp only [grants, Bool.and_eq_true, Bool.or_eq_true, decide_eq_true_eq, Bool.not_eq_true'] at h
  rcases h with ⟨⟨hprovision, hsigner⟩, henclave⟩
  refine ⟨?_, hsigner, ?_⟩
  . intro hr hzero
    rcases hprovision with h | h
    . simp [toCache, hzero] at h
    rw [hr] at h
    cases h
  intro hmatch
  rcases henclave with h | h
  . simp [toCache, hmatch] at h
  have henclave : e.toCache.mrEnclave = copyReversedByteArray e.mrEnclave := if_pos hmatch
  rw [← henclave]
  exact h

theorem validPrivilege_cacheOf {list? : Option (List UInt8)} {r : LaunchRequest}
    (h : validPrivilege (cacheOf list?) r = true) :
    ∃ list, list? = some list ∧ ∃ i < WhiteList.entriesCount list,
      (Entry.ofBytes (WhiteList.entry list i).toList).Allows r := by
  cases list? with
  | none => cases h
  | some list =>
    rcases any_eq_true.1 h with ⟨i, hi, hgrants⟩
    have hi' : i < WhiteList.entriesCount list := mem_range.1 hi
    have hentry : (cacheOf (some list)).wlEntries i = (Entry.ofBytes (WhiteList.entry list i).toList).toCache :=
      (copyEntries_eq list _ 0 _ i).trans (if_pos (by omega))
    rw [hentry] at hgrants
    exact ⟨list, rfl, i, hi', Entry.allows_of_grants hgrants⟩

theorem validPrivilege_of_issued {calls : TokenCalls} {c : Cache} {request : Option LaunchRequest}
    {lictoken : Token} (h : (getLaunchToken P calls c request lictoken).1 = aeSuccess) :
    ∃ r, request = some r ∧ validPrivilege c r = true
      ∧ (getLaunchToken P calls c request lictoken).2.body = launchBody r := by
  cases request with
  | none => cases h
  | some r =>
    rw [getLaunchToken] at h ⊢
    split at h
    . cases h
    split at h
    . cases h
    next hwithin hprivilege =>
    split at h
    . cases h
    split at h
    . cases h
    next hreport hrand =>
    refine ⟨r, rfl, by simpa using hprivilege, ?_⟩
    rw [if_neg hwithin, if_neg hprivilege, if_neg hreport, if_neg hrand]
    rw [signToken] at h ⊢
    split at h
    . cases h
    split at h
    . cases h
    next hkey hcmac =>
    rw [if_neg hkey, if_neg hcmac]
    rfl

end Token

/--
The launch enclave obeys the lists of its signer only, as long as the lists that name the modulus of the
signer come with the exponent three. All lists that get into the cache were signed by the owner of the
key, their versions increase and the last one is in force. A call that fails changes nothing. A token
is issued for an enclave that an entry of the list in force allows.
-/
theorem run_obeysSigner (P : Platform) (mod : ByteArr 384) (signed : List UInt8 → Prop)
    (calls : List Call) (hcrypto : ∀ call ∈ calls, Unforgeable P mod signed call)
    (hexp : ∀ call ∈ calls, NamesExponent mod call) :
    (∀ list ∈ accepted P Cache.empty calls, signed list)
    ∧ ((accepted P Cache.empty calls).map WhiteList.wlVersion).Pairwise (· < ·)
    ∧ run P Cache.empty calls = cacheOf (accepted P Cache.empty calls).getLast?
    ∧ (∀ call, (step P (run P Cache.empty calls) call).1 ≠ aeSuccess →
        (step P (run P Cache.empty calls) call).2 = run P Cache.empty calls)
    ∧ ∀ tokenCalls request lictoken,
        (getLaunchToken P tokenCalls (run P Cache.empty calls) request lictoken).1 = aeSuccess →
        ∃ r list, request = some r ∧ (accepted P Cache.empty calls).getLast? = some list
          ∧ (∃ i < WhiteList.entriesCount list, (Entry.ofBytes (WhiteList.entry list i).toList).Allows r)
          ∧ (getLaunchToken P tokenCalls (run P Cache.empty calls) request lictoken).2.body
            = launchBody r := by
  rcases accepted_increasing (P := P) calls Cache.empty with ⟨-, hincreasing, hrun⟩
  have hforce : run P Cache.empty calls = cacheOf (accepted P Cache.empty calls).getLast? := by
    rw [hrun]
    cases (accepted P Cache.empty calls).getLast? <;> rfl
  refine ⟨accepted_signed calls Cache.empty hcrypto hexp, hincreasing, hforce, ?_, ?_⟩
  . intro call hfails
    cases call with
    | getLaunchToken => rfl
    | initWhiteList initCalls list? signature? =>
      rw [step] at hfails ⊢
      rcases initWhiteList_cases (P := P) (c := run P Cache.empty calls) initCalls list? signature?
        with ⟨e, -, heq⟩ | ⟨_, _, -, -, heq, -⟩
      . rw [heq]
      . rw [heq] at hfails
        exact absurd rfl hfails
  . intro tokenCalls request lictoken hissued
    rcases validPrivilege_of_issued hissued with ⟨r, hr, hprivilege, hbody⟩
    rw [hforce] at hprivilege
    rcases validPrivilege_cacheOf hprivilege with ⟨list, hlist, hallows⟩
    exact ⟨r, list, hr, hlist, hallows, hbody⟩

namespace Toy

def platform : Platform where
  sha256 message := readBytes message 0 32
  pad digest := ofBigEndian digest.toList ^ 3
  report := ⟨List.Vector.replicate 32 0xFF, 0, 0, 0, 0, ⟨0, 0⟩⟩
  getKey _ := 0
  cmac128 _ _ := 0

def mod : ByteArr 384 := List.Vector.replicate 384 0xFF

def list (exp : UInt8) : List UInt8 :=
  [0, 1, 0, 0, 0, 1, 0, 1] ++ mod.toList ++ [0, 0, 0, exp]
    ++ [0, 0, 0, 0, 0, 0, 0, 0] ++ replicate 32 5 ++ replicate 32 0

def signature (n : Nat) : ByteArr 384 :=
  ⟨tabulate (fun i => UInt8.ofNat (n / 256 ^ (383 - i))) 384, length_tabulate _ _⟩

def digest : Nat := ofBigEndian (platform.sha256 (list 3)).toList

def signedCalls : List Call :=
  [.initWhiteList ⟨true, 0, 0, 0⟩ (some (list 3)) (some (signature digest))]

def forgedCalls : List Call :=
  [.initWhiteList ⟨true, 0, 0, 0⟩ (some (list 1)) (some (signature (digest ^ 3)))]

def request : LaunchRequest :=
  ⟨List.Vector.replicate 32 0, List.Vector.replicate 32 5, ⟨0, 0⟩⟩

end Toy

open Toy

theorem run_obeysSigner_signed :
    (∀ l ∈ accepted platform Cache.empty signedCalls, l = list 3)
      ∧ accepted platform Cache.empty signedCalls = [list 3] := by
  refine ⟨(run_obeysSigner platform mod (fun l => l = list 3) signedCalls ?_ ?_).1, by decide +kernel⟩
  . intro call hcall
    cases mem_singleton.mp hcall
    exact ⟨fun _ => by decide +kernel, fun _ => ⟨list 3, rfl, rfl⟩, fun m hm _ => hm⟩
  intro call hcall
  cases mem_singleton.mp hcall
  exact fun _ => by decide +kernel

theorem forged_exponent_accepted :
    (∀ call ∈ forgedCalls, Unforgeable platform mod (fun _ => False) call)
      ∧ accepted platform Cache.empty forgedCalls = [list 1]
      ∧ (getLaunchToken platform ⟨true, 0, 0, 0, 0, 0, 0, 0⟩ (run platform Cache.empty forgedCalls)
          (some request) Token.zero).1 = aeSuccess := by
  refine ⟨?_, by decide +kernel⟩
  intro call hcall
  cases mem_singleton.mp hcall
  refine ⟨fun _ => by decide +kernel, fun hroot => ?_, fun m hm => hm.elim⟩
  exact absurd hroot (by decide +kernel)

end RefLe
