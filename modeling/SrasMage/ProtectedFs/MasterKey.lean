import SrasMage.Run
import SrasMage.ProtectedFs.ReferenceLemmas

/-!
This module contains the number of node keys that are derived from one session master key.
-/

namespace ProtectedFs

open Reference File

variable {N : Type} (P : Platform N)

namespace File

variable (s : File N)

def renewsMasterKey : Bool :=
  decide (s.masterKeyCount > maxMasterKeyUsages) && (s.useSessionMasterKey P).1

-- `sgx_read_rand` and the CMAC succeed
def BlobSucceeds : Prop := s.outcome.status = 0 ∧ s.nextCall.outcome.status = 0

theorem generateSecureBlob_cases (key : Key) (label : List Char) (n : Nat)
    (hlabel : label.length ≤ maxLabelLen) : ∃ output s', s.generateSecureBlob P key label n = (output, s')
      ∧ s'.masterKeyCount = s.masterKeyCount ∧ (output.isSome = true ↔ s.BlobSucceeds) := by
  unfold generateSecureBlob readRand cmac BlobSucceeds
  rw [if_neg (Nat.not_lt.2 hlabel)]
  by_cases hrand : s.outcome.status = 0
  . by_cases hcmac : s.nextCall.outcome.status = 0
    . simp [hrand, hcmac]
      rfl
    simp [hrand, hcmac]
    rfl
  . simp [hrand]
    rfl

theorem deriveRandomNodeKey_of_le (n : Nat) (h : s.masterKeyCount ≤ maxMasterKeyUsages) : s.renewsMasterKey P = false
    ∧ (s.deriveRandomNodeKey P n).2.masterKeyCount = s.masterKeyCount + 1
    ∧ ((s.deriveRandomNodeKey P n).1 = true ↔ s.BlobSucceeds) := by
  have hcount : s.countMasterKey.masterKeyCount = s.masterKeyCount + 1 := by
    simp only [countMasterKey, maxMasterKeyUsages] at h ⊢
    omega
  obtain ⟨output, s', heq, hblob, hsome⟩ := s.countMasterKey.generateSecureBlob_cases P
    s.sessionMasterKey randomKeyName n (by decide)
  have heq' : s.countMasterKey.generateSecureBlob P s.countMasterKey.sessionMasterKey randomKeyName n
      = (output, s') := heq
  refine ⟨by simp [renewsMasterKey, Nat.not_lt.2 h], ?_⟩
  simp only [deriveRandomNodeKey, useSessionMasterKey, if_neg (Nat.not_lt.2 h), heq']
  cases output <;> exact ⟨hblob.trans hcount, hsome⟩

theorem deriveRandomNodeKey_of_gt (n : Nat) (h : maxMasterKeyUsages < s.masterKeyCount) :
    s.renewsMasterKey P = true ∧ (s.deriveRandomNodeKey P n).2.masterKeyCount = 0
    ∨ ¬ s.BlobSucceeds ∧ s.renewsMasterKey P = false ∧ (s.deriveRandomNodeKey P n).1 = false
      ∧ (s.deriveRandomNodeKey P n).2.masterKeyCount = (s.masterKeyCount + 1) % 2 ^ 32 := by
  obtain ⟨output, s', heq, hblob, hsome⟩ := s.countMasterKey.generateSecureBlob_cases P 0 masterKeyName 0 (by decide)
  simp only [renewsMasterKey, deriveRandomNodeKey, useSessionMasterKey, if_pos h, decide_eq_true h,
    initSessionMasterKey, heq]
  cases output with
  | none => exact .inr ⟨fun hs => by simpa using hsome.2 hs, rfl, rfl, hblob⟩
  | some key =>
    obtain ⟨output, s2, hderive, hcount, -⟩ := generateSecureBlob_cases P
      { s' with sessionMasterKey := key, masterKeyCount := 0 } key randomKeyName n (by decide)
    simp only [hderive]
    cases output <;> exact .inl ⟨rfl, hcount⟩

end File

/-- The node keys derived so far from the current master key, and whether it is a later one than the
constructor's. -/
structure KeyUse (N : Type) where
  file : File N
  used : Nat
  renewed : Bool

-- between two calls the rest of the file changes in any way
def DeriveStep (u : KeyUse N) (call : File N × Nat) (u' : KeyUse N) : Prop :=
  call.1.sessionMasterKey = u.file.sessionMasterKey ∧ call.1.masterKeyCount = u.file.masterKeyCount
  ∧ u' =
    { file := (call.1.deriveRandomNodeKey P call.2).2
      used :=
        (if call.1.renewsMasterKey P then 0 else u.used)
          + (call.1.deriveRandomNodeKey P call.2).1.toNat
      renewed := u.renewed || call.1.renewsMasterKey P }

/-- The calls that are one too many derive nothing, and the counter does not wrap around. -/
structure Spares (u : KeyUse N) (call : File N × Nat) : Prop where
  last : call.1.masterKeyCount ≤ maxMasterKeyUsages →
    maxMasterKeyUsages ≤ call.1.masterKeyCount + u.renewed.toNat → ¬ call.1.BlobSucceeds
  wrap : call.1.masterKeyCount = 2 ^ 32 - 1 → call.1.BlobSucceeds

structure KeyUse.Inv (u : KeyUse N) : Prop where
  count : u.file.masterKeyCount < 2 ^ 32
  used : u.used ≤ maxMasterKeyUsages
  low : u.file.masterKeyCount ≤ maxMasterKeyUsages → u.used ≤ u.file.masterKeyCount + u.renewed.toNat

variable {P}

theorem KeyUse.Inv.step {u u' : KeyUse N} {call : File N × Nat} (h : u.Inv) (hspares : Spares u call)
    (hstep : DeriveStep P u call u') : u'.Inv := by
  obtain ⟨s, n⟩ := call
  obtain ⟨-, hcount, rfl⟩ := hstep
  obtain ⟨hlt, hused, hlow⟩ := h
  change s.masterKeyCount = _ at hcount
  rw [← hcount] at hlt hlow
  by_cases hle : s.masterKeyCount ≤ maxMasterKeyUsages
  . obtain ⟨hrenews, hcount', hderived⟩ := s.deriveRandomNodeKey_of_le P n hle
    have hbound := hlow hle
    have hlast := hspares.last hle
    have hmax : maxMasterKeyUsages < 2 ^ 32 - 1 := by decide
    by_cases hfull : maxMasterKeyUsages ≤ s.masterKeyCount + u.renewed.toNat
    . have hnone := mt hderived.mp (hlast hfull)
      constructor <;> simp [hrenews, hcount', hnone] <;> omega
    have hone := Bool.toNat_le (s.deriveRandomNodeKey P n).1
    constructor <;> simp [hrenews, hcount'] <;> omega
  . rcases s.deriveRandomNodeKey_of_gt P n (Nat.lt_of_not_le hle)
      with ⟨hrenews, hcount'⟩ | ⟨hfails, hrenews, hderived, hcount'⟩
    . have hone := Bool.toNat_le (s.deriveRandomNodeKey P n).1
      have hmax : 1 ≤ maxMasterKeyUsages := by decide
      constructor <;> simp [hrenews, hcount'] <;> omega
    . have hwrap : s.masterKeyCount ≠ 2 ^ 32 - 1 := mt hspares.wrap hfails
      constructor <;> simp [hrenews, hcount', hderived] <;> omega

theorem File.masterKeyCount_of_init {s s1 : File N} (h : s.initSessionMasterKey P = (true, s1)) :
    s1.masterKeyCount = 0 := by
  unfold initSessionMasterKey at h
  split at h
  . cases h
  cases h
  rfl

theorem used_le_of_spares {s s₁ : File N} {trace : List (File N × Nat)} {u : KeyUse N}
    (hinit : s.initSessionMasterKey P = (true, s₁))
    (hrun : Run (fun u call u' => Spares u call ∧ DeriveStep P u call u') ⟨s₁, 0, false⟩ trace u) :
    u.used ≤ maxMasterKeyUsages := by
  refine (hrun.invariant (I := fun _ => KeyUse.Inv) ?_ ?_).used
  . constructor <;> simp [masterKeyCount_of_init hinit]
  . intro _ _ _ _ h hstep
    exact h.step hstep.1 hstep.2

theorem deriveStep_succeeds {u : KeyUse N} (hs : u.file.outside.CallsSucceed)
    (hcount : u.file.masterKeyCount ≤ maxMasterKeyUsages) :
    ∃ u', DeriveStep P u (u.file, 2) u' ∧ u'.used = u.used + 1 ∧ u'.file.masterKeyCount = u.file.masterKeyCount + 1
      ∧ u'.renewed = u.renewed ∧ u'.file.outside.CallsSucceed := by
  obtain ⟨hrenews, hnext, hderived⟩ := u.file.deriveRandomNodeKey_of_le P 2 hcount
  obtain ⟨s', heq, hquiet⟩ := deriveRandomNodeKey_spec P hs 2
  refine ⟨_, ⟨rfl, rfl, rfl⟩, ?_, hnext, ?_, ?_⟩
  . simp [hrenews, hderived.mpr ⟨(hs _).1, (hs _).1⟩]
  . simp [hrenews]
  rw [heq]
  exact outside_of_quiet hquiet ▸ hs

theorem exists_run_used {s : File N} (hs : s.outside.CallsSucceed) (hcount : s.masterKeyCount = 0)
    {k : Nat} (hk : k ≤ maxMasterKeyUsages) :
    ∃ trace u, Run (fun u call u' => Spares u call ∧ DeriveStep P u call u') ⟨s, 0, false⟩ trace u ∧ u.used = k
      ∧ u.file.masterKeyCount = k ∧ u.renewed = false ∧ u.file.outside.CallsSucceed := by
  induction k with
  | zero => exact ⟨[], _, .nil, rfl, hcount, rfl, hs⟩
  | succ k ih =>
    obtain ⟨trace, u, hrun, hused, hcount', hrenewed, hcalls⟩ := ih (by omega)
    obtain ⟨u', hstep, hused', hnext, hrenewed', hcalls'⟩ := deriveStep_succeeds (P := P) hcalls (by omega)
    have hspares : Spares u (u.file, 2) := by
      constructor <;> simp only [hrenewed, hcount', Bool.toNat_false, maxMasterKeyUsages] at hk ⊢ <;> omega
    exact ⟨_, u', hrun.snoc ⟨hspares, hstep⟩, by omega, by omega, hrenewed'.trans hrenewed, hcalls'⟩

/-- The key derives as many keys as it may, a call fails, and the next one derives from a new key. -/
theorem used_le_of_spares_renewed : ∃ s₁ trace u call₁ call₂ u',
    newFile.initSessionMasterKey platform = (true, s₁)
    ∧ Run (DeriveStep platform) ⟨s₁, 0, false⟩ trace u ∧ u.used = maxMasterKeyUsages
    ∧ Run (DeriveStep platform) ⟨s₁, 0, false⟩ (trace ++ [call₁] ++ [call₂]) u' ∧ u'.renewed = true
    ∧ u'.used ≤ maxMasterKeyUsages := by
  obtain ⟨s1, hinit, hquiet⟩ := initSessionMasterKey_spec platform (s := newFile) callsSucceed_success
  obtain ⟨trace, u, hrun, hused, hcount, hrenewed, -⟩ := exists_run_used (P := platform)
    (outside_of_quiet hquiet ▸ callsSucceed_success) (masterKeyCount_of_init hinit) (Nat.le_refl _)
  have hplain {trace u} (h : Run (fun u call u' => Spares u call ∧ DeriveStep platform u call u')
      ⟨s1, 0, false⟩ trace u) :
      Run (DeriveStep platform) ⟨s1, 0, false⟩ trace u :=
    h.invariant (I := Run (DeriveStep platform) _) .nil fun _ _ _ _ h hs => h.snoc hs.2
  -- the call for which `sgx_read_rand` fails
  let s2 := u.file.begin (failCall 0)
  have hfails : ¬s2.BlobSucceeds := fun h => Nat.one_ne_zero h.1
  obtain ⟨hrenews, hnext, -⟩ := s2.deriveRandomNodeKey_of_le platform 2 (Nat.le_of_eq hcount)
  have hnext : (s2.deriveRandomNodeKey platform 2).2.masterKeyCount = maxMasterKeyUsages + 1 := by
    rw [hnext, ← hcount]
    rfl
  have hspares : Spares u (s2, 2) := ⟨fun _ _ => hfails, fun h => absurd (hcount.symm.trans h) (by decide)⟩
  have hrun1 := hrun.snoc ⟨hspares, rfl, rfl, rfl⟩
  -- the call that makes a new key
  let s3 := (s2.deriveRandomNodeKey platform 2).2.begin success
  have hcount3 : s3.masterKeyCount = maxMasterKeyUsages + 1 := hnext
  have hspares3 {u} : Spares u (s3, 2) :=
    ⟨fun h => absurd (hcount3 ▸ h) (by decide), fun h => absurd (hcount3.symm.trans h) (by decide)⟩
  have hrun2 := hrun1.snoc ⟨hspares3, rfl, rfl, rfl⟩
  refine ⟨s1, trace, u, _, _, _, hinit, hplain hrun, hused, hplain hrun2, ?_, used_le_of_spares hinit hrun2⟩
  obtain ⟨hrenews3, -⟩ | ⟨hfails3, -⟩ := s3.deriveRandomNodeKey_of_gt platform 2 (by omega)
  . simp [hrenews3]
  . exact absurd ⟨rfl, rfl⟩ hfails3

theorem master_key_overused : ∃ s₁ trace u,
    newFile.initSessionMasterKey platform = (true, s₁)
    ∧ Run (DeriveStep platform) ⟨s₁, 0, false⟩ trace u ∧ maxMasterKeyUsages < u.used := by
  obtain ⟨s₁, hinit, hquiet⟩ := initSessionMasterKey_spec platform
    (s := newFile) callsSucceed_success
  have hcalls : s₁.outside.CallsSucceed :=
    outside_of_quiet hquiet ▸ callsSucceed_success
  obtain ⟨trace, u, hrun, hused, hcount, -, hcalls'⟩ :=
    exists_run_used (P := platform) hcalls (masterKeyCount_of_init hinit) (Nat.le_refl _)
  obtain ⟨u', hstep, hused', -⟩ := deriveStep_succeeds (P := platform) hcalls' (by omega)
  have hplain := hrun.invariant (I := Run (DeriveStep platform) _) .nil fun _ _ _ _ h hs => h.snoc hs.2
  exact ⟨s₁, _, u', hinit, hplain.snoc hstep, by omega⟩

end ProtectedFs
