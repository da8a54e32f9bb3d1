import SrasMage.ProtectedFs.Lemmas.Frame
import SrasMage.ProtectedFs.Tree

/-!
This module contains what the key derivation and the encryption of a node do if no allocation and no call
into the crypto library fails.
-/

namespace ProtectedFs

variable {N : Type}

def Outside.CallsSucceed (o : Outside N) : Prop :=
  ∀ j, (o.call j).status = 0 ∧ (o.call j).rand ≠ 0

def Platform.metaDataKey (P : Platform N) (kdk : Option Key) (m : MetaDataPlain) : Key :=
  match kdk with
  | some key => P.rijndael128Cmac key ⟨1, metadataKeyName, 0, m.metaDataKeyId, 0x80⟩
  | none => P.getKey ⟨m.metaDataKeyId, m.cpuSvn, m.isvSvn⟩

structure MetaDataNode.Header (m : MetaDataNode N) (kdk : Option Key) : Prop where
  fileId : m.plainPart.fileId = sgxFileId
  majorVersion : m.plainPart.majorVersion = sgxFileMajorVersion
  useUserKdkKey : m.plainPart.useUserKdkKey = kdk.isSome
  updateFlag : m.plainPart.updateFlag = false

structure Platform.SealsMetaData (P : Platform N) (E : Key × N → Prop) (kdk : Option Key)
    (m : MetaDataNode N) (md : MetaDataEncrypted) : Prop where
  keyId : m.plainPart.metaDataKeyId ≠ 0
  seals : P.Seals E ⟨P.metaDataKey kdk m.plainPart, m.plainPart.metaDataGmac⟩ m.encryptedPart
    (P.packMetaDataEncrypted md)

def MetaDataNode.setEncrypted (m : MetaDataNode N) (c : N × Mac) : MetaDataNode N :=
  { m with encryptedPart := c.1, plainPart.metaDataGmac := c.2 }

namespace File

def quiet (s : File N) : File N :=
  { s with
    curKey := 0
    sessionMasterKey := 0
    masterKeyCount := 0
    lastError := 0
    encryptLog := []
    ocalls := 0
    calls := 0 }

section

variable (s : File N)
include s

@[simp]
theorem fileStatus_next : s.next.fileStatus = s.fileStatus := rfl

@[simp]
theorem fileStatus_nextCall : s.nextCall.fileStatus = s.fileStatus := rfl

@[simp]
theorem fileStatus_fail (e : Error) : (s.fail e).fileStatus = s.fileStatus := rfl

@[simp]
theorem fileStatus_setStatus (status : FileStatus) : (s.setStatus status).fileStatus = status := rfl

@[simp]
theorem outside_next : s.next.outside = s.outside := rfl

@[simp]
theorem outside_nextCall : s.nextCall.outside = s.outside := rfl

@[simp]
theorem ocalls_next : s.next.ocalls = s.ocalls + 1 := rfl

@[simp]
theorem ocalls_nextCall : s.nextCall.ocalls = s.ocalls := rfl

end

theorem congr_quiet {α : Type} {s s' : File N} (h : s'.quiet = s.quiet) {f : File N → α}
    (hf : ∀ u : File N, f u.quiet = f u) : f s' = f s := by rw [← hf, h, hf]

theorem outside_of_quiet {s s' : File N} (h : s'.quiet = s.quiet) : s'.outside = s.outside :=
  congr_quiet h (fun _ => rfl)

def core (s : File N) : File N := { s.quiet with host := ⟨s.host.main, none⟩, hostLog := [] }

@[simp]
theorem core_fail (s : File N) (e : Error) : (s.fail e).core = s.core := rfl

theorem core_of_quiet {s s' : File N} (h : s'.quiet = s.quiet) : s'.core = s.core :=
  congr_quiet h (fun _ => rfl)

theorem congr_core {α : Type} {s s' : File N} (h : s'.core = s.core) {f : File N → α}
    (hf : ∀ u : File N, f u.core = f u) : f s' = f s := by rw [← hf, h, hf]

variable (P : Platform N) {s : File N}

section

variable (hs : s.outside.CallsSucceed)
include hs

theorem generateSecureBlob_spec (key : Key) (label : List Char) (hlabel : label.length ≤ maxLabelLen) (n : Nat) :
    ∃ output s', s.generateSecureBlob P key label n = (some output, s') ∧ s'.quiet = s.quiet := by
  have h0 := (hs s.calls).1
  have h1 := (hs (s.calls + 1)).1
  simp [generateSecureBlob, Nat.not_lt.2 hlabel, readRand, outcome, h0, cmac, nextCall, h1]
  rfl

theorem initSessionMasterKey_spec : ∃ s', s.initSessionMasterKey P = (true, s') ∧ s'.quiet = s.quiet := by
  rcases generateSecureBlob_spec P hs 0 masterKeyName (by decide) 0 with ⟨output, s', heq, hquiet⟩
  refine ⟨_, by rw [initSessionMasterKey, heq], ?_⟩
  exact hquiet

theorem useSessionMasterKey_spec : ∃ s', s.useSessionMasterKey P = (true, s') ∧ s'.quiet = s.quiet := by
  unfold useSessionMasterKey
  split
  . exact initSessionMasterKey_spec P (s := s.countMasterKey) hs
  . exact ⟨_, rfl, rfl⟩

theorem deriveRandomNodeKey_spec (n : Nat) : ∃ s', s.deriveRandomNodeKey P n = (true, s') ∧ s'.quiet = s.quiet := by
  rcases useSessionMasterKey_spec P hs with ⟨s1, h1, hquiet1⟩
  have hs1 : s1.outside.CallsSucceed := outside_of_quiet hquiet1 ▸ hs
  rcases generateSecureBlob_spec P hs1 s1.sessionMasterKey randomKeyName (by decide) n with ⟨output, s2, h2, hquiet2⟩
  refine ⟨s2.setCurKey output, by simp [deriveRandomNodeKey, h1, h2], ?_⟩
  exact hquiet2.trans hquiet1

theorem encryptNode_spec (n : Nat) (plain : N) : ∃ key s', s.encryptNode P n plain
        = (some ((P.rijndael128GcmEncrypt key plain).1, ⟨key, (P.rijndael128GcmEncrypt key plain).2⟩), s')
      ∧ s'.quiet = s.quiet ∧ (key, plain) ∈ s'.encryptLog := by
  rcases deriveRandomNodeKey_spec P hs n with ⟨s1, h1, hquiet1⟩
  have hs1 : s1.outside.CallsSucceed := outside_of_quiet hquiet1 ▸ hs
  have hcall := (hs1 s1.calls).1
  refine ⟨s1.curKey, (s1.gcmEncrypt P s1.curKey plain).2, ?_, ?_, ?_⟩
  . simp [encryptNode, h1, gcmEncrypt, outcome, hcall, nextCall]
  . rw [← hquiet1]
    simp [gcmEncrypt, outcome, hcall, quiet, nextCall]
  . simp [gcmEncrypt, outcome, hcall, nextCall]

end

def kdk (s : File N) : Option Key := if s.useUserKdkKey then some s.userKdkKey else none

theorem generateRandomMetaDataKey_spec (hs : s.outside.CallsSucceed) (hheader : s.fileMetaData.Header s.kdk) :
    ∃ m s', s.generateRandomMetaDataKey P = (true, s') ∧ s'.quiet = (s.setFileMetaData m).quiet
      ∧ m.Header s.kdk ∧ m.plainPart.metaDataKeyId ≠ 0
      ∧ s'.curKey = P.metaDataKey s.kdk m.plainPart := by
  have h0 := hs s.calls
  have h1 := (hs (s.calls + 1)).1
  unfold generateRandomMetaDataKey generateSecureBlobFromUserKdk
  split
  . next huser =>
    simp [readRand, outcome, h0.1, cmac, nextCall, h1]
    refine ⟨_, rfl, ?_, h0.2, ?_⟩
    . exact ⟨hheader.fileId, hheader.majorVersion, hheader.useUserKdkKey, hheader.updateFlag⟩
    . simp [kdk, huser, Platform.metaDataKey, setFileMetaData, setCurKey]
  next huser =>
  simp [readRand, outcome, h0.1, getKey, nextCall, h1]
  refine ⟨_, rfl, ?_, h0.2, ?_⟩
  . exact ⟨hheader.fileId, hheader.majorVersion, hheader.useUserKdkKey, hheader.updateFlag⟩
  . simp [kdk, huser, Platform.metaDataKey, setFileMetaData, setCurKey]

theorem updateMetaDataNode_spec {E : Key × N → Prop} (hs : s.outside.CallsSucceed)
    (hheader : s.fileMetaData.Header s.kdk)
    (hE : ∀ e ∈ (s.updateMetaDataNode P).2.encryptLog, E e) :
    ∃ m s', s.updateMetaDataNode P = (true, s') ∧ s'.quiet = (s.setFileMetaData m).quiet
      ∧ m.Header s.kdk ∧ P.SealsMetaData E s.kdk m s.encryptedPartPlain := by
  rcases generateRandomMetaDataKey_spec P hs hheader with ⟨m, s1, h1, hquiet, hm, hkeyId, hkey⟩
  have hs1 : s1.outside.CallsSucceed := outside_of_quiet hquiet ▸ hs
  have hcall := (hs1 s1.calls).1
  have hmd : s1.encryptedPartPlain = s.encryptedPartPlain :=
    (congrArg File.encryptedPartPlain hquiet :)
  have hfile : s1.fileMetaData = m :=
    (congrArg File.fileMetaData hquiet :)
  let plain := P.packMetaDataEncrypted s.encryptedPartPlain
  let m' := m.setEncrypted (P.rijndael128GcmEncrypt s1.curKey plain)
  have heq : s.updateMetaDataNode P = (true, (s1.gcmEncrypt P s1.curKey plain).2.setFileMetaData m') := by
    simp [updateMetaDataNode, h1, gcmEncrypt, outcome, hcall, nextCall, hmd, hfile,
      MetaDataNode.setEncrypted, m', plain]
  refine ⟨m', _, heq, ?_, ?_, hkeyId, ?_⟩
  . have henc : (s1.gcmEncrypt P s1.curKey plain).2.quiet = s1.quiet := by
      simp [gcmEncrypt, outcome, hcall, quiet, nextCall]
    change ((s1.gcmEncrypt P s1.curKey plain).2.quiet).setFileMetaData m' = _
    rw [henc, hquiet]
    rfl
  . exact ⟨hm.fileId, hm.majorVersion, hm.useUserKdkKey, hm.updateFlag⟩
  . have hlog : (s1.curKey, plain) ∈ (s.updateMetaDataNode P).2.encryptLog := by
      simp [heq, gcmEncrypt, outcome, hcall, nextCall, setFileMetaData]
    have hkey' : P.metaDataKey s.kdk m'.plainPart = s1.curKey := hkey.symm
    rw [hkey']
    exact ⟨hE _ hlog, rfl⟩

end File
end ProtectedFs
