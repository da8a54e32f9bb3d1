import SrasMage.ProtectedFs.Lemmas.Calls

/-!
This module contains what holds if nothing fails.
-/

namespace ProtectedFs

variable {N : Type}

def Outside.OcallsSucceed (o : Outside N) : Prop :=
  ∀ k, (o.ocall k).status = 0 ∧ (o.ocall k).result = 0

structure Outside.Succeeds (o : Outside N) : Prop where
  calls : o.CallsSucceed
  ocalls : o.OcallsSucceed

theorem Outside.OcallsSucceed.error32 {o : Outside N} (h : o.OcallsSucceed) (k : Nat) (e : Error) :
    (o.ocall k).error32 e = none := by simp [Answer.error32, h k]

theorem Outside.OcallsSucceed.error8 {o : Outside N} (h : o.OcallsSucceed) (k : Nat) (e : Error) :
    (o.ocall k).error8 e = none := by simp [Answer.error8, h k]

namespace File

structure Steady (s s' : File N) : Prop where
  fileStatus : s'.fileStatus = s.fileStatus
  outside : s'.outside = s.outside

namespace Steady

variable {s s' s'' : File N}

theorem refl (s : File N) : Steady s s := ⟨rfl, rfl⟩

theorem trans (h : Steady s s') (h' : Steady s' s'') : Steady s s'' :=
  ⟨h'.fileStatus.trans h.fileStatus, h'.outside.trans h.outside⟩

theorem succeeds (h : Steady s s') (hs : s.outside.Succeeds) : s'.outside.Succeeds :=
  h.outside ▸ hs

theorem of_quiet (h : s'.quiet = s.quiet) : Steady s s' :=
  ⟨congr_quiet h (fun _ => rfl), congr_quiet h (fun _ => rfl)⟩

end Steady

section Ocalls

variable {s : File N} (hs : s.outside.Succeeds)

include hs

theorem fwriteNode_eq_none (k : Nat) (b : N) : ∃ s', s.fwriteNode k b = (none, s') ∧ Steady s s' := by
  rw [fwriteNode, answer, hs.ocalls.error32]
  exact ⟨_, rfl, rfl, rfl⟩

theorem fflush_eq_none : ∃ s', s.fflush = (none, s') ∧ Steady s s' := by
  refine ⟨s.next, ?_, ⟨rfl, rfl⟩⟩
  rw [fflush, answer, hs.ocalls.error8]

theorem recoveryFileOpen_eq_none : ∃ s', s.recoveryFileOpen = (none, s') ∧ Steady s s' := by
  rw [recoveryFileOpen, answer, hs.ocalls.error8]
  exact ⟨_, rfl, rfl, rfl⟩

theorem writeRecoveryNode_eq_true (n : RecoveryNode N) : ∃ s', s.writeRecoveryNode n = (true, s') ∧ Steady s s' := by
  rw [writeRecoveryNode, fwriteRecoveryNode, answer, hs.ocalls.error8]
  exact ⟨_, rfl, rfl, rfl⟩

omit hs in
theorem writeRecoveryNodes_eq_true (as : List Addr) : ∀ {s : File N}, s.outside.Succeeds →
      ∃ s', s.writeRecoveryNodes as = (true, s') ∧ Steady s s' := by
  induction as with
  | nil => exact fun {s} _ => ⟨s, rfl, Steady.refl s⟩
  | cons a as ih =>
    intro s hs
    rw [writeRecoveryNodes]
    split
    . exact ih hs
    rcases writeRecoveryNode_eq_true hs (s.heap a).recoveryNode with ⟨s1, heq, hsteady⟩
    rcases ih (hsteady.succeeds hs) with ⟨s', heq', hsteady'⟩
    rw [heq]
    exact ⟨s', heq', hsteady.trans hsteady'⟩

variable (P : Platform N)

theorem writeRecoveryFile_eq_true : ∃ s', s.writeRecoveryFile P = (true, s') ∧ Steady s s' := by
  rcases recoveryFileOpen_eq_none hs with ⟨s1, h1, hsteady1⟩
  rcases writeRecoveryNodes_eq_true s1.cache.walk (hsteady1.succeeds hs) with ⟨s2, h2, hsteady2⟩
  have hs2 := (hsteady1.trans hsteady2).succeeds hs
  have hroot : ∃ s3, (if s2.rootMht.needWriting = true ∧ s2.rootMht.newNode = false then
      s2.writeRecoveryNode s2.rootMht.recoveryNode else (true, s2)) = (true, s3)
      ∧ Steady s2 s3 := by
    split
    . exact writeRecoveryNode_eq_true hs2 _
    . exact ⟨s2, rfl, Steady.refl s2⟩
  rcases hroot with ⟨s3, h3, hsteady3⟩
  rcases writeRecoveryNode_eq_true (hsteady3.succeeds hs2) ⟨0, P.packMetaData s3.fileMetaData⟩ with ⟨s4, h4, hsteady4⟩
  refine ⟨(s4.fclose eperm).2, ?_, ?_⟩
  . rw [writeRecoveryFile, h1]
    dsimp only
    rw [h2]
    dsimp only
    rw [h3]
    dsimp only
    rw [h4]
  . exact ((hsteady1.trans hsteady2).trans (hsteady3.trans hsteady4)).trans ⟨rfl, rfl⟩

theorem setUpdateFlag_eq_true (flushToDisk : Bool) :
    ∃ s', s.setUpdateFlag P flushToDisk = (true, s') ∧ Steady s s' := by
  have hs0 : (s.setFileMetaData ((s.fileMetaData.setUpdateFlag true).setUpdateFlag false)).outside.Succeeds := hs
  rcases fwriteNode_eq_none hs0 0 (P.packMetaData (s.fileMetaData.setUpdateFlag true)) with ⟨s1, h1, hsteady1⟩
  have hsteady₁' : Steady s s1 := ⟨hsteady1.fileStatus, hsteady1.outside⟩
  rcases fflush_eq_none (hsteady₁'.succeeds hs) with ⟨s2, h2, hsteady2⟩
  rw [setUpdateFlag, h1]
  dsimp only
  split
  . exact ⟨s1, rfl, hsteady₁'⟩
  rw [h2]
  exact ⟨s2, rfl, hsteady₁'.trans hsteady2⟩

omit hs in
theorem writeNodes_eq_true (as : List Addr) :
    ∀ {s : File N}, s.outside.Succeeds → ∃ s', s.writeNodes as = (true, s') ∧ Steady s s' := by
  induction as with
  | nil => exact fun {s} _ => ⟨s, rfl, Steady.refl s⟩
  | cons a as ih =>
    intro s hs
    rw [writeNodes]
    split
    . exact ih hs
    rcases fwriteNode_eq_none hs (s.heap a).physicalNodeNumber (s.heap a).encrypted with ⟨s1, heq, hsteady⟩
    have hmod : Steady s1 (s1.modifyNode a FileNode.setWritten) := ⟨rfl, rfl⟩
    rcases ih ((hsteady.trans hmod).succeeds hs) with ⟨s', heq', hsteady'⟩
    rw [heq]
    exact ⟨s', heq', (hsteady.trans hmod).trans hsteady'⟩

theorem writeChangedNodes_eq_true : ∃ s', s.writeChangedNodes = (true, s') ∧ Steady s s' := by
  rcases writeNodes_eq_true s.cache.walk hs with ⟨s1, h1, hsteady1⟩
  rcases fwriteNode_eq_none (hsteady1.succeeds hs) 1 s1.rootMht.encrypted with ⟨s2, h2, hsteady2⟩
  rw [writeChangedNodes]
  split
  . rw [h1]
    dsimp only
    rw [h2]
    exact ⟨_, rfl, (hsteady1.trans hsteady2).trans ⟨rfl, rfl⟩⟩
  . exact ⟨s, rfl, Steady.refl s⟩

theorem writeAllChangesToDisk_eq_true (flushToDisk : Bool) :
    ∃ s', s.writeAllChangesToDisk P flushToDisk = (true, s') ∧ Steady s s' := by
  rcases writeChangedNodes_eq_true hs with ⟨s1, h1, hsteady1⟩
  rcases fwriteNode_eq_none (hsteady1.succeeds hs) 0 (P.packMetaData s1.fileMetaData) with ⟨s2, h2, hsteady2⟩
  have hsteady := hsteady1.trans hsteady2
  rcases fflush_eq_none (hsteady.succeeds hs) with ⟨s3, h3, hsteady3⟩
  rw [writeAllChangesToDisk, h1]
  dsimp only
  rw [h2]
  dsimp only
  split
  . exact ⟨s2, rfl, hsteady⟩
  rw [h3]
  exact ⟨s3, rfl, hsteady.trans hsteady3⟩

end Ocalls

section Update

variable {s : File N} (hs : s.outside.Succeeds) (P : Platform N)

theorem steady_modifyMht (s : File N) (p : MhtPtr) (f : MhtNode → MhtNode) : Steady s (s.modifyMht p f) := by
  cases p <;> exact ⟨rfl, rfl⟩

variable (as : List Addr) (flushToDisk : Bool)

theorem steady_setNeedWriting : ∀ s : File N, Steady s (s.setNeedWriting as) := by
  induction as with
  | nil => exact Steady.refl
  | cons a as ih =>
    intro s
    have hmod : Steady s (s.modifyNode a FileNode.setNeedWriting) := ⟨rfl, rfl⟩
    exact hmod.trans (ih _)

theorem steady_modifyNode (s : File N) (a : Addr) (f : FileNode N → FileNode N) :
    Steady s (s.modifyNode a f) := ⟨rfl, rfl⟩

include hs

theorem updateDataNode_eq_true (a : Addr) : ∃ s', s.updateDataNode P a = (true, s') ∧ Steady s s' := by
  rcases encryptNode_spec P hs.calls (s.heap a).physicalNodeNumber
    (P.packData (s.heap a).plain.toData) with ⟨key, s1, h1, hquiet, -⟩
  rw [updateDataNode]
  dsimp only
  rw [h1]
  refine ⟨_, rfl, (Steady.of_quiet hquiet).trans ?_⟩
  apply Steady.trans _ (steady_setNeedWriting _ _)
  exact (steady_modifyNode s1 a _).trans (steady_modifyMht _ _ _)

omit hs in
theorem updateDataNodes_eq_true : ∀ {s : File N}, s.outside.Succeeds →
      ∃ s', s.updateDataNodes P as = (true, s') ∧ Steady s s' := by
  induction as with
  | nil => exact fun {s} _ => ⟨s, rfl, Steady.refl s⟩
  | cons a as ih =>
    intro s hs
    rw [updateDataNodes]
    split
    . rcases updateDataNode_eq_true hs P a with ⟨s1, heq, hsteady⟩
      rcases ih (hsteady.succeeds hs) with ⟨s', heq', hsteady'⟩
      rw [heq]
      exact ⟨s', heq', hsteady.trans hsteady'⟩
    . exact ih hs

theorem updateMhtNode_eq_true (a : Addr) : ∃ s', s.updateMhtNode P a = (true, s') ∧ Steady s s' := by
  rcases encryptNode_spec P hs.calls (s.heap a).physicalNodeNumber
    (P.packMht (s.heap a).plain.toMht) with ⟨key, s1, h1, hquiet, -⟩
  rw [updateMhtNode, h1]
  refine ⟨_, rfl, (Steady.of_quiet hquiet).trans ?_⟩
  exact (steady_modifyNode s1 a _).trans (steady_modifyMht _ _ _)

omit hs in
theorem updateMhtNodes_eq_true : ∀ {s : File N}, s.outside.Succeeds →
      ∃ s', s.updateMhtNodes P as = (true, s') ∧ Steady s s' := by
  induction as with
  | nil => exact fun {s} _ => ⟨s, rfl, Steady.refl s⟩
  | cons a as ih =>
    intro s hs
    rw [updateMhtNodes]
    rcases updateMhtNode_eq_true hs P a with ⟨s1, heq, hsteady⟩
    rcases ih (hsteady.succeeds hs) with ⟨s', heq', hsteady'⟩
    rw [heq]
    exact ⟨s', heq', hsteady.trans hsteady'⟩

theorem updateAllDataAndMhtNodes_eq_true : ∃ s', s.updateAllDataAndMhtNodes P = (true, s') ∧ Steady s s' := by
  rcases updateDataNodes_eq_true P s.cache.walk hs with ⟨s1, h1, hsteady1⟩
  rcases updateMhtNodes_eq_true P s1.mhtList (hsteady1.succeeds hs) with ⟨s2, h2, hsteady2⟩
  have hsteady := hsteady1.trans hsteady2
  rcases encryptNode_spec P (hsteady.succeeds hs).calls s2.rootMht.physicalNodeNumber
    (P.packMht s2.rootMht.plain.toMht) with ⟨key, s3, h3, hquiet, -⟩
  rw [updateAllDataAndMhtNodes, h1]
  dsimp only
  rw [updateAllMhtNodes, h2]
  dsimp only
  rw [updateRootMht, h3]
  exact ⟨_, rfl, (hsteady.trans (Steady.of_quiet hquiet)).trans ⟨rfl, rfl⟩⟩

theorem generateRandomMetaDataKey_eq_true : ∃ s', s.generateRandomMetaDataKey P = (true, s') ∧ Steady s s' := by
  have h0 := (hs.calls s.calls).1
  have h1 := (hs.calls (s.calls + 1)).1
  unfold generateRandomMetaDataKey generateSecureBlobFromUserKdk
  split
  . simp [readRand, outcome, h0, cmac, nextCall, h1]
    exact ⟨rfl, rfl⟩
  simp [readRand, outcome, h0, getKey, nextCall, h1]
  exact ⟨rfl, rfl⟩

theorem updateMetaDataNode_eq_true : ∃ s', s.updateMetaDataNode P = (true, s') ∧ Steady s s' := by
  rcases generateRandomMetaDataKey_eq_true hs P with ⟨s1, h1, hsteady⟩
  have hcall := ((hsteady.succeeds hs).calls s1.calls).1
  rw [updateMetaDataNode, h1]
  simp only [gcmEncrypt, outcome, hcall, ne_eq, not_true_eq_false, if_false]
  exact ⟨_, rfl, hsteady.trans ⟨rfl, rfl⟩⟩

theorem prepareNodes_eq_true : ∃ s', s.prepareNodes P flushToDisk = (true, s') ∧ Steady s s' := by
  rw [prepareNodes]
  split
  . rcases writeRecoveryFile_eq_true hs P with ⟨s1, h1, hsteady1⟩
    rcases setUpdateFlag_eq_true (hsteady1.succeeds hs) P flushToDisk with ⟨s2, h2, hsteady2⟩
    have hsteady := hsteady1.trans hsteady2
    rcases updateAllDataAndMhtNodes_eq_true (hsteady.succeeds hs) P with ⟨s3, h3, hsteady3⟩
    rw [h1]
    dsimp only
    rw [h2]
    dsimp only
    rw [h3]
    exact ⟨s3, rfl, hsteady.trans hsteady3⟩
  . exact ⟨s, rfl, Steady.refl s⟩

theorem finishFlush_eq_true : ∃ s', s.finishFlush P flushToDisk = (true, s') ∧ Steady s s' := by
  rcases updateMetaDataNode_eq_true hs P with ⟨s1, h1, hsteady1⟩
  rcases writeAllChangesToDisk_eq_true (hsteady1.succeeds hs) P flushToDisk with ⟨s2, h2, hsteady2⟩
  rw [finishFlush, h1]
  dsimp only
  rw [h2]
  exact ⟨_, rfl, (hsteady1.trans hsteady2).trans ⟨rfl, rfl⟩⟩

theorem internalFlush_eq_true : ∃ s', s.internalFlush P flushToDisk = (true, s') ∧ Steady s s' := by
  rw [internalFlush]
  split
  . exact ⟨s, rfl, Steady.refl s⟩
  rcases prepareNodes_eq_true hs P flushToDisk with ⟨s1, h1, hsteady1⟩
  rcases finishFlush_eq_true (hsteady1.succeeds hs) P flushToDisk with ⟨s2, h2, hsteady2⟩
  rw [h1]
  exact ⟨s2, h2, hsteady1.trans hsteady2⟩

end Update

theorem steady_evict (P : Platform N) (fuel : Nat) :
    ∀ {s : File N}, s.outside.Succeeds → Steady s (s.evict P fuel).2 := by
  induction fuel with
  | zero =>
    intro s _
    rw [evict]
    split <;> exact ⟨rfl, rfl⟩
  | succ fuel ih =>
    intro s hs
    rw [evict]
    split
    . exact Steady.refl s
    split
    . exact ⟨rfl, rfl⟩
    next a _ =>
    split
    . have hlast : Steady s (s.evictLast a) := ⟨rfl, rfl⟩
      exact hlast.trans (ih (hlast.succeeds hs))
    rcases internalFlush_eq_true hs P false with ⟨s1, h1, hsteady⟩
    rw [h1]
    exact hsteady.trans (ih (hsteady.succeeds hs))

end File
end ProtectedFs
