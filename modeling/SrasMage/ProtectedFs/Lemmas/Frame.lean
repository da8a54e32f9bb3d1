import SrasMage.ProtectedFs.Impl.Run

/-!
This module contains what a flush leaves alone.
-/

namespace ProtectedFs

variable {N : Type}

def FileNode.shape (n : FileNode N) : Nat × MhtPtr × Nat × Bool :=
  (n.number, n.parent, n.physicalNodeNumber, n.plain.isData)

namespace FileNode

@[simp]
theorem shape_setNeedWriting (n : FileNode N) : n.setNeedWriting.shape = n.shape := rfl

@[simp]
theorem shape_setWritten (n : FileNode N) : n.setWritten.shape = n.shape := rfl

@[simp]
theorem shape_setEncrypted (c : N) (n : FileNode N) : (n.setEncrypted c).shape = n.shape := rfl

theorem shape_setPlain {f : Plain → Plain} (h : ∀ p, (f p).isData = p.isData) (n : FileNode N) :
    (n.setPlain (f n.plain)).shape = n.shape := by simp [shape, setPlain, h]

end FileNode

@[simp]
theorem Plain.isData_mapMht (f : MhtNode → MhtNode) (p : Plain) : (p.mapMht f).isData = p.isData := by
  cases p <;> rfl

@[simp]
theorem Plain.isData_mapData (f : DataNode → DataNode) (p : Plain) : (p.mapData f).isData = p.isData := by
  cases p <;> rfl

@[simp]
theorem Plain.isData_scrub (p : Plain) : p.scrub.isData = p.isData := by
  cases p <;> rfl

namespace File

structure Fixed (N : Type) where
  offset : Nat
  size : Nat
  data : Fin mdUserDataSize → UInt8
  cleanFilename : List Char
  endOfFile : Bool
  openMode : OpenMode
  useUserKdkKey : Bool
  userKdkKey : Key
  report : Report
  outside : Outside N
  diverged : Bool

def fixed (s : File N) : Fixed N where
  offset := s.offset
  size := s.encryptedPartPlain.size
  data := s.encryptedPartPlain.data
  cleanFilename := s.encryptedPartPlain.cleanFilename
  endOfFile := s.endOfFile
  openMode := s.openMode
  useUserKdkKey := s.useUserKdkKey
  userKdkKey := s.userKdkKey
  report := s.report
  outside := s.outside
  diverged := s.diverged

structure SameNodes (s s' : File N) : Prop where
  cache : s'.cache = s.cache
  nextAddr : s'.nextAddr = s.nextAddr
  shape : ∀ a, (s'.heap a).shape = (s.heap a).shape

theorem SameNodes.trans {s s' s'' : File N} (h : SameNodes s s') (h' : SameNodes s' s'') : SameNodes s s'' where
  cache := h'.cache.trans h.cache
  nextAddr := h'.nextAddr.trans h.nextAddr
  shape a := (h'.shape a).trans (h.shape a)

structure Frame (s s' : File N) : Prop where
  nodes : SameNodes s s'
  rootShape : s'.rootMht.shape = s.rootMht.shape
  fixed : s'.fixed = s.fixed
  log : s.encryptLog ⊆ s'.encryptLog

namespace Frame

variable {s s' : File N}

theorem refl (s : File N) : Frame s s :=
  ⟨⟨rfl, rfl, fun _ => rfl⟩, rfl, rfl, List.Subset.refl _⟩

theorem trans {s s' s'' : File N} (h : Frame s s') (h' : Frame s' s'') : Frame s s'' where
  nodes := h.nodes.trans h'.nodes
  rootShape := h'.rootShape.trans h.rootShape
  fixed := h'.fixed.trans h.fixed
  log := List.Subset.trans h.log h'.log

theorem snd {α : Type} {r : α × File N} {x : α} (hr : Frame s r.2) (h : r = (x, s')) : Frame s s' := by
  rwa [h] at hr

theorem cache (h : Frame s s') : s'.cache = s.cache := h.nodes.cache

theorem offset (h : Frame s s') : s'.offset = s.offset :=
  congrArg Fixed.offset h.fixed

theorem size (h : Frame s s') : s'.encryptedPartPlain.size = s.encryptedPartPlain.size :=
  congrArg Fixed.size h.fixed

theorem outside (h : Frame s s') : s'.outside = s.outside :=
  congrArg Fixed.outside h.fixed

theorem openMode (h : Frame s s') : s'.openMode = s.openMode :=
  congrArg Fixed.openMode h.fixed

end Frame

theorem log_of_match {E : Key × N → Prop} {res : Bool × File N} {next : File N → Bool × File N}
    (hnext : ∀ s, Frame s (next s).2)
    (hE : ∀ e ∈ (match res with | (false, s) => (false, s) | (true, s) => next s).2.encryptLog, E e) :
    ∀ e ∈ res.2.encryptLog, E e := by
  intro e he
  apply hE
  rcases res with ⟨_ | _, s⟩
  . exact he
  . exact (hnext s).log he

def view (s : File N) := (s.cache, s.nextAddr, s.heap, s.rootMht, s.fixed, s.encryptLog)

theorem Frame.of_view {s s' : File N} (h : s'.view = s.view) : Frame s s' := by
  simp only [view, Prod.mk.injEq] at h
  rcases h with ⟨hcache, hnext, hheap, hroot, hfixed, hlog⟩
  refine ⟨⟨hcache, hnext, fun a => by rw [hheap]⟩, by rw [hroot], hfixed, ?_⟩
  rw [hlog]
  exact List.Subset.refl _

section Calls

variable (P : Platform N) (s : File N)

theorem frame_fail (e : Error) : Frame s (s.fail e) := Frame.of_view rfl

theorem frame_next : Frame s s.next := Frame.of_view rfl

theorem frame_nextCall : Frame s s.nextCall := Frame.of_view rfl

theorem frame_setStatus (status : FileStatus) : Frame s (s.setStatus status) := Frame.of_view rfl

theorem frame_setFileMetaData (m : MetaDataNode N) : Frame s (s.setFileMetaData m) :=
  Frame.of_view rfl

theorem frame_setNeedWritingFlag (b : Bool) : Frame s (s.setNeedWritingFlag b) := Frame.of_view rfl

theorem frame_emit (e : HostEvent N) : Frame s (s.emit e) := Frame.of_view rfl

theorem frame_modifyNode (a : Addr) {f : FileNode N → FileNode N}
    (h : ∀ n : FileNode N, (f n).shape = n.shape) : Frame s (s.modifyNode a f) := by
  refine ⟨⟨rfl, rfl, fun b => ?_⟩, rfl, rfl, List.Subset.refl _⟩
  by_cases hb : b = a
  . subst hb
    simp [modifyNode, setNode, h]
  . simp [modifyNode, setNode, hb]

theorem frame_fwriteNode (k : Nat) (b : N) : Frame s (s.fwriteNode k b).2 := by
  unfold fwriteNode
  split
  . exact Frame.of_view rfl
  . split <;> exact Frame.of_view rfl

theorem frame_fflush : Frame s s.fflush.2 := Frame.of_view rfl

theorem frame_fclose (e : Error) : Frame s (s.fclose e).2 := Frame.of_view rfl

theorem frame_recoveryFileOpen : Frame s s.recoveryFileOpen.2 := by
  unfold recoveryFileOpen
  split <;> exact Frame.of_view rfl

theorem frame_fwriteRecoveryNode (n : RecoveryNode N) : Frame s (s.fwriteRecoveryNode n).2 := by
  unfold fwriteRecoveryNode
  split <;> exact Frame.of_view rfl

theorem frame_removeRecoveryFile : Frame s s.removeRecoveryFile := by
  unfold removeRecoveryFile
  split <;> exact Frame.of_view rfl

theorem frame_gcmEncrypt (k : Key) (b : N) : Frame s (s.gcmEncrypt P k b).2 := by
  unfold gcmEncrypt
  split
  . exact Frame.of_view rfl
  . exact ⟨⟨rfl, rfl, fun _ => rfl⟩, rfl, rfl, List.subset_append_left _ _⟩

theorem frame_readRand : Frame s s.readRand.2 := Frame.of_view rfl

theorem frame_cmac (k : Key) (input : KdfInput) : Frame s (s.cmac P k input).2 := Frame.of_view rfl

theorem frame_getKey (r : KeyRequest) : Frame s (s.getKey P r).2 := Frame.of_view rfl

end Calls

section Crypto

variable (P : Platform N) (s : File N)

theorem frame_generateSecureBlob (k : Key) (label : List Char) (n : Nat) :
    Frame s (s.generateSecureBlob P k label n).2 := by
  unfold generateSecureBlob
  split
  . exact frame_fail s _
  split
  . next h => exact ((frame_readRand s).snd h).trans (frame_fail _ _)
  next h =>
  have hread := (frame_readRand s).snd h
  split
  . next h' => exact hread.trans (((frame_cmac P _ _ _).snd h').trans (frame_fail _ _))
  . next h' => exact hread.trans ((frame_cmac P _ _ _).snd h')

theorem frame_initSessionMasterKey : Frame s (s.initSessionMasterKey P).2 := by
  unfold initSessionMasterKey
  split
  . next h => exact (frame_generateSecureBlob P s _ _ _).snd h
  . next h => exact ((frame_generateSecureBlob P s _ _ _).snd h).trans (Frame.of_view rfl)

theorem frame_useSessionMasterKey : Frame s (s.useSessionMasterKey P).2 := by
  have hcount : Frame s s.countMasterKey := Frame.of_view rfl
  unfold useSessionMasterKey
  split
  . exact hcount.trans (frame_initSessionMasterKey P _)
  . exact hcount

theorem frame_deriveRandomNodeKey (n : Nat) : Frame s (s.deriveRandomNodeKey P n).2 := by
  unfold deriveRandomNodeKey
  split
  . next h => exact (frame_useSessionMasterKey P s).snd h
  next h =>
  have hmaster := (frame_useSessionMasterKey P s).snd h
  split
  . next h' => exact hmaster.trans ((frame_generateSecureBlob P _ _ _ _).snd h')
  next h' =>
  exact hmaster.trans (((frame_generateSecureBlob P _ _ _ _).snd h').trans (Frame.of_view rfl))

theorem frame_generateSecureBlobFromUserKdk (restore : Bool) :
    Frame s (s.generateSecureBlobFromUserKdk P restore).2 := by
  unfold generateSecureBlobFromUserKdk
  have hnonce : Frame s (if restore = true then
      (Except.ok s.fileMetaData.plainPart.metaDataKeyId, s) else s.readRand).2 := by
    split
    . exact Frame.refl s
    . exact frame_readRand s
  split
  . next h => exact (hnonce.snd h).trans (frame_fail _ _)
  next h =>
  have hread := hnonce.snd h
  split
  . next h' => exact hread.trans (((frame_cmac P _ _ _).snd h').trans (frame_fail _ _))
  next h' =>
  have hcmac := hread.trans ((frame_cmac P _ _ _).snd h')
  dsimp only
  split <;> exact hcmac.trans (Frame.of_view rfl)

theorem frame_generateRandomMetaDataKey : Frame s (s.generateRandomMetaDataKey P).2 := by
  unfold generateRandomMetaDataKey
  split
  . exact frame_generateSecureBlobFromUserKdk P s false
  split
  . next h => exact ((frame_readRand s).snd h).trans (frame_fail _ _)
  next h =>
  have hread := (frame_readRand s).snd h
  split
  . next h' => exact hread.trans (((frame_getKey P _ _).snd h').trans (frame_fail _ _))
  . next h' => exact hread.trans (((frame_getKey P _ _).snd h').trans (Frame.of_view rfl))

theorem frame_restoreCurrentMetaDataKey (importKey : Option Key) :
    Frame s (s.restoreCurrentMetaDataKey P importKey).2 := by
  unfold restoreCurrentMetaDataKey
  split
  . exact Frame.of_view rfl
  split
  . exact frame_generateSecureBlobFromUserKdk P s true
  dsimp only
  split
  . exact frame_fail s _
  split
  . next h => exact ((frame_getKey P _ _).snd h).trans (frame_fail _ _)
  . next h => exact ((frame_getKey P _ _).snd h).trans (Frame.of_view rfl)

theorem frame_encryptNode (n : Nat) (b : N) : Frame s (s.encryptNode P n b).2 := by
  unfold encryptNode
  split
  . next h => exact (frame_deriveRandomNodeKey P s n).snd h
  next h =>
  have hderive := (frame_deriveRandomNodeKey P s n).snd h
  split
  . next h' => exact hderive.trans (((frame_gcmEncrypt P _ _ _).snd h').trans (frame_fail _ _))
  . next h' => exact hderive.trans ((frame_gcmEncrypt P _ _ _).snd h')

end Crypto

section Flush

variable (P : Platform N)

variable (s : File N) (as : List Addr) (flushToDisk : Bool) (a : Addr)

theorem frame_setNeedWriting : ∀ s : File N, Frame s (s.setNeedWriting as) := by
  induction as with
  | nil => exact Frame.refl
  | cons a as ih =>
    intro s
    exact (frame_modifyNode s a FileNode.shape_setNeedWriting).trans (ih _)

theorem frame_markDirty : Frame s (s.markDirty a) := by
  unfold markDirty
  split
  . exact Frame.refl s
  apply (frame_modifyNode s a FileNode.shape_setNeedWriting).trans
  apply (frame_setNeedWriting _ _).trans
  exact ⟨⟨rfl, rfl, fun _ => rfl⟩, rfl, rfl, List.Subset.refl _⟩

theorem sameNodes_storeData (data : Nat → UInt8) (n : Nat) : SameNodes s (s.storeData a data n) := by
  have hplain := frame_modifyNode s a (FileNode.shape_setPlain
    (Plain.isData_mapData (fun d => memcpy d ((s.offset - mdUserDataSize) % nodeSize) n data)))
  exact hplain.nodes.trans ⟨rfl, rfl, fun _ => rfl⟩

theorem frame_writeRecoveryNode (n : RecoveryNode N) : Frame s (s.writeRecoveryNode n).2 := by
  unfold writeRecoveryNode
  split
  . next h => exact (frame_fwriteRecoveryNode s n).snd h
  next h =>
  apply ((frame_fwriteRecoveryNode s n).snd h).trans
  apply (frame_fclose _ _).trans
  apply (frame_removeRecoveryFile _).trans
  apply frame_fail

theorem frame_writeRecoveryNodes : ∀ s : File N, Frame s (s.writeRecoveryNodes as).2 := by
  induction as with
  | nil => exact Frame.refl
  | cons a as ih =>
    intro s
    rw [writeRecoveryNodes]
    split
    . exact ih s
    split
    . next h => exact (frame_writeRecoveryNode s _).snd h
    . next h => exact ((frame_writeRecoveryNode s _).snd h).trans (ih _)

theorem frame_writeRecoveryFile : Frame s (s.writeRecoveryFile P).2 := by
  unfold writeRecoveryFile
  split
  . next h => exact ((frame_recoveryFileOpen s).snd h).trans (frame_fail _ _)
  next s1 h =>
  have h1 := (frame_recoveryFileOpen s).snd h
  split
  . next h' => exact h1.trans ((frame_writeRecoveryNodes _ _).snd h')
  next s2 h' =>
  have h2 := h1.trans ((frame_writeRecoveryNodes _ _).snd h')
  have hroot : Frame s2 (if s2.rootMht.needWriting = true ∧ s2.rootMht.newNode = false then
      s2.writeRecoveryNode s2.rootMht.recoveryNode else (true, s2)).2 := by
    split
    . exact frame_writeRecoveryNode _ _
    . exact Frame.refl _
  split
  . next h'' => exact h2.trans (hroot.snd h'')
  next h'' =>
  have h3 := h2.trans (hroot.snd h'')
  split
  . next hmd => exact h3.trans ((frame_writeRecoveryNode _ _).snd hmd)
  . next hmd =>
    exact h3.trans (((frame_writeRecoveryNode _ _).snd hmd).trans (frame_fclose _ eperm))

theorem frame_setUpdateFlag : Frame s (s.setUpdateFlag P flushToDisk).2 := by
  unfold setUpdateFlag
  dsimp only
  have hmd := frame_setFileMetaData s ((s.fileMetaData.setUpdateFlag true).setUpdateFlag false)
  split
  . next h => exact hmd.trans (((frame_fwriteNode _ _ _).snd h).trans (frame_fail _ _))
  next h =>
  have hwrite := hmd.trans ((frame_fwriteNode _ _ _).snd h)
  split
  . exact hwrite
  split
  . next h' => exact hwrite.trans ((frame_fflush _).snd h')
  next h' =>
  apply (hwrite.trans ((frame_fflush _).snd h')).trans
  exact (frame_fail _ _).trans (frame_fwriteNode _ _ _)

theorem frame_clearUpdateFlag : Frame s (s.clearUpdateFlag P) :=
  (frame_fwriteNode s _ _).trans (frame_fflush _)

theorem frame_modifyMhtNode (p : MhtPtr) {f : FileNode N → FileNode N}
    (h : ∀ n : FileNode N, (f n).shape = n.shape) : Frame s (s.modifyMhtNode p f) := by
  cases p with
  | root => exact ⟨⟨rfl, rfl, fun _ => rfl⟩, h _, rfl, List.Subset.refl _⟩
  | node a => exact frame_modifyNode s a h

theorem shape_mhtNode {s s' : File N} (h : Frame s s') (p : MhtPtr) : (s'.mhtNode p).shape = (s.mhtNode p).shape := by
  cases p with
  | root => exact h.rootShape
  | node a => exact h.nodes.shape a

theorem frame_modifyMht (p : MhtPtr) (f : MhtNode → MhtNode) : Frame s (s.modifyMht p f) := by
  exact frame_modifyMhtNode s p (FileNode.shape_setPlain (Plain.isData_mapMht f))

theorem frame_updateDataNode : Frame s (s.updateDataNode P a).2 := by
  unfold updateDataNode
  dsimp only
  split
  . next h => exact (frame_encryptNode P s _ _).snd h
  next h =>
  apply ((frame_encryptNode P s _ _).snd h).trans
  apply (frame_modifyNode _ a (FileNode.shape_setEncrypted _)).trans
  exact (frame_modifyMht _ _ _).trans (frame_setNeedWriting _ _)

theorem frame_updateDataNodes : ∀ s : File N, Frame s (s.updateDataNodes P as).2 := by
  induction as with
  | nil => exact Frame.refl
  | cons a as ih =>
    intro s
    rw [updateDataNodes]
    split
    . split
      . next h => exact (frame_updateDataNode P s a).snd h
      . next h => exact ((frame_updateDataNode P s a).snd h).trans (ih _)
    . exact ih s

theorem frame_updateMhtNode : Frame s (s.updateMhtNode P a).2 := by
  unfold updateMhtNode
  dsimp only
  split
  . next h => exact (frame_encryptNode P s _ _).snd h
  next h =>
  apply ((frame_encryptNode P s _ _).snd h).trans
  exact (frame_modifyNode _ a (FileNode.shape_setEncrypted _)).trans (frame_modifyMht _ _ _)

theorem frame_updateMhtNodes : ∀ s : File N, Frame s (s.updateMhtNodes P as).2 := by
  induction as with
  | nil => exact Frame.refl
  | cons a as ih =>
    intro s
    rw [updateMhtNodes]
    split
    . next h => exact (frame_updateMhtNode P s a).snd h
    . next h => exact ((frame_updateMhtNode P s a).snd h).trans (ih _)

theorem frame_updateRootMht : Frame s (s.updateRootMht P).2 := by
  unfold updateRootMht
  split
  . next h => exact (frame_encryptNode P s _ _).snd h
  next h =>
  apply ((frame_encryptNode P s _ _).snd h).trans
  exact ⟨⟨rfl, rfl, fun _ => rfl⟩, rfl, rfl, List.Subset.refl _⟩

theorem frame_updateAllMhtNodes : Frame s (s.updateAllMhtNodes P).2 := by
  unfold updateAllMhtNodes
  split
  . next h => exact (frame_updateMhtNodes P _ s).snd h
  . next h => exact ((frame_updateMhtNodes P _ s).snd h).trans (frame_updateRootMht P _)

theorem frame_updateAllDataAndMhtNodes : Frame s (s.updateAllDataAndMhtNodes P).2 := by
  unfold updateAllDataAndMhtNodes
  split
  . next h => exact (frame_updateDataNodes P _ s).snd h
  . next h => exact ((frame_updateDataNodes P _ s).snd h).trans (frame_updateAllMhtNodes P _)

theorem frame_updateMetaDataNode : Frame s (s.updateMetaDataNode P).2 := by
  unfold updateMetaDataNode
  split
  . next h => exact (frame_generateRandomMetaDataKey P s).snd h
  next h =>
  have hkey := (frame_generateRandomMetaDataKey P s).snd h
  split
  . next h' => exact hkey.trans (((frame_gcmEncrypt P _ _ _).snd h').trans (frame_fail _ _))
  . next h' =>
    exact hkey.trans (((frame_gcmEncrypt P _ _ _).snd h').trans (frame_setFileMetaData _ _))

theorem frame_writeNodes : ∀ s : File N, Frame s (s.writeNodes as).2 := by
  induction as with
  | nil => exact Frame.refl
  | cons a as ih =>
    intro s
    rw [writeNodes]
    split
    . exact ih s
    split
    . next h => exact ((frame_fwriteNode s _ _).snd h).trans (frame_fail _ _)
    next h =>
    apply ((frame_fwriteNode s _ _).snd h).trans
    exact (frame_modifyNode _ a FileNode.shape_setWritten).trans (ih _)

theorem frame_writeChangedNodes : Frame s s.writeChangedNodes.2 := by
  unfold writeChangedNodes
  split
  . split
    . next h => exact (frame_writeNodes _ s).snd h
    next h =>
    have hnodes := (frame_writeNodes _ s).snd h
    split
    . next h' => exact hnodes.trans (((frame_fwriteNode _ _ _).snd h').trans (frame_fail _ _))
    next h' =>
    apply (hnodes.trans ((frame_fwriteNode _ _ _).snd h')).trans
    exact ⟨⟨rfl, rfl, fun _ => rfl⟩, rfl, rfl, List.Subset.refl _⟩
  . exact Frame.refl s

theorem frame_writeAllChangesToDisk : Frame s (s.writeAllChangesToDisk P flushToDisk).2 := by
  unfold writeAllChangesToDisk
  split
  . next h => exact (frame_writeChangedNodes s).snd h
  next h =>
  have hnodes := (frame_writeChangedNodes s).snd h
  split
  . next h' => exact hnodes.trans (((frame_fwriteNode _ _ _).snd h').trans (frame_fail _ _))
  next h' =>
  have hmd := hnodes.trans ((frame_fwriteNode _ _ _).snd h')
  split
  . exact hmd
  split
  . next h'' => exact hmd.trans (((frame_fflush _).snd h'').trans (frame_fail _ _))
  . next h'' => exact hmd.trans ((frame_fflush _).snd h'')

theorem frame_prepareNodes : Frame s (s.prepareNodes P flushToDisk).2 := by
  unfold prepareNodes
  split
  . split
    . next h => exact ((frame_writeRecoveryFile P s).snd h).trans (frame_setStatus _ _)
    next h =>
    have hrec := (frame_writeRecoveryFile P s).snd h
    split
    . next h' => exact hrec.trans (((frame_setUpdateFlag P _ _).snd h').trans (frame_setStatus _ _))
    next h' =>
    have hflag := hrec.trans ((frame_setUpdateFlag P _ _).snd h')
    split
    . next h'' =>
      apply (hflag.trans ((frame_updateAllDataAndMhtNodes P _).snd h'')).trans
      exact (frame_clearUpdateFlag P _).trans (frame_setStatus _ _)
    . next h'' => exact hflag.trans ((frame_updateAllDataAndMhtNodes P _).snd h'')
  . exact Frame.refl s

theorem frame_finishFlush : Frame s (s.finishFlush P flushToDisk).2 := by
  unfold finishFlush
  split
  . next h =>
    apply ((frame_updateMetaDataNode P s).snd h).trans
    exact (frame_clearUpdateFlag P _).trans (frame_setStatus _ _)
  next h =>
  have hmd := (frame_updateMetaDataNode P s).snd h
  split
  . next h' =>
    exact hmd.trans (((frame_writeAllChangesToDisk P _ _).snd h').trans (frame_setStatus _ _))
  next h' =>
  exact hmd.trans (((frame_writeAllChangesToDisk P _ _).snd h').trans (frame_setNeedWritingFlag _ _))

theorem frame_internalFlush : Frame s (s.internalFlush P flushToDisk).2 := by
  unfold internalFlush
  split
  . exact Frame.refl s
  split
  . next h => exact (frame_prepareNodes P s flushToDisk).snd h
  . next h =>
    exact ((frame_prepareNodes P s flushToDisk).snd h).trans (frame_finishFlush P _ _)

theorem frame_flush : Frame s (s.flush P).2 := by
  unfold flush
  split
  . exact frame_fail s _
  split
  . next h => exact (frame_internalFlush P s true).snd h
  next h =>
  have hflush := (frame_internalFlush P s true).snd h
  split
  . exact hflush.trans (frame_setStatus _ _)
  . exact hflush

theorem frame_repairFlush : Frame s (s.repairFlush P) := by
  unfold repairFlush
  split
  . split
    . next h => exact ((frame_internalFlush P s true).snd h).trans (frame_setStatus _ _)
    . next h => exact (frame_internalFlush P s true).snd h
  . exact Frame.refl s

theorem frame_repairWrite : Frame s (s.repairWrite P) := by
  unfold repairWrite
  split
  . split
    . next h =>
      apply ((frame_writeAllChangesToDisk P _ true).snd h).trans
      exact (frame_setNeedWritingFlag _ _).trans (frame_setStatus _ _)
    . next h => exact (frame_writeAllChangesToDisk P _ true).snd h
  . exact Frame.refl s

theorem frame_repair : Frame s (s.repair P) :=
  (frame_repairFlush P s).trans (frame_repairWrite P _)

theorem frame_setFile (b : Bool) : Frame s (s.setFile b) := Frame.of_view rfl

theorem frame_closeFile : Frame s s.closeFile.2 := by
  unfold closeFile
  split
  . split
    . next h => exact ((frame_fclose s _).snd h).trans (frame_setFile _ _)
    . next h => exact ((frame_fclose s _).snd h).trans ((frame_fail _ _).trans (frame_setFile _ _))
  . exact Frame.refl s

theorem frame_eraseRecoveryFile : Frame s s.eraseRecoveryFile := by
  unfold eraseRecoveryFile
  split
  . exact frame_removeRecoveryFile s
  . exact Frame.refl s

theorem frame_exportMetaDataKey (exportKey : Bool) : Frame s (s.exportMetaDataKey P exportKey).2 := by
  unfold exportMetaDataKey
  split
  . exact Frame.refl s
  split
  . exact Frame.refl s
  split
  . next h => exact (frame_restoreCurrentMetaDataKey P s none).snd h
  . next h => exact (frame_restoreCurrentMetaDataKey P s none).snd h

theorem clearError_eq : Frame s (s.clearError P) ∨ ∃ t, Frame s t ∧ s.clearError P = t.setEof false := by
  unfold clearError
  split
  all_goals try exact .inl (Frame.refl s)
  all_goals
    dsimp only
    split
    . exact .inr ⟨_, (frame_repair P s).trans (frame_fail _ 0), rfl⟩
    . exact .inl (frame_repair P s)

end Flush

end File
end ProtectedFs
