import SrasMage.ProtectedFs.Lemmas.WriteOut

/-!
This module contains the specification of `internal_flush`.
-/

namespace ProtectedFs

open File

variable {N : Type}

namespace File

variable {P : Platform N} {E : Key × N → Prop} {s s' : File N} {t : Tree}

theorem Frame.kdk (h : Frame s s') : s'.kdk = s.kdk := by
  have huse : s'.useUserKdkKey = s.useUserKdkKey := congrArg Fixed.useUserKdkKey h.fixed
  have hkey : s'.userKdkKey = s.userKdkKey := congrArg Fixed.userKdkKey h.fixed
  rw [File.kdk, File.kdk, huse, hkey]

structure Saved (P : Platform N) (E : Key × N → Prop) (s : File N) : Prop where
  onDisk : MetaOnDisk P s
  seals : P.SealsMetaData E s.kdk s.fileMetaData s.encryptedPartPlain

structure Ready (P : Platform N) (E : Key × N → Prop) (s : File N) (t : Tree) : Prop where
  holds : Holds P E s t
  closed : Closed s
  header : s.fileMetaData.Header s.kdk
  saved : s.needWriting = false → Saved P E s
  cipher : ∀ i n, s.node? i = some n → n.newNode = false → s.SameCipher i n

structure Flushed (P : Platform N) (E : Key × N → Prop) (s : File N) (t : Tree) : Prop where
  ready : Ready P E s t
  needWriting : s.needWriting = false

structure Stuck (P : Platform N) (E : Key × N → Prop) (s : File N) (t : Tree) : Prop where
  sealed : Sealed P E s t
  header : s.fileMetaData.Header s.kdk
  seals : P.SealsMetaData E s.kdk s.fileMetaData s.encryptedPartPlain

theorem Ready.not_dirty (hs : Ready P E s t) (h : s.needWriting = false) (i : NodeId) : ¬ s.Dirty i := by
  intro hi
  have := hs.closed.flag (hs.closed.root i hi)
  rw [h] at this
  cases this

section Recovery

@[simp]
theorem core_recoveryFileOpen (s : File N) : s.recoveryFileOpen.2.core = s.core := by
  unfold recoveryFileOpen
  split <;> rfl

@[simp]
theorem core_fwriteRecoveryNode (s : File N) (n : RecoveryNode N) : (s.fwriteRecoveryNode n).2.core = s.core := by
  unfold fwriteRecoveryNode
  split <;> rfl

@[simp]
theorem core_removeRecoveryFile (s : File N) : s.removeRecoveryFile.core = s.core := by
  unfold removeRecoveryFile
  split <;> rfl

@[simp]
theorem core_fclose (s : File N) (e : Error) : (s.fclose e).2.core = s.core := rfl

@[simp]
theorem core_fflush (s : File N) : s.fflush.2.core = s.core := rfl

theorem core_writeRecoveryNode (s : File N) (n : RecoveryNode N) : (s.writeRecoveryNode n).2.core = s.core := by
  have h := core_fwriteRecoveryNode s n
  unfold writeRecoveryNode
  generalize s.fwriteRecoveryNode n = res at h ⊢
  rcases res with ⟨_ | e, s'⟩
  . exact h
  . simpa using h

theorem core_writeRecoveryNodes (as : List Addr) : ∀ s : File N, (s.writeRecoveryNodes as).2.core = s.core := by
  induction as with
  | nil =>
    intro s
    rfl
  | cons a as ih =>
    intro s
    rw [writeRecoveryNodes]
    split
    . exact ih s
    have h := core_writeRecoveryNode s (s.heap a).recoveryNode
    generalize s.writeRecoveryNode (s.heap a).recoveryNode = res at h ⊢
    rcases res with ⟨_ | _, s'⟩
    . exact h
    . exact (ih s').trans h

theorem core_writeRecoveryFile (P : Platform N) (s : File N) : (s.writeRecoveryFile P).2.core = s.core := by
  have hopen := core_recoveryFileOpen s
  unfold writeRecoveryFile
  generalize s.recoveryFileOpen = res at hopen ⊢
  rcases res with ⟨_ | e, s1⟩
  . have hnodes := core_writeRecoveryNodes s1.cache.walk s1
    dsimp only at hopen ⊢
    generalize s1.writeRecoveryNodes s1.cache.walk = res at hnodes ⊢
    rcases res with ⟨_ | _, s2⟩
    . exact hnodes.trans hopen
    have hroot : (if s2.rootMht.needWriting = true ∧ s2.rootMht.newNode = false then
        s2.writeRecoveryNode s2.rootMht.recoveryNode else (true, s2)).2.core = s2.core := by
      split
      . exact core_writeRecoveryNode s2 _
      . rfl
    dsimp only at hnodes ⊢
    generalize (if s2.rootMht.needWriting = true ∧ s2.rootMht.newNode = false then
        s2.writeRecoveryNode s2.rootMht.recoveryNode else (true, s2)) = res at hroot ⊢
    rcases res with ⟨_ | _, s3⟩
    . exact hroot.trans (hnodes.trans hopen)
    have hmeta := core_writeRecoveryNode s3 ⟨0, P.packMetaData s3.fileMetaData⟩
    dsimp only at hroot ⊢
    generalize s3.writeRecoveryNode ⟨0, P.packMetaData s3.fileMetaData⟩ = res at hmeta ⊢
    rcases res with ⟨_ | _, s4⟩
    . exact hmeta.trans (hroot.trans (hnodes.trans hopen))
    . exact hmeta.trans (hroot.trans (hnodes.trans hopen))
  . exact hopen

theorem beneath_setUpdateFlag (hflag : s.fileMetaData.plainPart.updateFlag = false)
    (flushToDisk : Bool) : (s.setUpdateFlag P flushToDisk).2.beneath P = s.beneath P := by
  have hself : (s.fileMetaData.setUpdateFlag true).setUpdateFlag false = s.fileMetaData := by
    simp [MetaDataNode.setUpdateFlag, ← hflag]
  have hset : s.setFileMetaData ((s.fileMetaData.setUpdateFlag true).setUpdateFlag false) = s := by
    rw [hself]
    rfl
  have hwrite := beneath_fwriteNode (P := P) s (P.packMetaData (s.fileMetaData.setUpdateFlag true))
  unfold setUpdateFlag
  dsimp only
  rw [hset]
  generalize s.fwriteNode 0 (P.packMetaData (s.fileMetaData.setUpdateFlag true)) = res at hwrite ⊢
  rcases res with ⟨_ | e, s1⟩
  . dsimp only at hwrite ⊢
    split
    . exact hwrite
    have hflush := core_fflush s1
    generalize s1.fflush = res at hflush ⊢
    rcases res with ⟨_ | e, s2⟩
    . exact (beneath_of_core hflush).trans hwrite
    dsimp only at hflush ⊢
    rw [beneath_fwriteNode]
    exact (beneath_of_core hflush).trans hwrite
  . exact (beneath_of_core rfl).trans hwrite

end Recovery

theorem Ready.sealed_of_not_dirty (hs : Ready P E s t) (h : ∀ i, ¬ s.Dirty i) : Sealed P E s t :=
  ⟨hs.holds, hs.closed.has, hs.closed.root, fun i n hn hneed => absurd ⟨n, hn, hneed⟩ (h i)⟩

theorem prepareNodes_spec (hs : Ready P E s t) (hcalls : s.outside.CallsSucceed)
    (flushToDisk : Bool) (hE : ∀ e ∈ (s.prepareNodes P flushToDisk).2.encryptLog, E e) :
    (∃ s' t', s.prepareNodes P flushToDisk = (true, s') ∧ t'.data = t.data ∧ Sealed P E s' t'
      ∧ s'.fileMetaData = s.fileMetaData ∧ s'.needWriting = s.needWriting
      ∧ s'.fileStatus = s.fileStatus)
    ∨ ∃ s', s.prepareNodes P flushToDisk = (false, s') ∧ s'.beneath P = (s.setStatus .flushError).beneath P := by
  have hstatus : ∀ {u u' : File N}, u'.beneath P = u.beneath P →
      (u'.setStatus .flushError).beneath P = (u.setStatus .flushError).beneath P := by
    intro u u' h
    exact (congrArg (fun v => v.setStatus .flushError) h :)
  unfold prepareNodes at hE ⊢
  split
  . next hcond =>
    rw [if_pos hcond] at hE
    have hrecovery := beneath_of_core (P := P) (core_writeRecoveryFile P s)
    generalize s.writeRecoveryFile P = res at hrecovery hE ⊢
    rcases res with ⟨_ | _, s1⟩
    . exact .inr ⟨_, rfl, hstatus hrecovery⟩
    have hmeta1 : s1.fileMetaData = s.fileMetaData :=
      (congrArg fileMetaData hrecovery :)
    have hflag := beneath_setUpdateFlag (P := P) (hmeta1 ▸ hs.header.updateFlag) flushToDisk
    dsimp only at hrecovery hE ⊢
    generalize s1.setUpdateFlag P flushToDisk = res at hflag hE ⊢
    rcases res with ⟨_ | _, s2⟩
    . exact .inr ⟨_, rfl, hstatus (hflag.trans hrecovery)⟩
    have hbeneath : s2.beneath P = s.beneath P := hflag.trans hrecovery
    have hcalls2 : s2.outside.CallsSucceed := by
      have : s2.outside = s.outside := (congrArg outside hbeneath :)
      rwa [this]
    have hdirty2 : s2.Dirty (.mht 0) := by
      have : s2.rootMht = s.rootMht := (congrArg rootMht hbeneath :)
      rw [dirty_root, this]
      exact hcond.2
    have hlog : ∀ e ∈ (s2.updateAllDataAndMhtNodes P).2.encryptLog, E e := by
      intro e he
      apply hE
      dsimp only
      generalize s2.updateAllDataAndMhtNodes P = res at he ⊢
      rcases res with ⟨_ | _, s3⟩
      . exact (frame_clearUpdateFlag P s3).log he
      . exact he
    rcases updateAllDataAndMhtNodes_spec P (hs.holds.of_beneath hbeneath)
      (hs.closed.of_beneath hbeneath) hcalls2 hdirty2 hlog
      with ⟨s3, t3, heq, hreseals, hdata, hsealing⟩
    refine .inl ⟨s3, t3, by dsimp only; rw [heq], hdata, ?_, ?_⟩
    . exact ⟨hsealing.holds, hsealing.closed.has, hsealing.closed.root,
        fun i n hn hneed => hsealing.seals i n trivial hn hneed⟩
    have houter := hreseals.outer
    simp only [outer, Prod.mk.injEq] at houter
    refine ⟨houter.2.2.1.trans ?_, houter.2.2.2.1.trans ?_, houter.2.2.2.2.trans ?_⟩
    . exact (congrArg fileMetaData hbeneath :)
    . exact (congrArg needWriting hbeneath :)
    . exact (congrArg fileStatus hbeneath :)
  . next hcond =>
    refine .inl ⟨s, t, rfl, rfl, ?_, rfl, rfl, rfl⟩
    apply hs.sealed_of_not_dirty
    intro i hi
    have hroot := hs.closed.root i hi
    exact hcond ⟨hs.closed.has _ hroot, dirty_root.1 hroot⟩

theorem Flushed.of_sealed (hs : Sealed P E s t) (hclean : ∀ i, ¬ s.Dirty i)
    (hheader : s.fileMetaData.Header s.kdk) (hsaved : Saved P E s) :
    Flushed P E (s.setNeedWritingFlag false) t where
  ready :=
    { holds := hs.holds.of_memory rfl
      closed := ⟨fun i hi => absurd hi (hclean i), fun i hi => absurd hi (hclean i),
        fun hi => absurd hi (hclean _)⟩
      header := hheader
      saved := fun _ => ⟨hsaved.onDisk, hsaved.seals⟩
      cipher := by
        intro i n hn hold
        apply hs.holds.cipher i n hn _ hold
        rw [← Bool.not_eq_true]
        exact fun hneed => hclean i ⟨n, hn, hneed⟩ }
  needWriting := rfl

theorem Stuck.writeAllChangesToDisk (hs : Stuck P E s t) (flushToDisk : Bool) :
    ∃ r s', s.writeAllChangesToDisk P flushToDisk = (r, s') ∧ s'.fileStatus = s.fileStatus
      ∧ s'.needWriting = s.needWriting
      ∧ if r then Flushed P E (s'.setNeedWritingFlag false) t else Stuck P E s' t := by
  rcases hs.sealed.writeAllChangesToDisk flushToDisk with ⟨r, s', heq, hs', hlabel, hdone⟩
  have hkdk : s'.kdk = s.kdk := ((frame_writeAllChangesToDisk P s flushToDisk).snd heq).kdk
  simp only [label, Prod.mk.injEq] at hlabel
  rcases hlabel with ⟨hmeta, hneed, hstatus, hmd⟩
  have hheader : s'.fileMetaData.Header s'.kdk := by
    rw [hmeta, hkdk]
    exact hs.header
  have hseals : P.SealsMetaData E s'.kdk s'.fileMetaData s'.encryptedPartPlain := by
    rw [hmeta, hkdk, hmd]
    exact hs.seals
  refine ⟨r, s', heq, hstatus, hneed, ?_⟩
  cases r with
  | false => exact ⟨hs', hheader, hseals⟩
  | true => exact Flushed.of_sealed hs' (hdone rfl).1 hheader ⟨(hdone rfl).2, hseals⟩

theorem finishFlush_spec (hs : Sealed P E s t) (hcalls : s.outside.CallsSucceed)
    (hheader : s.fileMetaData.Header s.kdk) (flushToDisk : Bool)
    (hE : ∀ e ∈ (s.finishFlush P flushToDisk).2.encryptLog, E e) :
    (∃ s', s.finishFlush P flushToDisk = (true, s') ∧ Flushed P E s' t ∧ s'.fileStatus = s.fileStatus)
    ∨ ∃ s', s.finishFlush P flushToDisk = (false, s') ∧ Stuck P E s' t
      ∧ s'.fileStatus = .writeToDiskFailed ∧ s'.needWriting = s.needWriting := by
  unfold finishFlush at hE ⊢
  have hlog : ∀ e ∈ (s.updateMetaDataNode P).2.encryptLog, E e := by
    intro e he
    apply hE
    generalize s.updateMetaDataNode P = res at he ⊢
    rcases res with ⟨_ | _, s1⟩
    . exact (frame_clearUpdateFlag P s1).log he
    have hframe := (frame_writeAllChangesToDisk P s1 flushToDisk).log he
    dsimp only
    generalize s1.writeAllChangesToDisk P flushToDisk = res at hframe ⊢
    rcases res with ⟨_ | _, s2⟩
    . exact hframe
    . exact hframe
  rcases updateMetaDataNode_spec P hcalls hheader hlog with ⟨m, s1, heq, hquiet, hm, hseals⟩
  have hframe : Frame s s1 := (frame_updateMetaDataNode P s).snd heq
  have hcore := core_of_quiet hquiet
  have hmeta : s1.fileMetaData = m := (congrArg fileMetaData hcore :)
  have hmd : s1.encryptedPartPlain = s.encryptedPartPlain :=
    (congrArg encryptedPartPlain hcore :)
  have hstatus : s1.fileStatus = s.fileStatus :=
    (congrArg fileStatus hcore :)
  have hneed : s1.needWriting = s.needWriting :=
    (congrArg needWriting hcore :)
  have hstuck : Stuck P E s1 t := by
    have hsealed : Sealed P E (s.setFileMetaData m) t := hs.of_memory rfl
    refine ⟨hsealed.of_core hcore, ?_, ?_⟩
    . rw [hmeta, hframe.kdk]
      exact hm
    . rw [hmeta, hframe.kdk, hmd]
      exact hseals
  rw [heq]
  dsimp only
  rcases hstuck.writeAllChangesToDisk flushToDisk with ⟨r, s2, heq2, hstatus2, hneed2, hs2⟩
  rw [heq2]
  cases r with
  | true => exact .inl ⟨_, rfl, hs2, hstatus2.trans hstatus⟩
  | false =>
    refine .inr ⟨_, rfl, ?_, rfl, hneed2.trans hneed⟩
    exact ⟨hs2.sealed.of_memory rfl, hs2.header, hs2.seals⟩

inductive Broken (P : Platform N) (E : Key × N → Prop) (s : File N) (t : Tree) : Prop where
  | flushError (status : s.fileStatus = .flushError) (ready : Ready P E s t)
  | writeToDiskFailed (status : s.fileStatus = .writeToDiskFailed) (stuck : Stuck P E s t)

theorem Ready.of_beneath (hs : Ready P E s t) (h : s'.beneath P = s.beneath P)
    (hneed : s.needWriting = true) : Ready P E s' t where
  holds := hs.holds.of_beneath h
  closed := hs.closed.of_beneath h
  header := by
    rw [congr_beneath h (f := fileMetaData) (fun _ => rfl), congr_beneath h (f := kdk) (fun _ => rfl)]
    exact hs.header
  saved hneed' := by
    rw [congr_beneath h (f := needWriting) (fun _ => rfl), hneed] at hneed'
    cases hneed'
  cipher i n hn hold := by
    rw [congr_beneath h (f := fun u => u.node? i) (fun _ => rfl)] at hn
    rw [← sameCipher_beneath (P := P), h]
    exact sameCipher_beneath.2 (hs.cipher i n hn hold)

theorem Ready.setStatus (hs : Ready P E s t) (status : FileStatus) : Ready P E (s.setStatus status) t where
  holds := hs.holds.of_memory rfl
  closed := hs.closed.of_memory rfl (fun h => h)
  header := hs.header
  saved h := ⟨(hs.saved h).onDisk, (hs.saved h).seals⟩
  cipher := hs.cipher

theorem internalFlush_spec (hs : Ready P E s t) (hcalls : s.outside.CallsSucceed)
    (flushToDisk : Bool) (hE : ∀ e ∈ (s.internalFlush P flushToDisk).2.encryptLog, E e) :
    (∃ s' t', s.internalFlush P flushToDisk = (true, s') ∧ t'.data = t.data ∧ Flushed P E s' t'
      ∧ s'.fileStatus = s.fileStatus)
    ∨ ∃ s' t', s.internalFlush P flushToDisk = (false, s') ∧ t'.data = t.data ∧ Broken P E s' t' := by
  unfold internalFlush at hE ⊢
  split
  . next hneed => exact .inl ⟨s, t, rfl, rfl, ⟨hs, hneed⟩, rfl⟩
  next hneed =>
  rw [if_neg hneed] at hE
  rw [Bool.not_eq_false] at hneed
  have hlog := log_of_match (fun s1 => frame_finishFlush P s1 flushToDisk) hE
  rcases prepareNodes_spec hs hcalls flushToDisk hlog
    with ⟨s1, t1, heq, hdata, hs1, hmeta, -, hstatus⟩ | ⟨s1, heq, hbeneath⟩
  . have hframe : Frame s s1 := (frame_prepareNodes P s flushToDisk).snd heq
    rw [heq] at hE ⊢
    have hheader : s1.fileMetaData.Header s1.kdk := by
      rw [hmeta, hframe.kdk]
      exact hs.header
    rcases finishFlush_spec hs1 (hframe.outside ▸ hcalls) hheader flushToDisk hE
      with ⟨s2, heq2, hs2, hstatus2⟩ | ⟨s2, heq2, hs2, hstatus2, -⟩
    . exact .inl ⟨s2, t1, heq2, hdata, hs2, hstatus2.trans hstatus⟩
    . exact .inr ⟨s2, t1, heq2, hdata, .writeToDiskFailed hstatus2 hs2⟩
  . rw [heq]
    refine .inr ⟨s1, t, rfl, rfl, .flushError ?_ ?_⟩
    . exact (congrArg fileStatus hbeneath :)
    . exact (hs.setStatus .flushError).of_beneath hbeneath hneed

end File
end ProtectedFs
