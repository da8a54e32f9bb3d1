import SrasMage.ProtectedFs.Lemmas.CacheRep
import SrasMage.ProtectedFs.Reference

/-!
This module contains the proof that the node cache of an open file stays a finite map with a recency order,
as long as no write extends the file while a node behind its end is cached.
-/

namespace ProtectedFs

open Reference

namespace File

variable {N : Type} (P : Platform N)

def NoOrphan (s : File N) : Prop :=
  ∀ i : NodeId, i.physical ∈ s.cache.keys → i.firstOffset < s.encryptedPartPlain.size

structure CacheInv (s : File N) : Prop where
  rep : CacheRep (fun i => i.firstOffset ≤ s.encryptedPartPlain.size) s
  offset : s.offset ≤ s.encryptedPartPlain.size

variable {s s' : File N}

theorem CacheInv.of_sameNodes (h : CacheInv s) (hf : SameNodes s s')
    (hsize : s.encryptedPartPlain.size ≤ s'.encryptedPartPlain.size)
    (hoffset : s'.offset ≤ s'.encryptedPartPlain.size) : CacheInv s' where
  rep := (h.rep.sameNodes hf).mono (fun _ hi => Nat.le_trans hi hsize)
  offset := hoffset

theorem CacheInv.frame (h : CacheInv s) (hf : Frame s s') : CacheInv s' := by
  apply h.of_sameNodes hf.nodes
  . rw [hf.size]
  . rw [hf.offset, hf.size]
    exact h.offset

theorem NoOrphan.rep (h : NoOrphan s) (hs : CacheInv s) :
    CacheRep (fun i => i.firstOffset < s.encryptedPartPlain.size) s where
  wf := hs.rep.wf
  node := hs.rep.node
  id key hkey := by
    rcases hs.rep.id key hkey with ⟨i, hi, _⟩
    exact ⟨i, hi, h i (hi ▸ hkey)⟩

theorem CacheRep.noOrphan (h : CacheRep (fun i => i.firstOffset < s.encryptedPartPlain.size) s) : NoOrphan s := by
  intro i hi
  rcases h.id _ hi with ⟨j, hj, hlt⟩
  rwa [NodeId.physical_injective hj] at hlt

theorem size_eq_of_cursor (h : s'.cursor = s.cursor) : s'.encryptedPartPlain.size = s.encryptedPartPlain.size :=
  congrArg (fun c => c.2.1) h

theorem offset_eq_of_cursor (h : s'.cursor = s.cursor) : s'.offset = s.offset :=
  congrArg Prod.fst h

section Write

@[simp]
theorem offset_storeData (s : File N) (a : Addr) (data : Nat → UInt8) (n : Nat) :
    (s.storeData a data n).offset = s.offset + n := rfl

@[simp]
theorem size_storeData (s : File N) (a : Addr) (data : Nat → UInt8) (n : Nat) :
    (s.storeData a data n).encryptedPartPlain.size =
    max s.encryptedPartPlain.size (s.offset + n) := rfl

variable {s : File N} {left : Nat}

theorem keeps_getDataNode_of_in (hs : CacheInv s) (hoffset : mdUserDataSize ≤ s.offset)
    (hin : ¬ ((s.offset - mdUserDataSize) % nodeSize = 0 ∧ s.offset = s.encryptedPartPlain.size)) :
    Keeps (fun i => i.firstOffset ≤ s.encryptedPartPlain.size) s (s.getDataNode P).2 ∧ (NoOrphan s →
        Keeps (fun i => i.firstOffset < s.encryptedPartPlain.size) s (s.getDataNode P).2) := by
  have hend := hs.offset
  have hle := NodeId.firstOffset_atOffset_le hoffset
  have hlt : (NodeId.atOffset s.offset).firstOffset < s.encryptedPartPlain.size := by
    rcases Nat.lt_or_eq_of_le hend with hlt | heq
    . omega
    have : (NodeId.atOffset s.offset).firstOffset ≠ s.offset := by
      intro hfirst
      apply hin
      simp only [NodeId.atOffset, NodeId.firstOffset, getNodeNumbers, nodeSize, mdUserDataSize] at *
      omega
    omega
  have hfind : ∀ Q : NodeId → Prop, CacheRep Q s →
      (∀ i : NodeId, i.firstOffset ≤ (NodeId.atOffset s.offset).firstOffset → Q i) →
      Keeps Q s (s.findDataNode P).2 := by
    intro Q hrep hQ
    unfold findDataNode
    rw [if_neg hin]
    exact keeps_readDataNode P hrep hin hQ
  constructor
  . apply keeps_getDataNode P hs.rep
    apply hfind _ hs.rep
    intro i hi
    omega
  intro horphan
  apply keeps_getDataNode P (horphan.rep hs)
  apply hfind _ (horphan.rep hs)
  intro i hi
  omega

theorem keeps_getDataNode_of_append (hs : CacheInv s) (horphan : NoOrphan s)
    (hoffset : mdUserDataSize ≤ s.offset) (happend : (s.offset - mdUserDataSize) % nodeSize = 0
      ∧ s.offset = s.encryptedPartPlain.size) :
    Keeps (fun i => i.firstOffset ≤ s.encryptedPartPlain.size) s (s.getDataNode P).2 := by
  apply keeps_getDataNode P hs.rep
  unfold findDataNode
  rw [if_pos happend]
  exact keeps_appendDataNode P (horphan.rep hs) hoffset happend.1 happend.2

theorem CacheInv.of_keeps {s' : File N} (hs : CacheInv s)
    (h : Keeps (fun i => i.firstOffset ≤ s.encryptedPartPlain.size) s s') : CacheInv s' where
  rep := by
    rw [size_eq_of_cursor h.2]
    exact h.1
  offset := by
    rw [size_eq_of_cursor h.2, offset_eq_of_cursor h.2]
    exact hs.offset

theorem rep_writeNode {Q : NodeId → Prop} (hs : CacheRep Q s) (a : Addr) (data : Nat → UInt8) (n : Nat) :
    CacheRep Q ((s.storeData a data n).markDirty a) :=
  hs.sameNodes ((sameNodes_storeData s a data n).trans (frame_markDirty _ _).nodes)

theorem size_writeNode (s : File N) (a : Addr) (data : Nat → UInt8) (n : Nat) :
    ((s.storeData a data n).markDirty a).encryptedPartPlain.size =
    max s.encryptedPartPlain.size (s.offset + n) := by rw [(frame_markDirty _ a).size, size_storeData]

theorem offset_writeNode (s : File N) (a : Addr) (data : Nat → UInt8) (n : Nat) :
    ((s.storeData a data n).markDirty a).offset = s.offset + n := by rw [(frame_markDirty _ a).offset, offset_storeData]

theorem cacheInv_writeNode (hs : CacheInv s) (a : Addr) (data : Nat → UInt8) (n : Nat) :
    CacheInv ((s.storeData a data n).markDirty a) where
  rep := by
    apply (rep_writeNode hs.rep a data n).mono
    intro i hi
    rw [size_writeNode]
    omega
  offset := by
    rw [size_writeNode, offset_writeNode]
    omega

def MayWrite (s : File N) (left : Nat) : Prop :=
  s.offset + left ≤ s.encryptedPartPlain.size ∨ NoOrphan s

theorem keeps_getDataNode_of_mayWrite (hs : CacheInv s) (hoffset : mdUserDataSize ≤ s.offset) (left : Nat)
    (hleft : left ≠ 0) (hmay : MayWrite s left) :
    Keeps (fun i => i.firstOffset ≤ s.encryptedPartPlain.size) s (s.getDataNode P).2 := by
  by_cases happend : (s.offset - mdUserDataSize) % nodeSize = 0 ∧ s.offset = s.encryptedPartPlain.size
  . rcases hmay with hin | horphan
    . omega
    . exact keeps_getDataNode_of_append P hs horphan hoffset happend
  . exact (keeps_getDataNode_of_in P hs hoffset happend).1

theorem mayWrite_writeNode (hs : CacheInv s) (hoffset : mdUserDataSize ≤ s.offset) (hmay : MayWrite s left)
    (n : Nat) (hn : 0 < n) (hle : n ≤ left) (a : Addr) (data : Nat → UInt8) :
    MayWrite (((s.getDataNode P).2.storeData a data n).markDirty a) (left - n) := by
  have hinv := hs.of_keeps (keeps_getDataNode_of_mayWrite P hs hoffset left (by omega) hmay)
  by_cases happend : (s.offset - mdUserDataSize) % nodeSize = 0 ∧ s.offset = s.encryptedPartPlain.size
  . rcases hmay with hin | horphan
    . omega
    -- the file has grown over all nodes of the cache
    have hkeep := keeps_getDataNode_of_append P hs horphan hoffset happend
    apply Or.inr
    apply CacheRep.noOrphan
    apply (rep_writeNode hinv.rep a data n).mono
    intro i hi
    rw [size_writeNode, offset_eq_of_cursor hkeep.2, size_eq_of_cursor hkeep.2] at *
    omega
  have hkeep := keeps_getDataNode_of_in P hs hoffset happend
  have hsize := size_eq_of_cursor hkeep.1.2
  have hoff := offset_eq_of_cursor hkeep.1.2
  rcases hmay with hin | horphan
  . left
    rw [size_writeNode, offset_writeNode]
    omega
  right
  apply CacheRep.noOrphan
  apply (rep_writeNode (hkeep.2 horphan).1 a data n).mono
  intro i hi
  rw [size_writeNode]
  omega

theorem cacheInv_writeLoop (data : Nat → UInt8) (fuel : Nat) :
    ∀ (s : File N) (done left : Nat), CacheInv s → mdUserDataSize ≤ s.offset → MayWrite s left →
      CacheInv (s.writeLoop P fuel data done left).2 := by
  induction fuel with
  | zero =>
    intro s done left hs _ _
    exact hs
  | succ fuel ih =>
    intro s done left hs hoffset hmay
    rw [writeLoop]
    split
    . exact hs
    next hleft =>
    have hkeep := keeps_getDataNode_of_mayWrite P hs hoffset left hleft hmay
    have hstep := mayWrite_writeNode P hs hoffset hmay
    generalize s.getDataNode P = res at hkeep hstep
    rcases res with ⟨found, s1⟩
    have hinv := hs.of_keeps hkeep
    cases found with
    | none => exact hinv
    | some a =>
      have hroom : (s1.offset - mdUserDataSize) % nodeSize < nodeSize := Nat.mod_lt _ (by decide)
      apply ih
      . exact cacheInv_writeNode hinv _ _ _
      . rw [offset_writeNode, offset_eq_of_cursor hkeep.2]
        omega
      . exact hstep _ (by omega) (by omega) _ _

theorem MayWrite.mono {s' : File N} {left' : Nat} (h : MayWrite s left) (hcache : s'.cache = s.cache)
    (hoffset : s'.offset + left' = s.offset + left)
    (hsize : s.encryptedPartPlain.size ≤ s'.encryptedPartPlain.size) : MayWrite s' left' := by
  rcases h with hin | horphan
  . left
    omega
  right
  intro i hi
  rw [hcache] at hi
  have := horphan i hi
  omega

@[simp]
theorem offset_storeMetaData (s : File N) (data : Nat → UInt8) (n : Nat) :
    (s.storeMetaData data n).offset = s.offset + n := rfl

@[simp]
theorem size_storeMetaData (s : File N) (data : Nat → UInt8) (n : Nat) :
    (s.storeMetaData data n).encryptedPartPlain.size = max s.encryptedPartPlain.size (s.offset + n) := rfl

theorem cacheInv_writeMetaData (hs : CacheInv s) (hmay : MayWrite s left) (data : Nat → UInt8) :
    CacheInv (s.writeMetaData data left).1
      ∧ MayWrite (s.writeMetaData data left).1 (left - (s.writeMetaData data left).2)
      ∧ (left - (s.writeMetaData data left).2 ≠ 0 →
        mdUserDataSize ≤ (s.writeMetaData data left).1.offset) := by
  unfold writeMetaData
  split
  . refine ⟨hs.of_sameNodes ⟨rfl, rfl, fun _ => rfl⟩ ?_ ?_, hmay.mono rfl ?_ ?_, ?_⟩
    all_goals
      simp only [offset_storeMetaData, size_storeMetaData]
      omega
  . next hge =>
    exact ⟨hs, hmay, fun _ => Nat.le_of_not_lt hge⟩

theorem cacheInv_writeBytes (hs : CacheInv s) (hmay : MayWrite s left) (data : Nat → UInt8) :
    CacheInv (s.writeBytes P data left).2 := by
  have hmd := cacheInv_writeMetaData hs hmay data
  unfold writeBytes
  generalize s.writeMetaData data left = res at hmd
  rcases res with ⟨s1, n⟩
  dsimp only at hmd ⊢
  by_cases hleft : left - n = 0
  . rw [hleft]
    exact hmd.1
  . exact cacheInv_writeLoop P _ _ _ _ _ hmd.1 (hmd.2.2 hleft) hmd.2.1

def writeStart (s : File N) : Nat := if s.openMode.append then s.encryptedPartPlain.size else s.offset

theorem offset_seekToStart (s : File N) : s.seekToStart.offset = s.writeStart := by
  unfold seekToStart writeStart
  split <;> rfl

theorem size_seekToStart (s : File N) : s.seekToStart.encryptedPartPlain.size = s.encryptedPartPlain.size := by
  unfold seekToStart
  split <;> rfl

theorem sameNodes_seekToStart (s : File N) : SameNodes s s.seekToStart := by
  unfold seekToStart
  split <;> exact ⟨rfl, rfl, fun _ => rfl⟩

theorem cacheInv_seekToStart (hs : CacheInv s) : CacheInv s.seekToStart := by
  apply hs.of_sameNodes (sameNodes_seekToStart s) (Nat.le_of_eq (size_seekToStart s).symm)
  rw [offset_seekToStart, size_seekToStart, writeStart]
  split
  . exact le_rfl
  . exact hs.offset

theorem cacheInv_write (hs : CacheInv s) (buffer : Buffer) (size count : Nat)
    (hmay : s.writeRefused buffer size count = none →
      s.writeStart + size * count ≤ s.encryptedPartPlain.size ∨ NoOrphan s) :
    CacheInv (s.write P (some buffer) size count).2 := by
  unfold write
  dsimp only
  split
  . exact hs
  split
  . exact hs.frame (frame_fail s _)
  next hrefused =>
  have hmay' : MayWrite s.seekToStart (size * count) := by
    unfold MayWrite NoOrphan
    rw [offset_seekToStart, size_seekToStart, (sameNodes_seekToStart s).cache]
    exact hmay hrefused
  exact cacheInv_writeBytes P (cacheInv_seekToStart hs) hmay' buffer.bytes

theorem cacheInv_setOffset (hs : CacheInv s) {offset : Nat} (h : offset ≤ s.encryptedPartPlain.size) :
    CacheInv (s.setOffset offset) :=
  hs.of_sameNodes ⟨rfl, rfl, fun _ => rfl⟩ le_rfl h

theorem cacheInv_setEof (hs : CacheInv s) (b : Bool) : CacheInv (s.setEof b) :=
  hs.of_sameNodes ⟨rfl, rfl, fun _ => rfl⟩ le_rfl hs.offset

theorem cacheInv_readLoop (fuel : Nat) :
    ∀ (s : File N) (out : List UInt8) (left : Nat), CacheInv s → mdUserDataSize ≤ s.offset →
      s.offset + left ≤ s.encryptedPartPlain.size → CacheInv (s.readLoop P fuel out left).2 := by
  induction fuel with
  | zero =>
    intro s out left hs _ _
    exact hs
  | succ fuel ih =>
    intro s out left hs hoffset hin
    rw [readLoop]
    split
    . exact hs
    next hleft =>
    have hkeep := keeps_getDataNode_of_mayWrite P hs hoffset left hleft (.inl hin)
    generalize s.getDataNode P = res at hkeep
    rcases res with ⟨found, s1⟩
    dsimp only at hkeep
    have hinv := hs.of_keeps hkeep
    have hoff := offset_eq_of_cursor hkeep.2
    have hsize := size_eq_of_cursor hkeep.2
    cases found with
    | none => exact hinv
    | some a =>
      dsimp only
      apply ih
      . apply cacheInv_setOffset hinv
        omega
      . simp only [setOffset]
        omega
      . simp only [setOffset]
        omega

theorem cacheInv_readMetaData (hs : CacheInv s) (hin : s.offset + left ≤ s.encryptedPartPlain.size) :
    CacheInv (s.readMetaData left).1 ∧ (s.readMetaData left).1.offset + (left - (s.readMetaData left).2.length)
        ≤ (s.readMetaData left).1.encryptedPartPlain.size
      ∧ (left - (s.readMetaData left).2.length ≠ 0 → mdUserDataSize ≤ (s.readMetaData left).1.offset) := by
  unfold readMetaData
  split
  . refine ⟨cacheInv_setOffset hs ?_, ?_, ?_⟩
    . omega
    . simp only [setOffset, slice, List.length_map, List.length_range]
      omega
    . simp only [setOffset, slice, List.length_map, List.length_range]
      omega
  . next hge =>
    exact ⟨hs, by simpa using hin, fun _ => Nat.le_of_not_lt hge⟩

theorem cacheInv_readBytes (hs : CacheInv s) (attempted : Nat)
    (hin : s.offset + attempted ≤ s.encryptedPartPlain.size) : CacheInv (s.readBytes P attempted).2 := by
  have hmd := cacheInv_readMetaData hs hin
  unfold readBytes
  generalize s.readMetaData attempted = res at hmd
  rcases res with ⟨s1, out⟩
  dsimp only at hmd ⊢
  by_cases hleft : attempted - out.length = 0
  . rw [hleft]
    exact hmd.1
  . exact cacheInv_readLoop P _ _ _ _ hmd.1 (hmd.2.2 hleft) hmd.2.1

theorem cacheInv_read (hs : CacheInv s) (ptr : Option Buffer) (size count : Nat) :
    CacheInv (s.read P ptr size count).2 := by
  cases ptr with
  | none => exact hs
  | some buffer =>
    unfold read
    dsimp only
    split
    . exact hs
    split
    . exact hs.frame (frame_fail s _)
    split
    . exact hs
    split
    . exact cacheInv_setEof hs _
    have hend := hs.offset
    have hread := cacheInv_readBytes P hs (min (size * count) (s.encryptedPartPlain.size - s.offset)) (by omega)
    split
    . exact cacheInv_setEof hread _
    . exact hread

end Write

theorem cacheInv_seek (hs : CacheInv s) (newOffset : Int) (origin : Origin) :
    CacheInv (s.seek newOffset origin).2 := by
  unfold seek
  split
  . exact hs.frame (frame_fail s _)
  split
  . next offset htarget =>
    apply cacheInv_setEof
    apply cacheInv_setOffset hs
    unfold seekTarget at htarget
    split at htarget
    all_goals
      split at htarget
      . cases htarget
        omega
      . cases htarget
  . exact hs.frame (frame_fail s _)

theorem cacheInv_evictAll (fuel : Nat) : ∀ s : File N, CacheInv s → CacheInv (s.evictAll fuel).2 := by
  induction fuel with
  | zero =>
    intro s hs
    exact hs
  | succ fuel ih =>
    intro s hs
    rw [evictAll]
    split
    . exact hs
    split
    . exact hs
    split
    . exact hs
    . exact ih _ (hs.of_keeps (keeps_evictLast hs.rep _))

theorem cacheInv_clearError (hs : CacheInv s) : CacheInv (s.clearError P) := by
  rcases clearError_eq P s with hf | ⟨t, hf, heq⟩
  . exact hs.frame hf
  . rw [heq]
    exact cacheInv_setEof (hs.frame hf) false

theorem cacheInv_settle (hs : CacheInv s) : CacheInv (s.settle P) := by
  unfold settle
  split
  . exact cacheInv_clearError P hs
  . exact hs.frame (frame_internalFlush P s true)

theorem cacheInv_preClose (hs : CacheInv s) (exportKey importing : Bool) :
    CacheInv (s.preClose P exportKey importing).2 := by
  have himport : CacheInv (if importing && !s.useUserKdkKey then s.setNeedWritingFlag true else s) := by
    split
    . exact hs.frame (frame_setNeedWritingFlag s _)
    . exact hs
  apply (cacheInv_settle P himport).frame
  apply (frame_closeFile _).trans
  apply (frame_eraseRecoveryFile _).trans
  exact (frame_exportMetaDataKey P _ exportKey).trans (frame_setStatus _ _)

theorem cacheInv_clearCache (hs : CacheInv s) : CacheInv (s.clearCache P).2 := by
  have hsettle := cacheInv_settle P hs
  unfold clearCache
  dsimp only
  split
  . exact hsettle
  . exact cacheInv_evictAll _ _ hsettle

def ExtendsWithoutOrphan (s : File N) (t : Step N) : Prop :=
  match t.op with
  | .write (some buffer) size count => s.writeRefused buffer size count = none →
    s.writeStart + size * count ≤ s.encryptedPartPlain.size ∨ NoOrphan s
  | _ => True

theorem cacheInv_step {t : Step N} (hs : CacheInv s) (ht : ExtendsWithoutOrphan s t) : CacheInv (s.step P t) := by
  have hbegin : CacheInv (s.begin t.outside) :=
    hs.of_sameNodes ⟨rfl, rfl, fun _ => rfl⟩ le_rfl hs.offset
  unfold step
  unfold ExtendsWithoutOrphan at ht
  cases hop : t.op with
  | write ptr size count =>
    cases ptr with
    | none => exact hbegin
    | some buffer =>
      rw [hop] at ht
      exact cacheInv_write P hbegin buffer size count ht
  | read ptr size count => exact cacheInv_read P hbegin ptr size count
  | tell =>
    simp only [apply, tell]
    split
    . exact hbegin.frame (frame_fail _ _)
    . exact hbegin
  | seek newOffset origin => exact cacheInv_seek hbegin newOffset origin
  | getEof => exact hbegin
  | getError => exact hbegin
  | clearError => exact cacheInv_clearError P hbegin
  | clearCache => exact cacheInv_clearCache P hbegin
  | flush => exact hbegin.frame (frame_flush P _)
  | preClose exportKey importing => exact cacheInv_preClose P hbegin exportKey importing

section Create

def Fresh (s : File N) : Prop := s.cache = Lru.Cache.empty ∧ s.offset = 0

variable {s : File N}

theorem Fresh.frame {s' : File N} (h : Fresh s) (hf : Frame s s') : Fresh s' :=
  ⟨hf.cache.trans h.1, hf.offset.trans h.2⟩

structure Unread (s : File N) : Prop where
  cache : s.cache = Lru.Cache.empty
  offset : s.offset ≤ s.encryptedPartPlain.size

theorem Fresh.unread (h : Fresh s) : Unread s :=
  ⟨h.1, by rw [h.2]; exact Nat.zero_le _⟩

theorem Unread.frame {s' : File N} (h : Unread s) (hf : Frame s s') : Unread s' :=
  ⟨hf.cache.trans h.cache, by rw [hf.offset, hf.size]; exact h.offset⟩

theorem Unread.cacheInv (h : Unread s) : CacheInv s where
  rep := by
    constructor
    . rw [h.cache]
      exact Lru.Cache.wf_empty
    . intro key a hdata
      simp [h.cache] at hdata
    . intro key hkey
      simp [h.cache] at hkey
  offset := h.offset

theorem frame_exclusiveFileOpen (s : File N) : Frame s (s.exclusiveFileOpen P).2 := by
  unfold exclusiveFileOpen
  split
  . exact Frame.of_view rfl
  split
  . exact Frame.of_view rfl
  . split <;> exact Frame.of_view rfl

theorem frame_readMetaDataNode (s : File N) : Frame s (s.readMetaDataNode P).2 := by
  unfold readMetaDataNode
  split
  . next h => exact ((frame_freadNode s 0).snd h).trans (frame_fail _ _)
  . next h => exact ((frame_freadNode s 0).snd h).trans (frame_setFileMetaData _ _)

theorem frame_emitAll (es : List (HostEvent N)) : ∀ s : File N, Frame s (s.emitAll es) := by
  induction es with
  | nil => exact Frame.refl
  | cons e es ih =>
    intro s
    exact (frame_emit s e).trans (ih _)

theorem frame_fileRecovery (s : File N) : Frame s (s.fileRecovery P).2 := by
  unfold fileRecovery
  split
  . next h => exact ((frame_fclose s _).snd h).trans (frame_fail _ _)
  next h =>
  have hclose := ((frame_fclose s _).snd h).trans (frame_setFile _ false)
  dsimp only
  split
  . exact hclose.trans ((frame_next _).trans (frame_fail _ _))
  split
  . exact hclose.trans ((frame_next _).trans (frame_fail _ _))
  next es _ =>
  have hemit := hclose.trans ((frame_emitAll es _).trans (frame_next _))
  split
  . next h' => exact hemit.trans (((frame_exclusiveFileOpen P _).snd h').trans (frame_fail _ _))
  next h' =>
  have hopen := hemit.trans ((frame_exclusiveFileOpen P _).snd h')
  split
  . exact hopen.trans (frame_fail _ _)
  . exact hopen.trans (frame_readMetaDataNode P _)

theorem frame_recoverIfNeeded (s : File N) : Frame s (s.recoverIfNeeded P).2 := by
  unfold recoverIfNeeded
  split
  . exact Frame.refl s
  split
  . next h => exact ((frame_fileRecovery P s).snd h).trans (frame_fail _ _)
  next h =>
  have hrec := (frame_fileRecovery P s).snd h
  split
  . exact hrec.trans (frame_fail _ _)
  split
  . exact hrec.trans (frame_fail _ _)
  . exact hrec

theorem fresh_initRootMht (hs : Fresh s) : Fresh (s.initRootMht P).2 := by
  unfold initRootMht
  split
  . split
    . next h => exact hs.frame (((frame_freadNode s 1).snd h).trans (frame_fail _ _))
    next cipher s1 h =>
    have hread := hs.frame ((frame_freadNode s 1).snd h)
    have hroot : Fresh (s1.setRootMht (s1.rootMht.setEncrypted cipher)) := hread
    dsimp only
    split
    . next h' => exact hroot.frame (((frame_gcmDecrypt P _ _ _ _).snd h').trans (frame_fail _ _))
    next s2 h' =>
    have hdec : Fresh s2 := hroot.frame ((frame_gcmDecrypt P _ _ _ _).snd h')
    exact hdec
  . exact hs

theorem fresh_initMetaData (hs : Fresh s) (cleanFilename : List Char) (importKey : Option Key) :
    Fresh (s.initMetaData P cleanFilename importKey).2 := by
  unfold initMetaData
  split
  . exact hs.frame (frame_fail s _)
  split
  . next h => exact hs.frame ((frame_restoreCurrentMetaDataKey P s importKey).snd h)
  next h =>
  have hkey := hs.frame ((frame_restoreCurrentMetaDataKey P s importKey).snd h)
  split
  . next h' => exact hkey.frame (((frame_gcmDecrypt P _ _ _ _).snd h').trans (frame_fail _ _))
  next plain s2 h' =>
  have hdec := hkey.frame ((frame_gcmDecrypt P _ _ _ _).snd h')
  have hplain : Fresh (s2.setEncryptedPartPlain (P.unpackMetaDataEncrypted plain)) := hdec
  dsimp only
  split
  . exact hplain.frame (frame_fail _ _)
  . exact fresh_initRootMht P hplain

theorem fresh_initExistingFile (hs : Fresh s) (cleanFilename : List Char) (importKey : Option Key) :
    Fresh (s.initExistingFile P cleanFilename importKey).2 := by
  unfold initExistingFile
  split
  . next h => exact hs.frame ((frame_readMetaDataNode P s).snd h)
  next h =>
  have hread := hs.frame ((frame_readMetaDataNode P s).snd h)
  split
  . exact hread.frame (frame_fail _ _)
  split
  . exact hread.frame (frame_fail _ _)
  split
  . next h' => exact hread.frame ((frame_recoverIfNeeded P _).snd h')
  . next h' =>
    exact fresh_initMetaData P (hread.frame ((frame_recoverIfNeeded P _).snd h')) _ _

theorem frame_prepareFile (s : File N) : Frame s s.prepareFile.2 := by
  have hcheck : ∀ t : File N, Frame t t.checkIfFileExists.2 := fun t => Frame.of_view rfl
  have hremove : ∀ t : File N, Frame t t.remove.2 := by
    intro t
    unfold remove
    split <;> exact Frame.of_view rfl
  unfold prepareFile
  split
  . next h => exact (hcheck s).snd h
  next h =>
  have hfirst := (hcheck s).snd h
  split
  . dsimp only
    split
    all_goals next h' => exact hfirst.trans ((hremove _).trans ((hcheck _).snd h'))
  . exact hfirst

theorem unread_openFile (hs : Fresh s) (cleanFilename : List Char) (importKey : Option Key) :
    Unread (s.openFile P cleanFilename importKey) := by
  unfold openFile
  split
  . next h =>
    exact (hs.frame (((frame_exclusiveFileOpen P s).snd h).trans (frame_fail _ _))).unread
  next size s1 h =>
  have hopen := hs.frame ((frame_exclusiveFileOpen P s).snd h)
  have hsize : Fresh (s1.setRealFileSize size) := hopen
  dsimp only
  split
  . exact (hsize.frame (frame_fail _ _)).unread
  split
  . split
    . exact (hsize.frame (frame_fail _ _)).unread
    have hinit := fresh_initExistingFile P hsize cleanFilename importKey
    split
    . next h' =>
      rw [h'] at hinit
      exact hinit.unread
    next h' =>
    rw [h'] at hinit
    apply Unread.frame _ (frame_setStatus _ _)
    refine ⟨hinit.1, ?_⟩
    simp only [setOffset]
    split
    . exact le_rfl
    . exact hinit.unread.offset
  . apply Unread.frame _ (frame_setStatus _ _)
    exact Fresh.unread hsize

theorem unread_createFile (hs : Fresh s) (cleanFilename : List Char) (importKey : Option Key) :
    Unread (s.createFile P cleanFilename importKey) := by
  have hprepare := hs.frame (frame_prepareFile s)
  unfold createFile
  split
  . next h =>
    rw [h] at hprepare
    exact (hprepare.frame (frame_fail _ _)).unread
  next h =>
  rw [h] at hprepare
  split
  . exact (hprepare.frame (frame_fail _ _)).unread
  split
  . exact (hprepare.frame (frame_fail _ _)).unread
  next s1 _ _ =>
  dsimp only
  have honly : Fresh (s1.setReadOnly (s1.openMode.read && !s1.openMode.update)) := hprepare
  have hopen := unread_openFile P honly cleanFilename importKey
  unfold closeUnusable
  split
  . exact hopen.frame ((frame_next _).trans (frame_setFile _ _))
  . exact hopen

theorem unread_create (args : OpenArgs) (h : Host N) (outside : Outside N) : Unread (create P args h outside) := by
  have hinit : Fresh (initFields P h args.report outside) := ⟨rfl, rfl⟩
  unfold create
  dsimp only
  split
  . exact (hinit.frame (frame_fail _ _)).unread
  split
  . exact (hinit.frame ((frame_nextCall _).trans (frame_fail _ _))).unread
  have hmaster := hinit.frame ((frame_nextCall _).trans (frame_initSessionMasterKey P _))
  split
  . next heq =>
    rw [heq] at hmaster
    exact hmaster.unread
  next s1 heq =>
  rw [heq] at hmaster
  split
  . exact Fresh.unread hmaster
  next mode _ =>
  have hmode : Fresh ((s1.setUserKdkKey args.kdkKey).setOpenMode mode) := hmaster
  exact unread_createFile P hmode _ _

theorem cacheInv_create (args : OpenArgs) (h : Host N) (outside : Outside N) : CacheInv (create P args h outside) :=
  (unread_create P args h outside).cacheInv

end Create

theorem noOrphan_of_keys
    (h : ∀ key ∈ s.cache.keys, mdUserDataSize + nodeSize * key < s.encryptedPartPlain.size) :
    NoOrphan s := by
  intro i hi
  refine Nat.lt_of_le_of_lt ?_ (h i.physical hi)
  cases i <;>
    simp only [NodeId.firstOffset, NodeId.physical, physicalMhtNode, physicalDataNode,
      attachedDataNodesCount, nodeSize] <;>
    omega

end File
end ProtectedFs
