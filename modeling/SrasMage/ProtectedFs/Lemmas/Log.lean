import SrasMage.ProtectedFs.Lemmas.Frame

/-!
This module contains what every operation keeps, and the states in which it looks up a data node.
-/

namespace ProtectedFs

variable {N : Type}

namespace File

structure Grows (s s' : File N) : Prop where
  log : s.encryptLog ⊆ s'.encryptLog
  outside : s'.outside = s.outside

namespace Grows

variable {s s' s'' : File N}

theorem refl (s : File N) : Grows s s := ⟨List.Subset.refl _, rfl⟩

theorem trans (h : Grows s s') (h' : Grows s' s'') : Grows s s'' :=
  ⟨List.Subset.trans h.log h'.log, h'.outside.trans h.outside⟩

theorem of_frame (h : Frame s s') : Grows s s' := ⟨h.log, h.outside⟩

theorem of_eq (hlog : s'.encryptLog = s.encryptLog) (houtside : s'.outside = s.outside) : Grows s s' :=
  ⟨fun _ h => hlog ▸ h, houtside⟩

end Grows

variable (P : Platform N)

def writeLookups : Nat → File N → (Nat → UInt8) → Nat → Nat → List (File N)
  | 0, _, _, _, _ => []
  | fuel + 1, s, data, done, left =>
    if left = 0 then []
    else
      s :: match s.getDataNode P with
      | (none, _) => []
      | (some a, s) =>
        let n := min left (nodeSize - (s.offset - mdUserDataSize) % nodeSize)
        writeLookups fuel ((s.storeData a (fun i => data (done + i)) n).markDirty a) data (done + n) (left - n)

def readLookups : Nat → File N → Nat → List (File N)
  | 0, _, _ => []
  | fuel + 1, s, left =>
    if left = 0 then []
    else
      s :: match s.getDataNode P with
      | (none, _) => []
      | (some _, s) =>
        let n := min left (nodeSize - (s.offset - mdUserDataSize) % nodeSize)
        readLookups fuel (s.setOffset (s.offset + n)) (left - n)

def lookups (s : File N) : Op → List (File N)
  | .write (some buffer) size count =>
    if size = 0 ∨ count = 0 ∨ (s.writeRefused buffer size count).isSome then []
    else
      let (s, n) := s.seekToStart.writeMetaData buffer.bytes (size * count)
      s.writeLookups P (size * count - n) buffer.bytes n (size * count - n)
  | .read (some buffer) size count =>
    if size = 0 ∨ count = 0 ∨ (s.readRefused buffer.outside size count).isSome
        ∨ s.endOfFile = true ∨ s.offset = s.encryptedPartPlain.size then []
    else
      let attempted := min (size * count) (s.encryptedPartPlain.size - s.offset)
      let (s, out) := s.readMetaData attempted
      s.readLookups P (attempted - out.length) (attempted - out.length)
  | _ => []

section Lookup

variable (s : File N)

theorem grows_freadNode (k : Nat) : Grows s (s.freadNode k).2 := by
  unfold freadNode
  split
  . exact .of_eq rfl rfl
  split
  . exact .of_eq rfl rfl
  . split <;> exact .of_eq rfl rfl

theorem grows_gcmDecrypt (key : Key) (cipher : N) (gmac : Mac) : Grows s (s.gcmDecrypt P key cipher gmac).2 := by
  unfold gcmDecrypt
  split
  . exact .of_eq rfl rfl
  . split <;> exact .of_eq rfl rfl

theorem grows_setCache (cache : Lru.Cache Nat Addr) : Grows s (s.setCache cache) := .of_eq rfl rfl

theorem grows_addNode (n : FileNode N) : Grows s (s.addNode n).2 := by
  unfold addNode new
  cases decide (s.outcome.status = 0)
  . exact .of_eq rfl rfl
  have halloc : Grows s (s.nextCall.alloc n) := .of_eq rfl rfl
  exact halloc.trans (grows_setCache _ _)

theorem grows_appendNode (number physical : Nat) (parent : MhtPtr) (plain : Plain) :
    Grows s (s.appendNode P number physical parent plain).2 := by
  unfold appendNode new
  cases decide (s.outcome.status = 0) with
  | false => exact .of_eq rfl rfl
  | true =>
    have hnext : Grows s s.nextCall := .of_eq rfl rfl
    exact hnext.trans (grows_addNode s.nextCall _)

theorem grows_loadNode (number physical : Nat) (parent : MhtPtr) (c : GcmCryptoData) (cast : N → Plain) :
    Grows s (s.loadNode P number physical parent c cast).2 := by
  unfold loadNode new
  cases decide (s.outcome.status = 0) with
  | false => exact .of_eq rfl rfl
  | true =>
    have hnext : Grows s s.nextCall := .of_eq rfl rfl
    have hread := hnext.trans (grows_freadNode s.nextCall physical)
    dsimp only
    generalize s.nextCall.freadNode physical = res at hread ⊢
    rcases res with ⟨e | cipher, s2⟩
    . exact hread.trans (.of_eq rfl rfl)
    have hdecrypt := grows_gcmDecrypt P s2 c.key cipher c.gmac
    dsimp only at hread ⊢
    generalize s2.gcmDecrypt P c.key cipher c.gmac = res at hdecrypt ⊢
    rcases res with ⟨e | plain, s3⟩
    . dsimp only
      have hfail : Grows s3 (s3.fail e) := .of_eq rfl rfl
      split
      . exact (hread.trans hdecrypt).trans (.of_eq rfl rfl)
      . exact (hread.trans hdecrypt).trans hfail
    . exact (hread.trans hdecrypt).trans (grows_addNode s3 _)

theorem grows_readMhtNode_go (fuel : Nat) : ∀ (m : Nat) (s : File N), Grows s (readMhtNode.go P fuel m s).2 := by
  induction fuel with
  | zero =>
    intro m s
    cases m <;> exact .refl s
  | succ fuel ih =>
    intro m s
    cases m with
    | zero => exact .refl s
    | succ m =>
      rw [readMhtNode.go]
      split
      . exact .refl s
      have hparent := ih (NodeId.mht (m + 1)).parent s
      generalize readMhtNode.go P fuel (NodeId.mht (m + 1)).parent s = res at hparent ⊢
      rcases res with ⟨_ | parent, s1⟩
      . exact hparent
      . exact hparent.trans (grows_loadNode P s1 _ _ _ _ _)

theorem grows_getMhtNode : Grows s (s.getMhtNode P).2 := by
  have happend : ∀ m, Grows s (s.appendMhtNode P m).2 := by
    intro m
    have hparent : Grows s (s.readMhtNode P (NodeId.mht m).parent).2 :=
      grows_readMhtNode_go P _ _ s
    unfold appendMhtNode
    generalize s.readMhtNode P (NodeId.mht m).parent = res at hparent ⊢
    rcases res with ⟨_ | parent, s1⟩
    . exact hparent
    . exact hparent.trans (grows_appendNode P s1 _ _ _ _)
  unfold getMhtNode
  split
  . exact .of_eq rfl rfl
  dsimp only
  split
  . exact .refl s
  split
  . exact happend _
  . exact grows_readMhtNode_go P _ _ s

theorem grows_findDataNode : Grows s (s.findDataNode P).2 := by
  have hmht := grows_getMhtNode P s
  unfold findDataNode
  split
  . unfold appendDataNode
    generalize s.getMhtNode P = res at hmht ⊢
    rcases res with ⟨_ | parent, s1⟩
    . exact hmht
    . exact hmht.trans (grows_appendNode P s1 _ _ _ _)
  unfold readDataNode
  dsimp only
  split
  . exact .of_eq rfl rfl
  generalize s.getMhtNode P = res at hmht ⊢
  rcases res with ⟨_ | parent, s1⟩
  . exact hmht
  . exact hmht.trans (grows_loadNode P s1 _ _ _ _ _)

theorem grows_bumpParents (found : Option Addr) : Grows s (s.bumpParents found) := by
  have hbump : ∀ (as : List Addr) (s : File N), Grows s (s.bump as) := by
    intro as
    induction as with
    | nil => exact fun s => .refl s
    | cons a as ih =>
      intro s
      have hget : Grows s (s.setCache (s.cache.get (s.heap a).physicalNodeNumber).2) :=
        .of_eq rfl rfl
      exact hget.trans (ih _)
  cases found with
  | none => exact .refl s
  | some a => exact hbump _ s

theorem grows_evict (fuel : Nat) : ∀ s : File N, Grows s (s.evict P fuel).2 := by
  induction fuel with
  | zero =>
    intro s
    rw [evict]
    split <;> exact .of_eq rfl rfl
  | succ fuel ih =>
    intro s
    rw [evict]
    split
    . exact Grows.refl _
    cases s.cache.getLast with
    | none => exact .of_eq rfl rfl
    | some a =>
      dsimp only
      split
      . have hlast : Grows s (s.evictLast a) := .of_eq rfl rfl
        exact hlast.trans (ih _)
      have hflush := Grows.of_frame (frame_internalFlush P s false)
      generalize s.internalFlush P false = res at hflush ⊢
      rcases res with ⟨_ | _, s1⟩
      . dsimp only
        split
        . exact hflush.trans (.of_eq rfl rfl)
        . exact hflush
      . exact hflush.trans (ih s1)

theorem grows_getDataNode : Grows s (s.getDataNode P).2 := by
  unfold getDataNode
  split
  . exact .of_eq rfl rfl
  have hfind := grows_findDataNode P s
  generalize s.findDataNode P = res at hfind ⊢
  rcases res with ⟨found, s1⟩
  dsimp only at hfind ⊢
  have hevict := (hfind.trans (grows_bumpParents s1 found)).trans
    (grows_evict P (2 * (s1.bumpParents found).cache.size + 2) (s1.bumpParents found))
  generalize (s1.bumpParents found).evict P (2 * (s1.bumpParents found).cache.size + 2) = res
    at hevict ⊢
  rcases res with ⟨_ | _, s2⟩ <;> exact hevict

end Lookup

section Transfer

variable (s : File N)

theorem grows_storeData (a : Addr) (data : Nat → UInt8) (n : Nat) : Grows s ((s.storeData a data n).markDirty a) := by
  have hstore : Grows s (s.storeData a data n) := .of_eq rfl rfl
  exact hstore.trans (.of_frame (frame_markDirty (s.storeData a data n) a))

theorem grows_writeLoop (data : Nat → UInt8) (fuel : Nat) : ∀ (s : File N) (done left : Nat),
      Grows s (s.writeLoop P fuel data done left).2 := by
  induction fuel with
  | zero => exact fun _ _ _ => Grows.refl _
  | succ fuel ih =>
    intro s done left
    rw [writeLoop]
    split
    . exact Grows.refl _
    have hget := grows_getDataNode P s
    generalize s.getDataNode P = res at hget ⊢
    rcases res with ⟨_ | a, s1⟩
    . exact hget
    . exact Grows.trans hget (Grows.trans (grows_storeData s1 a _ _) (ih _ _ _))

theorem grows_readLoop (fuel : Nat) : ∀ (s : File N) (out : List UInt8) (left : Nat),
      Grows s (s.readLoop P fuel out left).2 := by
  induction fuel with
  | zero => exact fun _ _ _ => Grows.refl _
  | succ fuel ih =>
    intro s out left
    rw [readLoop]
    split
    . exact Grows.refl _
    have hget := grows_getDataNode P s
    generalize s.getDataNode P = res at hget ⊢
    rcases res with ⟨_ | a, s1⟩
    . exact hget
    have hoffset : ∀ offset, Grows s1 (s1.setOffset offset) := fun _ => .of_eq rfl rfl
    exact hget.trans ((hoffset _).trans (ih _ _ _))

theorem outside_writeLookups (data : Nat → UInt8) (fuel : Nat) :
    ∀ {s : File N} {done left : Nat}, ∀ u ∈ s.writeLookups P fuel data done left, u.outside = s.outside := by
  induction fuel with
  | zero => simp [writeLookups]
  | succ fuel ih =>
    intro s done left u hu
    rw [writeLookups] at hu
    split at hu
    . cases hu
    have hget := grows_getDataNode P s
    generalize s.getDataNode P = res at hget hu
    rcases res with ⟨_ | a, s1⟩ <;> rw [List.mem_cons] at hu <;> rcases hu with rfl | hu
    . rfl
    . cases hu
    . rfl
    . exact (ih u hu).trans (hget.trans (grows_storeData s1 a _ _)).outside

theorem outside_readLookups (fuel : Nat) :
    ∀ {s : File N} {left : Nat}, ∀ u ∈ s.readLookups P fuel left, u.outside = s.outside := by
  induction fuel with
  | zero => simp [readLookups]
  | succ fuel ih =>
    intro s left u hu
    rw [readLookups] at hu
    split at hu
    . cases hu
    have hget := grows_getDataNode P s
    generalize s.getDataNode P = res at hget hu
    rcases res with ⟨_ | a, s1⟩ <;> rw [List.mem_cons] at hu <;> rcases hu with rfl | hu
    . rfl
    . cases hu
    . rfl
    . exact (ih u hu).trans hget.outside

theorem outside_writeMetaData (data : Nat → UInt8) (left : Nat) :
    (s.seekToStart.writeMetaData data left).1.outside = s.outside := by
  unfold writeMetaData seekToStart
  split <;> split <;> rfl

theorem outside_readMetaData (left : Nat) : (s.readMetaData left).1.outside = s.outside := by
  unfold readMetaData
  split <;> rfl

theorem outside_lookups {s : File N} {op : Op} {u : File N} (hu : u ∈ s.lookups P op) : u.outside = s.outside := by
  unfold lookups at hu
  split at hu
  . split at hu
    . cases hu
    . exact (outside_writeLookups P _ _ u hu).trans (outside_writeMetaData s _ _)
  . split at hu
    . cases hu
    . exact (outside_readLookups P _ u hu).trans (outside_readMetaData s _)
  . cases hu

end Transfer

end File
end ProtectedFs
