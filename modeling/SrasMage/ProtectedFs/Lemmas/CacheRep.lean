import SrasMage.Lru.Lemmas
import SrasMage.ProtectedFs.Lemmas.Frame
import SrasMage.ProtectedFs.Lemmas.Nodes

/-!
This module contains the representation invariant of the node cache.
-/

namespace ProtectedFs

variable {N : Type}

namespace File

structure CacheRep (Q : NodeId → Prop) (s : File N) : Prop where
  wf : s.cache.Wf
  node : ∀ key a, s.cache.data? key = some a →
    (s.heap a).physicalNodeNumber = key ∧ a < s.nextAddr
  id : ∀ key ∈ s.cache.keys, ∃ id : NodeId, id.physical = key ∧ Q id

namespace CacheRep

variable {Q : NodeId → Prop} {s s' : File N}

theorem mono {Q' : NodeId → Prop} (h : CacheRep Q s) (hQ : ∀ id, Q id → Q' id) : CacheRep Q' s where
  wf := h.wf
  node := h.node
  id key hkey := by
    rcases h.id key hkey with ⟨id, hid, hq⟩
    exact ⟨id, hid, hQ id hq⟩

theorem sameNodes (h : CacheRep Q s) (hf : SameNodes s s') : CacheRep Q s' where
  wf := hf.cache ▸ h.wf
  node key a hdata := by
    rw [hf.cache] at hdata
    have hshape := hf.shape a
    simp only [FileNode.shape, Prod.mk.injEq] at hshape
    rw [hf.nextAddr, hshape.2.2.1]
    exact h.node key a hdata
  id key hkey := by
    rw [hf.cache] at hkey
    exact h.id key hkey

theorem frame (h : CacheRep Q s) (hf : Frame s s') : CacheRep Q s' := h.sameNodes hf.nodes

variable {i : NodeId}

theorem notMem (h : CacheRep Q s) (hi : ¬ Q i) : i.physical ∉ s.cache.keys := by
  intro hmem
  rcases h.id _ hmem with ⟨j, heq, hq⟩
  rw [NodeId.physical_injective heq] at hq
  exact hi hq

theorem exclude (h : CacheRep Q s) (hi : i.physical ∉ s.cache.keys) : CacheRep (fun j => Q j ∧ j ≠ i) s where
  wf := h.wf
  node := h.node
  id key hkey := by
    rcases h.id key hkey with ⟨j, hj, hq⟩
    refine ⟨j, hj, hq, ?_⟩
    rintro rfl
    exact hi (hj ▸ hkey)

theorem add (h : CacheRep Q s) {n : FileNode N} (hn : n.physicalNodeNumber = i.physical) (hq : Q i)
    (hfresh : i.physical ∉ s.cache.keys) :
    CacheRep Q ((s.alloc n).setCache (s.cache.add n.physicalNodeNumber s.nextAddr)) where
  wf := by
    rw [hn]
    exact h.wf.add hfresh _
  node key a hdata := by
    simp only [setCache, alloc, setNode] at hdata ⊢
    rw [Lru.Cache.data?_add] at hdata
    split at hdata
    . next hkey =>
      cases hdata
      simp [hkey]
    have hold := h.node key a hdata
    rw [Function.update_of_ne (Nat.ne_of_lt hold.2)]
    exact ⟨hold.1, Nat.lt_succ_of_lt hold.2⟩
  id key hkey := by
    simp only [setCache, alloc, setNode, Lru.Cache.keys_add, List.mem_cons] at hkey
    rcases hkey with hkey | hkey
    . exact ⟨i, by rw [hkey, hn], hq⟩
    . exact h.id key hkey

theorem get (h : CacheRep Q s) (key : Nat) : CacheRep Q (s.setCache (s.cache.get key).2) where
  wf := h.wf.get key
  node k a hdata := by
    simp only [setCache] at hdata ⊢
    rw [h.wf.get_data?] at hdata
    exact h.node k a hdata
  id k hk := by
    apply h.id k
    rw [h.wf.mem_keys_iff]
    simp only [setCache] at hk
    rw [(h.wf.get key).mem_keys_iff, h.wf.get_data?] at hk
    exact hk

theorem removeLast (h : CacheRep Q s) : CacheRep Q (s.setCache s.cache.removeLast) where
  wf := h.wf.removeLast
  node k a hdata := by
    simp only [setCache] at hdata ⊢
    rcases List.eq_nil_or_concat s.cache.keys with hnil | ⟨ks, last, hks⟩
    . have := (h.wf.removeLast.mem_keys_iff k).2 ⟨a, hdata⟩
      simp [Lru.Cache.removeLast_keys, hnil] at this
    rw [List.concat_eq_append] at hks
    rw [Lru.Cache.removeLast_data? hks] at hdata
    split at hdata
    . cases hdata
    . exact h.node k a hdata
  id k hk := by
    apply h.id k
    simp only [setCache, Lru.Cache.removeLast_keys] at hk
    exact List.mem_of_mem_dropLast hk

end CacheRep

def cursor (s : File N) := (s.offset, s.encryptedPartPlain.size, s.openMode)

@[simp]
theorem cursor_setCache (s : File N) (cache : Lru.Cache Nat Addr) : (s.setCache cache).cursor = s.cursor := rfl

theorem Frame.cursor {s s' : File N} (h : Frame s s') : s'.cursor = s.cursor := by
  simp only [File.cursor, h.offset, h.size, h.openMode]

section Lookup

variable (P : Platform N) {Q : NodeId → Prop}

def Keeps (Q : NodeId → Prop) (s s' : File N) : Prop := CacheRep Q s' ∧ s'.cursor = s.cursor

variable {s : File N} {i : NodeId}

theorem Keeps.trans {s' s'' : File N} (h : Keeps Q s s') (h' : Keeps Q s' s'') : Keeps Q s s'' :=
  ⟨h'.1, h'.2.trans h.2⟩

theorem Keeps.of_frame {s' : File N} (h : CacheRep Q s) (hf : Frame s s') : Keeps Q s s' :=
  ⟨h.frame hf, hf.cursor⟩

theorem keeps_addNode (h : CacheRep Q s) {n : FileNode N} (hn : n.physicalNodeNumber = i.physical) (hq : Q i)
    (hfresh : i.physical ∉ s.cache.keys) : Keeps Q s (s.addNode n).2 := by
  unfold addNode
  dsimp only [new]
  split
  . next hnew =>
    cases (Prod.mk.inj hnew).2
    exact .of_frame h (Frame.of_view rfl)
  next hnew =>
  cases (Prod.mk.inj hnew).2
  exact ⟨(h.frame (frame_nextCall s)).add hn hq hfresh, (cursor_setCache _ _).trans rfl⟩

theorem keeps_appendNode (h : CacheRep Q s) (number : Nat) (parent : MhtPtr) (plain : Plain) (hq : Q i)
    (hfresh : i.physical ∉ s.cache.keys) : Keeps Q s (s.appendNode P number i.physical parent plain).2 := by
  unfold appendNode
  dsimp only [new]
  split
  . next hnew =>
    cases (Prod.mk.inj hnew).2
    exact .of_frame h (Frame.of_view rfl)
  next hnew =>
  cases (Prod.mk.inj hnew).2
  exact keeps_addNode (s := s.nextCall) (h.frame (frame_nextCall s)) rfl hq hfresh

theorem frame_freadNode (s : File N) (k : Nat) : Frame s (s.freadNode k).2 := by
  unfold freadNode
  split
  . exact Frame.of_view rfl
  split
  . exact Frame.of_view rfl
  . split <;> exact Frame.of_view rfl

theorem frame_gcmDecrypt (s : File N) (k : Key) (c : N) (t : Mac) : Frame s (s.gcmDecrypt P k c t).2 := by
  unfold gcmDecrypt
  split
  . exact Frame.of_view rfl
  . split <;> exact Frame.of_view rfl

theorem keeps_loadNode (h : CacheRep Q s) (number : Nat) (parent : MhtPtr) (c : GcmCryptoData)
    (cast : N → Plain) (hq : Q i) (hfresh : i.physical ∉ s.cache.keys) :
    Keeps Q s (s.loadNode P number i.physical parent c cast).2 := by
  unfold loadNode
  dsimp only [new]
  split
  . next hnew =>
    cases (Prod.mk.inj hnew).2
    exact .of_frame h (Frame.of_view rfl)
  next hnew =>
  cases (Prod.mk.inj hnew).2
  have hnext := frame_nextCall s
  split
  . next hread =>
    exact .of_frame h (hnext.trans (((frame_freadNode _ _).snd hread).trans (frame_fail _ _)))
  next hread =>
  have hread := hnext.trans ((frame_freadNode _ _).snd hread)
  split
  . next hdec =>
    have hdec := hread.trans ((frame_gcmDecrypt P _ _ _ _).snd hdec)
    apply Keeps.of_frame h
    split
    . exact hdec.trans ((frame_fail _ _).trans (frame_setStatus _ _))
    . exact hdec.trans (frame_fail _ _)
  . next hdec =>
    have hdec := hread.trans ((frame_gcmDecrypt P _ _ _ _).snd hdec)
    apply Keeps.trans ⟨h.frame hdec, hdec.cursor⟩
    apply keeps_addNode (h.frame hdec) rfl hq
    rwa [hdec.cache]

theorem keeps_readMhtNode_go (fuel : Nat) : ∀ (m : Nat) (s : File N), CacheRep Q s → (∀ m' ≤ m, Q (.mht m')) →
      Keeps Q s (readMhtNode.go P fuel m s).2 := by
  induction fuel generalizing Q with
  | zero =>
    intro m s h _
    cases m <;> exact ⟨h, rfl⟩
  | succ fuel ih =>
    intro m s h hQ
    cases m with
    | zero => exact ⟨h, rfl⟩
    | succ m =>
      rw [readMhtNode.go]
      split
      . exact ⟨h, rfl⟩
      next hfind =>
      have hparent := NodeId.parent_mht_lt (Nat.succ_ne_zero m)
      -- the chain above cannot bring in the node itself
      have hnot := (h.wf.data?_eq_none_iff _).1 hfind
      have hrec := ih _ s (h.exclude (i := .mht (m + 1)) hnot) (fun m' hm' =>
        ⟨hQ m' (Nat.le_trans hm' (Nat.le_of_lt hparent)), by
          rw [ne_eq, NodeId.mht.injEq]
          omega⟩)
      have hkeep : Keeps Q s (readMhtNode.go P fuel (NodeId.mht (m + 1)).parent s).2 :=
        ⟨hrec.1.mono (fun _ hi => hi.1), hrec.2⟩
      split
      . next heq =>
        rwa [heq] at hkeep
      next heq =>
      rw [heq] at hrec hkeep
      refine hkeep.trans (keeps_loadNode P (i := .mht (m + 1)) hkeep.1 _ _ _ _ (hQ _ le_rfl) ?_)
      exact hrec.1.notMem (by simp)

theorem keeps_readMhtNode (h : CacheRep Q s) {m : Nat} (hQ : ∀ m' ≤ m, Q (.mht m')) : Keeps Q s (s.readMhtNode P m).2 :=
  keeps_readMhtNode_go P m m s h hQ

theorem keeps_appendMhtNode (h : CacheRep Q s) {m : Nat} (hm : m ≠ 0) (hnot : ¬ Q (.mht m))
    (hQ : ∀ m' < m, Q (.mht m')) : Keeps (fun i => Q i ∨ i = .mht m) s (s.appendMhtNode P m).2 := by
  have hparent := NodeId.parent_mht_lt hm
  have hread := keeps_readMhtNode P h (m := (NodeId.mht m).parent) (fun m' hm' => hQ m' (by omega))
  unfold appendMhtNode
  split
  . next heq =>
    rw [heq] at hread
    exact ⟨hread.1.mono (fun _ => .inl), hread.2⟩
  next heq =>
  rw [heq] at hread
  have hrep : CacheRep (fun i => Q i ∨ i = .mht m) _ := hread.1.mono (fun _ => .inl)
  exact .trans ⟨hrep, hread.2⟩ (keeps_appendNode P (i := .mht m) hrep _ _ _ (.inr rfl) (hread.1.notMem hnot))

theorem keeps_getMhtNode (h : CacheRep Q s)
    (hin : ¬ ((s.offset - mdUserDataSize) % (attachedDataNodesCount * nodeSize) = 0
      ∧ s.offset = s.encryptedPartPlain.size)) (hQ : ∀ m ≤ (getNodeNumbers s.offset).mhtNodeNumber, Q (.mht m)) :
    Keeps Q s (s.getMhtNode P).2 := by
  unfold getMhtNode
  dsimp only
  rw [if_neg hin]
  split
  . exact .of_frame h (frame_fail s _)
  split
  . exact ⟨h, rfl⟩
  . exact keeps_readMhtNode P h hQ

theorem keeps_readDataNode (h : CacheRep Q s) (hin : ¬ ((s.offset - mdUserDataSize) % nodeSize = 0
      ∧ s.offset = s.encryptedPartPlain.size))
    (hQ : ∀ i : NodeId, i.firstOffset ≤ (NodeId.atOffset s.offset).firstOffset → Q i) :
    Keeps Q s (s.readDataNode P).2 := by
  unfold readDataNode
  dsimp only
  split
  . next cache hget =>
    have : cache = (s.cache.get (getNodeNumbers s.offset).physicalDataNodeNumber).2 := by rw [hget]
    rw [this]
    exact ⟨h.get _, by simp⟩
  next hget =>
  have hfst := h.wf.get_fst (getNodeNumbers s.offset).physicalDataNodeNumber
  rw [hget] at hfst
  have hnot := (h.wf.data?_eq_none_iff _).1 hfst.symm
  have hkeep := keeps_getMhtNode P (h.exclude (i := .atOffset s.offset) hnot)
    (fun hbound => hin ⟨by simp only [nodeSize, attachedDataNodesCount] at *; omega, hbound.2⟩)
    (fun m hm => ⟨hQ _ (NodeId.firstOffset_mht_le hm), by simp⟩)
  split
  . next heq =>
    rw [heq] at hkeep
    exact ⟨hkeep.1.mono (fun _ hi => hi.1), hkeep.2⟩
  next heq =>
  rw [heq] at hkeep
  have hrep := hkeep.1.mono (fun _ hi => hi.1)
  exact .trans ⟨hrep, hkeep.2⟩ (keeps_loadNode P (i := .atOffset s.offset) hrep _ _ _ _ (hQ _ le_rfl)
      (hkeep.1.notMem (by simp)))

theorem keeps_appendDataNode (h : CacheRep (fun i => i.firstOffset < s.encryptedPartPlain.size) s)
    (hoffset : mdUserDataSize ≤ s.offset) (haligned : (s.offset - mdUserDataSize) % nodeSize = 0)
    (hend : s.offset = s.encryptedPartPlain.size) :
    Keeps (fun i => i.firstOffset ≤ s.encryptedPartPlain.size) s (s.appendDataNode P).2 := by
  have hd := NodeId.firstOffset_atOffset_of_aligned hoffset haligned
  -- whatever happens to the MHT node, the data node is not there yet
  have hmht : Keeps (fun i => i.firstOffset ≤ s.encryptedPartPlain.size ∧ i ≠ .atOffset s.offset) s
      (s.getMhtNode P).2 := by
    have hlt : ∀ i : NodeId, i.firstOffset < s.encryptedPartPlain.size →
        i.firstOffset ≤ s.encryptedPartPlain.size ∧ i ≠ .atOffset s.offset := by
      rintro i hi
      refine ⟨Nat.le_of_lt hi, ?_⟩
      rintro rfl
      omega
    have hle : ∀ m ≤ (getNodeNumbers s.offset).mhtNodeNumber,
        (NodeId.mht m).firstOffset ≤ s.encryptedPartPlain.size := by
      intro m hm
      have := NodeId.firstOffset_mht_le hm
      omega
    unfold getMhtNode
    dsimp only
    split
    . exact .of_frame (h.mono hlt) (frame_fail s _)
    split
    . exact ⟨h.mono hlt, rfl⟩
    next hzero =>
    have hstart := NodeId.firstOffset_mht_eq_iff hoffset
    split
    . next hbound =>
      have hkeep := keeps_appendMhtNode P h hzero (by rw [hstart.2 hbound.1]; omega)
        (fun m' hm' => Nat.lt_of_lt_of_le (NodeId.firstOffset_mht_mono hm') (hle _ le_rfl))
      refine ⟨hkeep.1.mono ?_, hkeep.2⟩
      rintro i (hi | rfl)
      . exact hlt i hi
      . exact ⟨hle _ le_rfl, by simp⟩
    next hbound =>
    have hkeep := keeps_readMhtNode P h (m := (getNodeNumbers s.offset).mhtNodeNumber) (by
      intro m' hm'
      have hm := hle m' hm'
      rcases Nat.lt_or_eq_of_le hm' with hlt' | rfl
      . exact Nat.lt_of_lt_of_le (NodeId.firstOffset_mht_mono hlt') (hle _ le_rfl)
      have : (NodeId.mht (getNodeNumbers s.offset).mhtNodeNumber).firstOffset ≠ s.offset :=
        fun heq => hbound ⟨hstart.1 heq, hend⟩
      omega)
    exact ⟨hkeep.1.mono hlt, hkeep.2⟩
  unfold appendDataNode
  dsimp only
  split
  . next heq =>
    rw [heq] at hmht
    exact ⟨hmht.1.mono (fun _ hi => hi.1), hmht.2⟩
  next s1 heq =>
  rw [heq] at hmht
  have hrep := hmht.1.mono (fun _ hi => hi.1)
  have hcursor : s1.offset = s.offset := congrArg Prod.fst hmht.2
  rw [hcursor]
  exact .trans ⟨hrep, hmht.2⟩ (keeps_appendNode P (i := .atOffset s.offset) hrep _ _ _ (by rw [hd, hend])
      (hmht.1.notMem (by simp)))

theorem keeps_bump (as : List Addr) : ∀ s : File N, CacheRep Q s → Keeps Q s (s.bump as) := by
  induction as with
  | nil =>
    intro s h
    exact ⟨h, rfl⟩
  | cons a as ih =>
    intro s h
    have hget := h.get (s.heap a).physicalNodeNumber
    exact .trans ⟨hget, cursor_setCache _ _⟩ (ih _ hget)

theorem keeps_bumpParents (h : CacheRep Q s) (found : Option Addr) : Keeps Q s (s.bumpParents found) := by
  cases found with
  | none => exact ⟨h, rfl⟩
  | some a => exact keeps_bump _ _ h

theorem keeps_evictLast (h : CacheRep Q s) (a : Addr) : Keeps Q s (s.evictLast a) := by
  have hscrub := frame_modifyNode s a (FileNode.shape_setPlain Plain.isData_scrub)
  refine ⟨(h.frame hscrub).removeLast, ?_⟩
  rw [evictLast, cursor_setCache, hscrub.cursor]

theorem keeps_evict (fuel : Nat) : ∀ s : File N, CacheRep Q s → Keeps Q s (s.evict P fuel).2 := by
  induction fuel with
  | zero =>
    intro s h
    unfold evict
    split
    . exact ⟨h, rfl⟩
    . exact ⟨h.sameNodes ⟨rfl, rfl, fun _ => rfl⟩, rfl⟩
  | succ fuel ih =>
    intro s h
    unfold evict
    split
    . exact ⟨h, rfl⟩
    dsimp only
    split
    . exact .of_frame h (frame_fail s _)
    next a _ =>
    split
    . have hlast := keeps_evictLast h a
      exact hlast.trans (ih _ hlast.1)
    have hflush := Keeps.of_frame h (frame_internalFlush P s false)
    split
    . next heq =>
      rw [heq] at hflush
      exact hflush.trans (ih _ hflush.1)
    next heq =>
    rw [heq] at hflush
    split
    . exact hflush.trans (.of_frame hflush.1 (frame_setStatus _ _))
    . exact hflush

theorem keeps_getDataNode (h : CacheRep Q s) (hfind : Keeps Q s (s.findDataNode P).2) :
    Keeps Q s (s.getDataNode P).2 := by
  unfold getDataNode
  split
  . exact .of_frame h (frame_fail s _)
  generalize hres : s.findDataNode P = res at hfind
  rcases res with ⟨found, s1⟩
  dsimp only
  have hbump := hfind.trans (keeps_bumpParents hfind.1 found)
  have hevict := hbump.trans (keeps_evict P (2 * (s1.bumpParents found).cache.size + 2) _ hbump.1)
  split
  . next heq =>
    rwa [heq] at hevict
  next heq =>
  rwa [heq] at hevict

end Lookup

end File
end ProtectedFs
