import SrasMage.ProtectedFs.Lemmas.Order

/-!
This module contains the effect of a write on the tree.
-/

namespace ProtectedFs

open NodeId

def NodeId.Above (i j : NodeId) : Prop :=
  j = i ∨ (∃ m ∈ i.ancestors, j = .mht m) ∨ j = .mht 0

namespace NodeId.Above

variable {i j : NodeId}

theorem parent (h : Above i j) : Above i (.mht j.parent) := by
  have hmht : ∀ m, m = 0 ∨ m ∈ i.ancestors → Above i (.mht m) := by
    rintro m (rfl | hm)
    . exact .inr (.inr rfl)
    . exact .inr (.inl ⟨m, hm, rfl⟩)
  rcases h with rfl | ⟨m, hm, rfl⟩ | rfl
  . by_cases h0 : j.parent = 0
    . exact hmht _ (.inl h0)
    . exact hmht _ (.inr (self_mem_mhtChain le_rfl h0))
  . exact hmht _ (parent_mem_mhtChain _ _ le_rfl m hm)
  . exact hmht _ (.inl rfl)

theorem firstOffset_le (h : Above i j) : j.firstOffset ≤ i.firstOffset := by
  have hmht : ∀ m ≤ i.parent, (mht m).firstOffset ≤ i.firstOffset := by
    intro m hm
    have hparent := firstOffset_parent_le i
    simp only [firstOffset, attachedDataNodesCount, nodeSize] at hparent ⊢
    omega
  rcases h with rfl | ⟨m, hm, rfl⟩ | rfl
  . exact le_rfl
  . exact hmht m (mem_mhtChain_le _ _ m hm).2
  . exact hmht 0 (Nat.zero_le _)

end NodeId.Above

theorem NodeId.above_of_firstOffset {offset : Nat} (hmin : mdUserDataSize ≤ offset) {j : NodeId}
    (hlow : offset ≤ j.firstOffset)
    (hhigh : j.firstOffset < (atOffset offset).firstOffset + nodeSize) :
    (atOffset offset).Above j := by
  cases j with
  | data d =>
    left
    simp only [atOffset, firstOffset, getNodeNumbers, nodeSize, mdUserDataSize, data.injEq] at *
    omega
  | mht m =>
    have hm : m = (atOffset offset).parent := by
      simp only [atOffset, firstOffset, getNodeNumbers, nodeSize, mdUserDataSize, attachedDataNodesCount, parent] at *
      omega
    rw [hm]
    exact NodeId.Above.parent (.inl rfl)

variable {N : Type}

namespace File

section MarkDirty

variable {s : File N}

variable {a : Addr} {i j : NodeId}

theorem mem_parents_iff (hs : Linked s) {m : Nat} {p : MhtPtr} (hp : s.loc (.mht m) = some p) :
    a ∈ s.parents p ↔ ∃ x ∈ mhtChain m m, s.loc (.mht x) = some (.node a) := by
  have hgo : ∀ fuel m p, m ≤ fuel → s.loc (.mht m) = some p →
      (a ∈ parents.go s fuel p ↔ ∃ x ∈ mhtChain fuel m, s.loc (.mht x) = some (.node a)) := by
    intro fuel
    induction fuel with
    | zero => simp [parents.go, mhtChain]
    | succ fuel ih =>
      intro m p hm hp
      cases p with
      | root =>
        have h0 := hs.loc_injective hp (loc_root s)
        cases h0
        simp [parents.go, mhtChain]
      | node b =>
        cases m with
        | zero =>
          rw [loc_root] at hp
          cases hp
        | succ m =>
          have hrest := ih _ _ (parent_mht_succ_le hm) (hs.parent_eq hp)
          rw [parents.go, mhtChain, List.mem_cons, List.exists_mem_cons_iff, hp, Option.some.injEq, MhtPtr.node.injEq]
          exact or_congr eq_comm hrest
  have hnumber : (s.mhtNode p).number = m := hs.number_eq hp
  rw [parents, hnumber]
  exact hgo m m p le_rfl hp

theorem heap_setNeedWriting (as : List Addr) (b : Addr) : ∀ s : File N, (s.setNeedWriting as).heap b
      = if b ∈ as then (s.heap b).setNeedWriting else s.heap b := by
  induction as with
  | nil => exact fun s => rfl
  | cons a as ih =>
    intro s
    rw [setNeedWriting, List.foldl_cons]
    have hrest := ih (s.modifyNode a FileNode.setNeedWriting)
    rw [setNeedWriting] at hrest
    rw [hrest]
    by_cases hb : b = a
    . subst hb
      have hheap : (s.modifyNode b FileNode.setNeedWriting).heap b = (s.heap b).setNeedWriting := by
        simp [modifyNode, setNode]
      rw [hheap, if_pos (by simp : b ∈ b :: as)]
      split <;> rfl
    . have hheap : (s.modifyNode a FileNode.setNeedWriting).heap b = s.heap b := by simp [modifyNode, setNode, hb]
      simp only [hheap, List.mem_cons, hb, false_or]

theorem rootMht_setNeedWriting (as : List Addr) : ∀ s : File N, (s.setNeedWriting as).rootMht = s.rootMht := by
  induction as with
  | nil => exact fun _ => rfl
  | cons a as ih => exact fun s => ih _

theorem loc_iff_above (hs : Linked s) (hi : s.cached i = some a) {p : MhtPtr} (hj : s.loc j = some p) :
    i.Above j ↔ p = .node a ∨ (∃ b ∈ s.parents (s.heap a).parent, p = .node b) ∨ p = .root := by
  have hloc := hs.loc_of_cached hi
  have hmem : ∀ b, b ∈ s.parents (s.heap a).parent ↔ ∃ x ∈ i.ancestors, s.loc (.mht x) = some (.node b) :=
    fun b => mem_parents_iff hs (hs.parent_eq hloc)
  constructor
  . rintro (rfl | ⟨m, hm, rfl⟩ | rfl)
    . rw [hloc, Option.some.injEq] at hj
      exact .inl hj.symm
    . cases p with
      | root => exact .inr (.inr rfl)
      | node b => exact .inr (.inl ⟨b, (hmem b).2 ⟨m, hm, hj⟩, rfl⟩)
    . rw [loc_root, Option.some.injEq] at hj
      exact .inr (.inr hj.symm)
  . rintro (rfl | ⟨b, hb, rfl⟩ | rfl)
    . exact .inl (hs.loc_injective hj hloc)
    . rcases (hmem b).1 hb with ⟨x, hx, hxb⟩
      exact .inr (.inl ⟨x, hx, hs.loc_injective hj hxb⟩)
    . exact .inr (.inr (hs.loc_injective hj (loc_root s)))

theorem exists_loc_of_above (hs : Linked s) (hi : s.cached i = some a) (h : i.Above j) : ∃ p, s.loc j = some p := by
  have hloc := hs.loc_of_cached hi
  rcases h with rfl | ⟨m, hm, rfl⟩ | rfl
  . exact ⟨_, hloc⟩
  . rcases (hs.mem_keys_iff (i := .mht m)).1 (hs.ancestors hloc m hm) with ⟨b, hb⟩
    exact ⟨_, hs.loc_of_cached hb⟩
  . exact ⟨_, loc_root s⟩

theorem Closed.above (hs : Closed s) (hi : s.Dirty i) (h : i.Above j) : s.Dirty j := by
  have hchain : ∀ fuel m, s.Dirty (.mht m) → ∀ x ∈ mhtChain fuel m, s.Dirty (.mht x) := by
    intro fuel
    induction fuel with
    | zero => simp [mhtChain]
    | succ fuel ih =>
      intro m hm x hx
      cases m with
      | zero => simp [mhtChain] at hx
      | succ m =>
        rw [mhtChain, List.mem_cons] at hx
        rcases hx with rfl | hx
        . exact hm
        . exact ih _ (hs.parent _ hm) x hx
  rcases h with rfl | ⟨m, hm, rfl⟩ | rfl
  . exact hi
  . exact hchain _ _ (hs.parent i hi) m hm
  . exact hs.root i hi

theorem loc_markDirty (s : File N) (a : Addr) (j : NodeId) : (s.markDirty a).loc j = s.loc j := by
  apply loc_congr
  unfold markDirty
  split
  . rfl
  . exact (frame_setNeedWriting _ _).cache

theorem Frame.parents {s s' : File N} (h : Frame s s') (p : MhtPtr) : s'.parents p = s.parents p := by
  have hshape : ∀ q, (s'.mhtNode q).number = (s.mhtNode q).number ∧ (s'.mhtNode q).parent = (s.mhtNode q).parent := by
    intro q
    have := shape_mhtNode h q
    simp only [FileNode.shape, Prod.mk.injEq] at this
    exact ⟨this.1, this.2.1⟩
  have hgo : ∀ fuel q, parents.go s' fuel q = parents.go s fuel q := by
    intro fuel
    induction fuel with
    | zero => exact fun _ => rfl
    | succ fuel ih =>
      intro q
      cases q with
      | root => rfl
      | node a =>
        have hparent : (s'.heap a).parent = (s.heap a).parent := (hshape (.node a)).2
        rw [parents.go, parents.go, ih, hparent]
  rw [File.parents, File.parents, (hshape p).1, hgo]

theorem mhtNode_markDirty (hclean : (s.heap a).needWriting ≠ true) (p : MhtPtr) : (s.markDirty a).mhtNode p =
    if p = .node a ∨ (∃ b ∈ s.parents (s.heap a).parent, p = .node b) ∨ p = .root then
      (s.mhtNode p).setNeedWriting
    else s.mhtNode p := by
  have hparents := (frame_modifyNode s a FileNode.shape_setNeedWriting).parents
  have hparent : ((s.modifyNode a FileNode.setNeedWriting).heap a).parent = (s.heap a).parent := by
    simp [modifyNode, setNode, FileNode.setNeedWriting]
  rw [markDirty, if_neg hclean]
  dsimp only
  rw [hparent, hparents]
  cases p with
  | root =>
    rw [if_pos (by simp)]
    have hroot : ((s.modifyNode a FileNode.setNeedWriting).setNeedWriting
        (s.parents (s.heap a).parent)).rootMht = s.rootMht := rootMht_setNeedWriting _ _
    exact congrArg FileNode.setNeedWriting hroot
  | node b =>
    have hheap := heap_setNeedWriting (s.parents (s.heap a).parent) b (s.modifyNode a FileNode.setNeedWriting)
    refine Eq.trans hheap ?_
    by_cases hb : b = a
    . subst hb
      have hself : (s.modifyNode b FileNode.setNeedWriting).heap b = (s.heap b).setNeedWriting := by
        simp [modifyNode, setNode]
      rw [hself]
      refine Eq.trans ?_ (if_pos (.inl rfl)).symm
      split <;> rfl
    . have hother : (s.modifyNode a FileNode.setNeedWriting).heap b = s.heap b := by simp [modifyNode, setNode, hb]
      rw [hother]
      simp [hb, mhtNode]

theorem node?_markDirty (hs : Linked s) (hclosed : Closed s) (hi : s.cached i = some a) {n : FileNode N}
    (hn : s.node? j = some n) :
    (i.Above j → (s.markDirty a).node? j = some n.setNeedWriting)
      ∧ (¬ i.Above j → (s.markDirty a).node? j = some n) := by
  rcases node?_eq_some_iff.1 hn with ⟨p, hp, rfl⟩
  rw [node?_of_loc (loc_markDirty s a j ▸ hp), Option.some.injEq, Option.some.injEq]
  by_cases hdirty : (s.heap a).needWriting = true
  . -- the path was marked before
    have hself : s.markDirty a = s := by rw [markDirty, if_pos hdirty]
    rw [hself]
    refine ⟨fun habove => ?_, fun _ => rfl⟩
    have hj : s.Dirty j :=
      hclosed.above ((dirty_of_loc (hs.loc_of_cached hi)).2 hdirty) habove
    rw [FileNode.setNeedWriting, ← (dirty_of_loc hp).1 hj]
  . have habove := loc_iff_above hs hi hp
    rw [mhtNode_markDirty hdirty]
    exact ⟨fun h => if_pos (habove.1 h), fun h => if_neg (habove.not.1 h)⟩

end MarkDirty

structure Touches (A : NodeId → Prop) (s s' : File N) : Prop where
  linked : Linked s'
  keys : s'.cache.keys = s.cache.keys
  host : s'.host = s.host
  fileMetaData : s'.fileMetaData = s.fileMetaData
  kdk : s'.kdk = s.kdk
  mhtKey : s'.encryptedPartPlain.mhtKey = s.encryptedPartPlain.mhtKey
  mhtGmac : s'.encryptedPartPlain.mhtGmac = s.encryptedPartPlain.mhtGmac
  size : s.encryptedPartPlain.size ≤ s'.encryptedPartPlain.size
  flag : s'.needWriting = true
  has : ∀ j, s'.Has j → s.Has j ∨ A j
  touched : ∀ j, A j → s'.Has j ∧ s'.Dirty j
  parent : ∀ j, A j → A (.mht j.parent)
  old : ∀ j n', s'.node? j = some n' → ∃ n, s.node? j = some n ∧ n'.newNode = n.newNode
    ∧ n'.encrypted = n.encrypted ∧ (¬ A j → n'.needWriting = n.needWriting)
  dirty : ∀ j, s.Dirty j → s'.Dirty j

namespace Touches

variable {P : Platform N} {E : Key × N → Prop} {A : NodeId → Prop} {s s' : File N} {t t' : Tree}

theorem has_of_has (h : Touches A s s') {j : NodeId} (hj : s.Has j) : s'.Has j :=
  Nat.lt_of_lt_of_le hj h.size

theorem dirty_iff (h : Touches A s s') (j : NodeId) : s'.Dirty j ↔ s.Dirty j ∨ A j := by
  constructor
  . rintro ⟨n', hn', hneed⟩
    by_cases hj : A j
    . exact .inr hj
    . rcases h.old j n' hn' with ⟨n, hn, -, -, hsame⟩
      exact .inl ⟨n, hn, (hsame hj).symm.trans hneed⟩
  . rintro (hj | hj)
    . exact h.dirty j hj
    . exact (h.touched j hj).2

theorem holds (h : Touches A s s') (hs : Holds P E s t) (hroot : t'.root = t.root)
    (hcrypto : ∀ j, t'.crypto j = t.crypto j) (hother : ∀ j, ¬ A j → t'.plain j = t.plain j)
    (hplain : ∀ j n', s'.node? j = some n' → n'.plain = t'.plain j) : Holds P E s' t' where
  linked := h.linked
  root := by rw [hroot, hs.root, h.mhtKey, h.mhtGmac]
  plain := hplain
  tail j hj := by
    have hA : ¬ A j := fun hA => hj (h.touched j hA).1
    rw [hother j hA]
    exact hs.tail j (fun hj' => hj (h.has_of_has hj'))
  main := by
    rw [h.host]
    exact hs.main
  disk j hj hclean := by
    rw [h.dirty_iff, not_or] at hclean
    rw [OnDisk, h.host, hcrypto, hother j hclean.2]
    exact hs.disk j ((h.has j hj).resolve_right hclean.2) hclean.1
  cipher j n' hn' hneed hold := by
    rcases h.old j n' hn' with ⟨n, hn, hnew, hencrypted, hsame⟩
    have hA : ¬ A j := fun hA => not_dirty_of_node? hn' hneed (h.touched j hA).2
    rw [SameCipher, h.host, hencrypted]
    exact hs.cipher j n hn ((hsame hA).symm.trans hneed) (hnew.symm.trans hold)
  old j n' hn' hold := by
    rcases h.old j n' hn' with ⟨n, hn, hnew, -⟩
    exact h.has_of_has (hs.old j n hn (hnew.symm.trans hold))
  new j n' hn' hnew' hneed := by
    rcases h.old j n' hn' with ⟨n, hn, hnew, -, hsame⟩
    have hA : ¬ A j := fun hA => not_dirty_of_node? hn' hneed (h.touched j hA).2
    intro hj
    exact hs.new j n hn (hnew.symm.trans hnew') ((hsame hA).symm.trans hneed) ((h.has j hj).resolve_right hA)

theorem closed (h : Touches A s s') (hs : Closed s) : Closed s' where
  has j hj := by
    rcases (h.dirty_iff j).1 hj with hj' | hA
    . exact h.has_of_has (hs.has j hj')
    . exact (h.touched j hA).1
  parent j hj := by
    rcases (h.dirty_iff j).1 hj with hj' | hA
    . exact h.dirty _ (hs.parent j hj')
    . exact (h.touched _ (h.parent j hA)).2
  flag _ := h.flag

theorem ready (h : Touches A s s') (hs : Ready P E s t) (hroot : t'.root = t.root)
    (hcrypto : ∀ j, t'.crypto j = t.crypto j) (hother : ∀ j, ¬ A j → t'.plain j = t.plain j)
    (hplain : ∀ j n', s'.node? j = some n' → n'.plain = t'.plain j) : Ready P E s' t' where
  holds := h.holds hs.holds hroot hcrypto hother hplain
  closed := h.closed hs.closed
  header := by
    rw [h.fileMetaData, h.kdk]
    exact hs.header
  saved hneed := by
    rw [h.flag] at hneed
    cases hneed
  cipher j n' hn' hold := by
    rcases h.old j n' hn' with ⟨n, hn, hnew, hencrypted, -⟩
    rw [SameCipher, h.host, hencrypted]
    exact hs.cipher j n hn (hnew.symm.trans hold)

end Touches

section StoreMetaData

variable {s : File N}

theorem touches_storeMetaData (hs : Linked s) {n : Nat} (hn : s.offset + n ≤ mdUserDataSize)
    (data : Nat → UInt8) : Touches (fun _ => False) s (s.storeMetaData data n) where
  linked := ⟨hs.wf, hs.keys, hs.addr, hs.shape⟩
  keys := rfl
  host := rfl
  fileMetaData := rfl
  kdk := rfl
  mhtKey := rfl
  mhtGmac := rfl
  size := Nat.le_max_left _ _
  flag := rfl
  has j hj := by
    have hfirst : mdUserDataSize ≤ j.firstOffset := by
      cases j <;> exact Nat.le_add_right _ _
    have hj' : j.firstOffset < max s.encryptedPartPlain.size (s.offset + n) := hj
    left
    rw [Has]
    omega
  touched _ h := h.elim
  parent _ h := h
  old j n' hn' := ⟨n', hn', rfl, rfl, fun _ => rfl⟩
  dirty _ h := h

end StoreMetaData

section StoreData

variable {s : File N}

theorem setNeedWriting_eq (as : List Addr) : ∀ s : File N, ∃ heap, s.setNeedWriting as = { s with heap := heap } := by
  induction as with
  | nil => exact fun s => ⟨s.heap, rfl⟩
  | cons a as ih =>
    intro s
    rcases ih (s.modifyNode a FileNode.setNeedWriting) with ⟨heap, heq⟩
    exact ⟨heap, heq⟩

theorem markDirty_eq (s : File N) (a : Addr) : ∃ heap root flag, s.markDirty a
      = { s with heap := heap, rootMht := root, needWriting := flag } := by
  unfold markDirty
  split
  . exact ⟨_, _, _, rfl⟩
  dsimp only
  rcases setNeedWriting_eq ((s.modifyNode a FileNode.setNeedWriting).parents
    ((s.modifyNode a FileNode.setNeedWriting).heap a).parent)
    (s.modifyNode a FileNode.setNeedWriting) with ⟨heap, heq⟩
  rw [heq]
  exact ⟨_, _, _, rfl⟩

def writtenData (t : Tree) (offset : Nat) (data : Nat → UInt8) (n : Nat) : Tree :=
  t.setData (getNodeNumbers offset).dataNodeNumber
    (memcpy (t.data (getNodeNumbers offset).dataNodeNumber) ((offset - mdUserDataSize) % nodeSize) n data)

theorem linked_storeData (hs : Linked s) (a : Addr) (data : Nat → UInt8) (n : Nat) : Linked (s.storeData a data n) := by
  have h := hs.frame (frame_modifyNode s a (FileNode.shape_setPlain
    (Plain.isData_mapData (fun d => memcpy d ((s.offset - mdUserDataSize) % nodeSize) n data))))
  exact ⟨h.wf, h.keys, h.addr, h.shape⟩

variable {a : Addr} {i : NodeId}

theorem node?_storeData (hs : Linked s) (hi : s.cached i = some a) (data : Nat → UInt8) (n : Nat) (j : NodeId) :
    (s.storeData a data n).node? j =
    if j = i then
      some ((s.heap a).setPlain ((s.heap a).plain.mapData (fun d =>
        memcpy d ((s.offset - mdUserDataSize) % nodeSize) n data)))
    else s.node? j :=
  hs.node?_modifyMhtNode (hs.loc_of_cached hi) (fun node =>
    node.setPlain (node.plain.mapData (fun d =>
      memcpy d ((s.offset - mdUserDataSize) % nodeSize) n data))) j

theorem closed_storeData (hs : Linked s) (hclosed : Closed s) (hi : s.cached i = some a) (data : Nat → UInt8)
    (n : Nat) : Closed (s.storeData a data n) := by
  have hdirty : ∀ j, (s.storeData a data n).Dirty j ↔ s.Dirty j := by
    intro j
    rw [Dirty, Dirty, node?_storeData hs hi]
    by_cases hj : j = i
    . subst hj
      simp [hs.node?_of_cached hi, FileNode.setPlain]
    . rw [if_neg hj]
  refine ⟨?_, ?_, ?_⟩
  . intro j hj
    exact Nat.lt_of_lt_of_le (hclosed.has j ((hdirty j).1 hj)) (Nat.le_max_left _ _)
  . intro j hj
    exact (hdirty _).2 (hclosed.parent j ((hdirty j).1 hj))
  . intro hj
    exact hclosed.flag ((hdirty _).1 hj)

theorem node?_write (hs : Linked s) (hclosed : Closed s) (hi : s.cached i = some a) (data : Nat → UInt8)
    (n : Nat) {j : NodeId} {n' : FileNode N} (hn' : ((s.storeData a data n).markDirty a).node? j = some n') :
    ∃ m, (s.storeData a data n).node? j = some m ∧ ((i.Above j ∧ n' = m.setNeedWriting) ∨ (¬ i.Above j ∧ n' = m)) := by
  have hlinked := linked_storeData hs a data n
  have hclosed' := closed_storeData hs hclosed hi data n
  rcases node?_eq_some_iff.1 hn' with ⟨p, hp, -⟩
  rw [loc_markDirty] at hp
  refine ⟨_, node?_of_loc hp, ?_⟩
  have hmark := node?_markDirty hlinked hclosed' (i := i) (a := a) hi (node?_of_loc hp)
  by_cases habove : i.Above j
  . rw [hmark.1 habove, Option.some.injEq] at hn'
    exact .inl ⟨habove, hn'.symm⟩
  . rw [hmark.2 habove, Option.some.injEq] at hn'
    exact .inr ⟨habove, hn'.symm⟩

theorem dirty_write (hs : Linked s) (hclosed : Closed s) (hi : s.cached i = some a) (data : Nat → UInt8)
    (n : Nat) {j : NodeId} (hj : s.Dirty j ∨ i.Above j) : ((s.storeData a data n).markDirty a).Dirty j := by
  have hlinked := linked_storeData hs a data n
  have hclosed' := closed_storeData hs hclosed hi data n
  have hloc : ∃ p, s.loc j = some p := by
    rcases hj with ⟨m, hm, -⟩ | hj
    . rcases node?_eq_some_iff.1 hm with ⟨p, hp, -⟩
      exact ⟨p, hp⟩
    . exact exists_loc_of_above hs hi hj
  rcases hloc with ⟨p, hp⟩
  have hp' : (s.storeData a data n).loc j = some p := hp
  have hmark := node?_markDirty hlinked hclosed' (i := i) (a := a) hi (node?_of_loc hp')
  by_cases habove : i.Above j
  . exact ⟨_, hmark.1 habove, rfl⟩
  rcases hj.resolve_right habove with ⟨m, hm, hneed⟩
  have hne : j ≠ i := fun h => habove (.inl h)
  have hother := node?_storeData hs hi data n j
  rw [if_neg hne, hm, node?_of_loc hp', Option.some.injEq] at hother
  exact ⟨_, hmark.2 habove, by rw [hother]; exact hneed⟩

theorem flag_markDirty (hs : Linked s) (hclosed : Closed s) (hi : s.cached i = some a) :
    (s.markDirty a).needWriting = true := by
  unfold markDirty
  split
  . next hdirty =>
    apply hclosed.flag
    exact hclosed.root i ((dirty_of_loc (hs.loc_of_cached hi)).2 hdirty)
  . rfl

theorem touches_storeData (hs : Linked s) (hclosed : Closed s) (hi : s.cached (.atOffset s.offset) = some a)
    (hmin : mdUserDataSize ≤ s.offset) (hin : s.offset ≤ s.encryptedPartPlain.size) {n : Nat} (hpos : 0 < n)
    (hle : n ≤ nodeSize - (s.offset - mdUserDataSize) % nodeSize) (data : Nat → UInt8) :
    Touches (atOffset s.offset).Above s ((s.storeData a data n).markDirty a) := by
  have hfirst := firstOffset_atOffset_le hmin
  have hend : s.offset + n ≤ (atOffset s.offset).firstOffset + nodeSize := by
    simp only [atOffset, firstOffset, getNodeNumbers, nodeSize, mdUserDataSize] at *
    omega
  have hsize : ((s.storeData a data n).markDirty a).encryptedPartPlain.size
      = max s.encryptedPartPlain.size (s.offset + n) := (frame_markDirty _ a).size
  rcases markDirty_eq (s.storeData a data n) a with ⟨heap, root, flag, heq⟩
  refine
    { linked := (linked_storeData hs a data n).frame (frame_markDirty _ a)
      keys := by rw [(frame_markDirty _ a).cache]; rfl
      host := by rw [heq]; rfl
      fileMetaData := by rw [heq]; rfl
      kdk := by rw [heq]; rfl
      mhtKey := by rw [heq]; rfl
      mhtGmac := by rw [heq]; rfl
      size := by rw [hsize]; exact Nat.le_max_left _ _
      flag := flag_markDirty (linked_storeData hs a data n)
        (closed_storeData hs hclosed hi data n) (i := .atOffset s.offset) hi
      has := ?_
      touched := ?_
      parent := fun j hj => hj.parent
      old := ?_
      dirty := fun j hj => dirty_write hs hclosed hi data n (.inl hj) }
  . intro j hj
    rw [Has, hsize] at hj
    by_cases hj' : s.Has j
    . exact .inl hj'
    . rw [Has] at hj'
      exact .inr (above_of_firstOffset hmin (by omega) (by omega))
  . intro j hj
    refine ⟨?_, dirty_write hs hclosed hi data n (.inr hj)⟩
    have := hj.firstOffset_le
    rw [Has, hsize]
    omega
  . intro j n' hn'
    rcases node?_write hs hclosed hi data n hn' with ⟨m, hm, hcase⟩
    have hstore := node?_storeData hs hi data n j
    rw [hm] at hstore
    have hm' : ∃ m', s.node? j = some m' ∧ m.newNode = m'.newNode
        ∧ m.encrypted = m'.encrypted ∧ m.needWriting = m'.needWriting := by
      split at hstore
      . next hj =>
        cases hstore
        exact ⟨s.heap a, hj ▸ hs.node?_of_cached hi, rfl, rfl, rfl⟩
      . exact ⟨m, hstore.symm, rfl, rfl, rfl⟩
    rcases hm' with ⟨m', hm', hnew, hencrypted, hneed⟩
    rcases hcase with ⟨habove, rfl⟩ | ⟨habove, rfl⟩
    . exact ⟨m', hm', hnew, hencrypted, fun h => absurd habove h⟩
    . exact ⟨m', hm', hnew, hencrypted, fun _ => hneed⟩

theorem Ready.storeData {P : Platform N} {E : Key × N → Prop} {t : Tree} (hs : Ready P E s t)
    (hi : s.cached (.atOffset s.offset) = some a) (hmin : mdUserDataSize ≤ s.offset)
    (hin : s.offset ≤ s.encryptedPartPlain.size) {n : Nat} (hpos : 0 < n)
    (hle : n ≤ nodeSize - (s.offset - mdUserDataSize) % nodeSize) (data : Nat → UInt8) :
    Ready P E ((s.storeData a data n).markDirty a) (writtenData t s.offset data n) := by
  have hlinked := hs.holds.linked
  refine (touches_storeData hlinked hs.closed hi hmin hin hpos hle data).ready hs rfl (fun _ => rfl) ?_ ?_
  . intro j hj
    apply Tree.plain_setData_of_ne
    rintro rfl
    exact hj (.inl rfl)
  intro j n' hn'
  rcases node?_write hlinked hs.closed hi data n hn' with ⟨m, hm, hcase⟩
  have hplain : n'.plain = m.plain := by
    rcases hcase with ⟨-, rfl⟩ | ⟨-, rfl⟩ <;> rfl
  rw [hplain]
  rw [node?_storeData hlinked hi] at hm
  split at hm
  . next hj =>
    cases hm
    have hbefore := hs.holds.plain _ _ (hlinked.node?_of_cached hi)
    rw [hj, writtenData, atOffset, Tree.plain_setData_self, FileNode.setPlain, hbefore]
    rfl
  . next hj =>
    rw [writtenData, Tree.plain_setData_of_ne t _ hj]
    exact hs.holds.plain j m hm

end StoreData

end File
end ProtectedFs
