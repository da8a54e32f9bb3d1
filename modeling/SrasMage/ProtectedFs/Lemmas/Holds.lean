import SrasMage.Lru.Lemmas
import SrasMage.ProtectedFs.Lemmas.Frame
import SrasMage.ProtectedFs.Tree
import SrasMage.ProtectedFs.Lemmas.Calls

/-!
This module contains the structure of the nodes in memory, and the central invariant of an open file.
-/

namespace ProtectedFs

variable {N : Type}

namespace File

def cached (s : File N) (i : NodeId) : Option Addr := s.cache.data? i.physical

def loc (s : File N) (i : NodeId) : Option MhtPtr :=
  if i = .mht 0 then some .root else (s.cached i).map .node

def node? (s : File N) (i : NodeId) : Option (FileNode N) := (s.loc i).map s.mhtNode

structure Linked (s : File N) : Prop where
  wf : s.cache.Wf
  keys : ∀ key ∈ s.cache.keys, ∃ i : NodeId, i ≠ .mht 0 ∧ i.physical = key
  addr : ∀ i a, s.cached i = some a → a < s.nextAddr
  shape : ∀ i p, s.loc i = some p → ∃ q, s.loc (.mht i.parent) = some q
    ∧ (s.mhtNode p).shape = (i.number, q, i.physical, i.isData)

@[simp]
theorem loc_root (s : File N) : s.loc (.mht 0) = some .root := by simp [loc]

variable {i : NodeId} {s : File N}

theorem loc_of_ne (hi : i ≠ .mht 0) : s.loc i = (s.cached i).map .node := by simp [loc, hi]

@[simp]
theorem node?_root (s : File N) : s.node? (.mht 0) = some s.rootMht := by simp [node?, mhtNode]

theorem node?_of_loc {p : MhtPtr} (h : s.loc i = some p) : s.node? i = some (s.mhtNode p) := by
  simp [node?, h]

theorem node?_eq_some_iff {n : FileNode N} :
    s.node? i = some n ↔ ∃ p, s.loc i = some p ∧ s.mhtNode p = n := by simp [node?]

theorem node?_of_ne (hi : i ≠ .mht 0) : s.node? i = (s.cached i).map s.heap := by
  rw [node?, loc_of_ne hi, Option.map_map]
  rfl

theorem node?_of_cached {a : Addr} (hi : i ≠ .mht 0) (h : s.cached i = some a) :
    s.node? i = some (s.heap a) := by simp [node?_of_ne hi, h]

theorem loc_congr {s s' : File N} (h : s'.cache = s.cache) (i : NodeId) : s'.loc i = s.loc i := by simp [loc, cached, h]

theorem mhtNode_modifyMhtNode (s : File N) (p q : MhtPtr) (f : FileNode N → FileNode N) :
    (s.modifyMhtNode p f).mhtNode q = if q = p then f (s.mhtNode p) else s.mhtNode q := by
  cases p with
  | root => cases q <;> simp [modifyMhtNode, mhtNode, setRootMht]
  | node a =>
    cases q with
    | root => simp [modifyMhtNode, mhtNode, modifyNode, setNode]
    | node b =>
      by_cases hb : b = a <;> simp [modifyMhtNode, mhtNode, modifyNode, setNode, hb]

@[simp]
theorem cache_modifyMhtNode (s : File N) (p : MhtPtr) (f : FileNode N → FileNode N) :
    (s.modifyMhtNode p f).cache = s.cache := by
  cases p <;> rfl

namespace Linked

variable {s s' : File N}

theorem cached_root (h : Linked s) : s.cached (.mht 0) = none := by
  rw [cached, h.wf.data?_eq_none_iff]
  intro hmem
  rcases h.keys _ hmem with ⟨i, hi, heq⟩
  exact hi (NodeId.physical_injective heq)

variable {i : NodeId} {p : MhtPtr} {a : Addr}

section

variable (h : Linked s)
include h

theorem ne_root (hi : s.cached i = some a) : i ≠ .mht 0 := by
  rintro rfl
  rw [h.cached_root] at hi
  cases hi

theorem loc_of_cached (hi : s.cached i = some a) : s.loc i = some (.node a) := by
  rw [loc_of_ne (h.ne_root hi), hi]
  rfl

theorem node?_of_cached (hi : s.cached i = some a) : s.node? i = some (s.heap a) :=
  File.node?_of_cached (h.ne_root hi) hi

theorem mem_keys_iff : i.physical ∈ s.cache.keys ↔ ∃ a, s.cached i = some a :=
  h.wf.mem_keys_iff _

theorem loc_injective {j : NodeId} (hi : s.loc i = some p) (hj : s.loc j = some p) : i = j := by
  rcases h.shape i p hi with ⟨q, -, hq⟩
  rcases h.shape j p hj with ⟨q', -, hq'⟩
  rw [hq] at hq'
  simp only [Prod.mk.injEq] at hq'
  exact NodeId.physical_injective hq'.2.2.1

theorem frame (hf : Frame s s') : Linked s' where
  wf := hf.cache ▸ h.wf
  keys := hf.cache ▸ h.keys
  addr i a hi := by
    rw [hf.nodes.nextAddr]
    rw [cached, hf.cache] at hi
    exact h.addr i a hi
  shape i p hi := by
    rw [loc_congr hf.cache] at hi
    rcases h.shape i p hi with ⟨q, hq, hshape⟩
    refine ⟨q, ?_, ?_⟩
    . rwa [loc_congr hf.cache]
    . rwa [shape_mhtNode hf]

theorem parent_eq (hi : s.loc i = some p) : s.loc (.mht i.parent) = some (s.mhtNode p).parent := by
  rcases h.shape i p hi with ⟨q, hq, hshape⟩
  simp only [FileNode.shape, Prod.mk.injEq] at hshape
  rw [hq, hshape.2.1]

theorem number_eq (hi : s.loc i = some p) : (s.mhtNode p).number = i.number := by
  rcases h.shape i p hi with ⟨q, hq, hshape⟩
  simp only [FileNode.shape, Prod.mk.injEq] at hshape
  exact hshape.1

theorem physical_eq (hi : s.loc i = some p) : (s.mhtNode p).physicalNodeNumber = i.physical := by
  rcases h.shape i p hi with ⟨q, hq, hshape⟩
  simp only [FileNode.shape, Prod.mk.injEq] at hshape
  exact hshape.2.2.1

theorem isData_eq (hi : s.loc i = some p) : (s.mhtNode p).plain.isData = i.isData := by
  rcases h.shape i p hi with ⟨q, hq, hshape⟩
  simp only [FileNode.shape, Prod.mk.injEq] at hshape
  exact hshape.2.2.2

theorem node?_modifyMhtNode (hi : s.loc i = some p) (f : FileNode N → FileNode N) (j : NodeId) :
    (s.modifyMhtNode p f).node? j = if j = i then some (f (s.mhtNode p)) else s.node? j := by
  by_cases hj : j = i
  . subst hj
    simp [node?, loc_congr (cache_modifyMhtNode s p f), hi, mhtNode_modifyMhtNode]
  rw [if_neg hj]
  simp only [node?, loc_congr (cache_modifyMhtNode s p f)]
  cases hloc : s.loc j with
  | none => rfl
  | some q =>
    have hne : q ≠ p := by
      rintro rfl
      exact hj (h.loc_injective hloc hi)
    simp [mhtNode_modifyMhtNode, hne]

theorem mem_walk_iff : a ∈ s.cache.walk ↔ ∃ i, s.loc i = some (.node a) := by
  rw [h.wf.walk_eq, List.mem_filterMap]
  constructor
  . rintro ⟨key, hkey, ha⟩
    rcases h.keys key hkey with ⟨i, hi, rfl⟩
    exact ⟨i, h.loc_of_cached ha⟩
  rintro ⟨i, hi⟩
  by_cases hroot : i = .mht 0
  . rw [hroot, loc_root] at hi
    cases hi
  rw [loc_of_ne hroot, Option.map_eq_some_iff] at hi
  rcases hi with ⟨b, hb, hba⟩
  cases hba
  exact ⟨_, h.wf.mem_keys hb, hb⟩

end

end Linked

end File

namespace File

def Has (s : File N) (i : NodeId) : Prop := i.firstOffset < s.encryptedPartPlain.size

def Dirty (s : File N) (i : NodeId) : Prop := ∃ n, s.node? i = some n ∧ n.needWriting = true

def OnDisk (P : Platform N) (E : Key × N → Prop) (s : File N) (t : Tree) (i : NodeId) : Prop :=
  ∃ f, s.host.main = some f ∧ i.physical < f.count ∧ P.Seals E (t.crypto i) (f.nodes i.physical) (P.pack (t.plain i))

def SameCipher (s : File N) (i : NodeId) (n : FileNode N) : Prop :=
  ∃ f, s.host.main = some f ∧ n.encrypted = f.nodes i.physical

structure Holds (P : Platform N) (E : Key × N → Prop) (s : File N) (t : Tree) : Prop where
  linked : Linked s
  root : t.root = ⟨s.encryptedPartPlain.mhtKey, s.encryptedPartPlain.mhtGmac⟩
  plain : ∀ i n, s.node? i = some n → n.plain = t.plain i
  tail : ∀ i, ¬ s.Has i → t.plain i = i.zero
  main : s.host.main.isSome
  disk : ∀ i, s.Has i → ¬ s.Dirty i → OnDisk P E s t i
  cipher : ∀ i n, s.node? i = some n → n.needWriting = false → n.newNode = false → s.SameCipher i n
  old : ∀ i n, s.node? i = some n → n.newNode = false → s.Has i
  new : ∀ i n, s.node? i = some n → n.newNode = true → n.needWriting = false → ¬ s.Has i

structure Closed (s : File N) : Prop where
  has : ∀ i, s.Dirty i → s.Has i
  parent : ∀ i, s.Dirty i → s.Dirty (.mht i.parent)
  flag : s.Dirty (.mht 0) → s.needWriting = true

variable {s : File N} {i : NodeId}

theorem Closed.root (h : Closed s) : ∀ i, s.Dirty i → s.Dirty (.mht 0) := by
  have hmht : ∀ m, s.Dirty (.mht m) → s.Dirty (.mht 0) := by
    intro m
    induction m using Nat.strong_induction_on with
    | _ m ih =>
      intro hm
      by_cases h0 : m = 0
      . rwa [h0] at hm
      . exact ih _ (NodeId.parent_mht_lt h0) (h.parent _ hm)
  intro i hi
  exact hmht _ (h.parent i hi)

theorem dirty_root : s.Dirty (.mht 0) ↔ s.rootMht.needWriting = true := by simp [Dirty]

theorem dirty_of_loc {p : MhtPtr} (h : s.loc i = some p) :
    s.Dirty i ↔ (s.mhtNode p).needWriting = true := by simp [Dirty, node?_of_loc h]

theorem not_dirty_of_node? {n : FileNode N} (hn : s.node? i = some n)
    (hneed : n.needWriting = false) : ¬ s.Dirty i := by
  rintro ⟨n', hn', hneed'⟩
  rw [hn, Option.some.injEq] at hn'
  subst hn'
  rw [hneed] at hneed'
  cases hneed'

theorem Linked.loc_parent (hs : Linked s) (hi : s.Dirty i) :
    ∃ p q, s.loc i = some p ∧ s.loc (.mht i.parent) = some q ∧ (s.mhtNode p).parent = q := by
  rcases hi with ⟨n, hn, -⟩
  rcases node?_eq_some_iff.1 hn with ⟨p, hp, -⟩
  exact ⟨p, _, hp, hs.parent_eq hp, rfl⟩

theorem Holds.heap_plain {P : Platform N} {E : Key × N → Prop} {t : Tree}
    (h : Holds P E s t) {a : Addr} (hloc : s.loc i = some (.node a)) :
    (s.heap a).plain = t.plain i :=
  h.plain _ _ (node?_of_loc hloc)

section Memory

variable {P : Platform N} {E : Key × N → Prop} {s s' : File N} {t : Tree}

def memory (s : File N) :=
  (s.cache, s.nextAddr, s.heap, s.rootMht, s.encryptedPartPlain, s.host.main)

theorem congr_memory {α : Type} (h : s'.memory = s.memory) {f : File N → α}
    (hf : ∀ u u' : File N, u.cache = u'.cache → u.nextAddr = u'.nextAddr → u.heap = u'.heap →
      u.rootMht = u'.rootMht → u.encryptedPartPlain = u'.encryptedPartPlain →
      u.host.main = u'.host.main → f u = f u') : f s' = f s := by
  simp only [memory, Prod.mk.injEq] at h
  exact hf _ _ h.1 h.2.1 h.2.2.1 h.2.2.2.1 h.2.2.2.2.1 h.2.2.2.2.2

theorem node?_of_memory (h : s'.memory = s.memory) (i : NodeId) : s'.node? i = s.node? i := by
  apply congr_memory h (f := fun u => u.node? i)
  intro u u' hcache _ hheap hroot _ _
  have hnode : u.mhtNode = u'.mhtNode := by
    funext p
    cases p <;> simp [mhtNode, hheap, hroot]
  simp only [node?, loc_congr hcache, hnode]

theorem dirty_of_memory (h : s'.memory = s.memory) (i : NodeId) : s'.Dirty i ↔ s.Dirty i := by
  simp only [Dirty, node?_of_memory h]

theorem Linked.of_memory (hs : Linked s) (h : s'.memory = s.memory) : Linked s' := by
  simp only [memory, Prod.mk.injEq] at h
  rcases h with ⟨hcache, hnext, hheap, hroot, -, -⟩
  have hnode : s'.mhtNode = s.mhtNode := by
    funext p
    cases p <;> simp [mhtNode, hheap, hroot]
  refine ⟨hcache ▸ hs.wf, hcache ▸ hs.keys, ?_, ?_⟩
  . intro i a hi
    rw [cached, hcache] at hi
    rw [hnext]
    exact hs.addr i a hi
  intro i p hi
  rw [loc_congr hcache] at hi
  rw [loc_congr hcache, hnode]
  exact hs.shape i p hi

theorem Holds.of_memory (hs : Holds P E s t) (h : s'.memory = s.memory) : Holds P E s' t := by
  have hmd : s'.encryptedPartPlain = s.encryptedPartPlain :=
    congrArg (fun m => m.2.2.2.2.1) h
  have hmain : s'.host.main = s.host.main := congrArg (fun m => m.2.2.2.2.2) h
  have hnode := node?_of_memory h
  refine ⟨hs.linked.of_memory h, ?_, ?_, ?_, ?_, ?_, ?_, ?_, ?_⟩
  . rw [hmd]
    exact hs.root
  . simpa only [hnode] using hs.plain
  . simpa only [Has, hmd] using hs.tail
  . rw [hmain]
    exact hs.main
  . simpa only [Has, hmd, dirty_of_memory h, OnDisk, hmain] using hs.disk
  . simpa only [hnode, SameCipher, hmain] using hs.cipher
  . simpa only [hnode, Has, hmd] using hs.old
  . simpa only [hnode, Has, hmd] using hs.new

theorem memory_of_core (h : s'.core = s.core) : s'.memory = s.memory :=
  congr_core h (fun _ => rfl)

theorem Holds.of_core (hs : Holds P E s t) (h : s'.core = s.core) : Holds P E s' t :=
  hs.of_memory (memory_of_core h)

theorem Closed.of_memory (hs : Closed s) (h : s'.memory = s.memory)
    (hflag : s.needWriting = true → s'.needWriting = true) : Closed s' := by
  have hmd : s'.encryptedPartPlain = s.encryptedPartPlain :=
    congrArg (fun m => m.2.2.2.2.1) h
  refine ⟨?_, ?_, ?_⟩
  . intro i hi
    rw [Has, hmd]
    exact hs.has i ((dirty_of_memory h i).1 hi)
  . intro i hi
    rw [dirty_of_memory h] at hi ⊢
    exact hs.parent i hi
  . intro hi
    rw [dirty_of_memory h] at hi
    exact hflag (hs.flag hi)

theorem Closed.of_core (hs : Closed s) (h : s'.core = s.core) : Closed s' := by
  have hflag : s'.needWriting = s.needWriting := congr_core h (fun _ => rfl)
  exact hs.of_memory (memory_of_core h) (by simp [hflag])

end Memory

end File

end ProtectedFs
