import SrasMage.ProtectedFs.Lemmas.Seal

/-!
This module contains the way of the encrypted nodes to the disk, with writes that may fail, and the whole of
`internal_flush`.
-/

namespace ProtectedFs

variable {N : Type}

namespace File

def writeMain (s : File N) (k : Nat) (b : N) : File N :=
  { s with host := ⟨s.host.main.map (·.write k b), s.host.recovery⟩ }

variable {P : Platform N} {E : Key × N → Prop} {s s' : File N} {t : Tree}

theorem OnDisk.writeMain {i : NodeId} (h : OnDisk P E s t i) {k : Nat} (hk : i.physical ≠ k)
    (b : N) : OnDisk P E (s.writeMain k b) t i := by
  rcases h with ⟨f, hf, hcount, hseals⟩
  refine ⟨f.write k b, by simp [File.writeMain, hf], ?_, ?_⟩
  . exact Nat.lt_of_lt_of_le hcount (Nat.le_max_left _ _)
  . simpa [HostFile.write, hk] using hseals

theorem SameCipher.writeMain {i : NodeId} {n : FileNode N} (h : s.SameCipher i n) {k : Nat}
    (hk : i.physical ≠ k) (b : N) : (s.writeMain k b).SameCipher i n := by
  rcases h with ⟨f, hf, heq⟩
  refine ⟨f.write k b, by simp [File.writeMain, hf], ?_⟩
  simpa [HostFile.write, hk] using heq

theorem Holds.writeMain (hs : Holds P E s t) {k : Nat} (hk : ∀ i, ¬ s.Dirty i → i.physical ≠ k)
    (b : N) : Holds P E (s.writeMain k b) t where
  linked := ⟨hs.linked.wf, hs.linked.keys, hs.linked.addr, hs.linked.shape⟩
  root := hs.root
  plain := hs.plain
  tail := hs.tail
  main := by simpa [File.writeMain] using hs.main
  disk i hi hclean := (hs.disk i hi hclean).writeMain (hk i hclean) b
  cipher i n hn hneed hold :=
    (hs.cipher i n hn hneed hold).writeMain (hk i (not_dirty_of_node? hn hneed)) b
  old := hs.old
  new := hs.new

theorem fwriteNode_spec (s : File N) (k : Nat) (b : N) :
    (∃ s', s.fwriteNode k b = (none, s') ∧ s'.core = (s.writeMain k b).core)
    ∨ ∃ e s', s.fwriteNode k b = (some e, s') ∧ (s'.core = s.core ∨ ∃ b', s'.core = (s.writeMain k b').core) := by
  unfold fwriteNode
  split
  . exact .inl ⟨_, rfl, rfl⟩
  split
  . exact .inr ⟨_, _, rfl, .inl rfl⟩
  . exact .inr ⟨_, _, rfl, .inr ⟨_, rfl⟩⟩

def beneath (P : Platform N) (s : File N) : File N := (s.writeMain 0 P.zero).core

theorem congr_beneath {α : Type} (h : s'.beneath P = s.beneath P) {f : File N → α}
    (hf : ∀ u : File N, f (u.beneath P) = f u) : f s' = f s := by rw [← hf, h, hf]

theorem beneath_of_core (h : s'.core = s.core) : s'.beneath P = s.beneath P :=
  congr_core h (fun _ => rfl)

theorem beneath_writeMain (b : N) : (s.writeMain 0 b).beneath P = s.beneath P := by
  simp [beneath, writeMain, HostFile.write, core, quiet, Function.comp_def]

theorem beneath_fwriteNode (s : File N) (b : N) : (s.fwriteNode 0 b).2.beneath P = s.beneath P := by
  rcases fwriteNode_spec s 0 b with ⟨s', heq, hcore⟩ | ⟨e, s', heq, hcore | ⟨b', hcore⟩⟩
  . rw [heq, beneath_of_core hcore, beneath_writeMain]
  . rw [heq, beneath_of_core hcore]
  . rw [heq, beneath_of_core hcore, beneath_writeMain]

theorem onDisk_beneath {i : NodeId} : OnDisk P E (s.beneath P) t i ↔ OnDisk P E s t i := by
  have hpos := i.physical_pos
  constructor
  . rintro ⟨f, hf, hcount, hseals⟩
    simp only [beneath, core, File.writeMain, quiet, Option.map_eq_some_iff] at hf
    rcases hf with ⟨g, hg, rfl⟩
    refine ⟨g, hg, ?_, ?_⟩
    . simp only [HostFile.write] at hcount
      omega
    . simpa [HostFile.write, Nat.pos_iff_ne_zero.1 hpos] using hseals
  . intro h
    exact h.writeMain (Nat.pos_iff_ne_zero.1 hpos) P.zero

theorem memory_beneath : (s.beneath P).memory = (s.cache, s.nextAddr, s.heap, s.rootMht, s.encryptedPartPlain,
          s.host.main.map (·.write 0 P.zero)) := rfl

theorem sameCipher_beneath {i : NodeId} {n : FileNode N} : (s.beneath P).SameCipher i n ↔ s.SameCipher i n := by
  have hpos := i.physical_pos
  constructor
  . rintro ⟨f, hf, heq⟩
    simp only [beneath, core, File.writeMain, quiet, Option.map_eq_some_iff] at hf
    rcases hf with ⟨g, hg, rfl⟩
    refine ⟨g, hg, ?_⟩
    simpa [HostFile.write, Nat.pos_iff_ne_zero.1 hpos] using heq
  . intro h
    exact h.writeMain (Nat.pos_iff_ne_zero.1 hpos) P.zero

theorem holds_beneath : Holds P E (s.beneath P) t ↔ Holds P E s t := by
  constructor
  . intro h
    have hlinked : Linked s :=
      ⟨h.linked.wf, h.linked.keys, h.linked.addr, h.linked.shape⟩
    refine ⟨hlinked, h.root, h.plain, h.tail, ?_, ?_, ?_, h.old, h.new⟩
    . have := h.main
      simpa [beneath, core, File.writeMain, quiet] using this
    . exact fun i hi hclean => onDisk_beneath.1 (h.disk i hi hclean)
    . exact fun i n hn hneed hold => sameCipher_beneath.1 (h.cipher i n hn hneed hold)
  . intro h
    have hk : ∀ i : NodeId, ¬ s.Dirty i → i.physical ≠ 0 :=
      fun i _ => Nat.pos_iff_ne_zero.1 i.physical_pos
    exact (h.writeMain hk P.zero).of_memory memory_beneath

theorem Holds.of_beneath (hs : Holds P E s t) (h : s'.beneath P = s.beneath P) : Holds P E s' t := by
  rw [← holds_beneath, h]
  exact holds_beneath.2 hs

theorem closed_beneath : Closed (s.beneath P) ↔ Closed s :=
  ⟨fun h => ⟨h.has, h.parent, h.flag⟩, fun h => ⟨h.has, h.parent, h.flag⟩⟩

theorem Closed.of_beneath (hs : Closed s) (h : s'.beneath P = s.beneath P) : Closed s' := by
  rw [← closed_beneath (P := P), h]
  exact closed_beneath.2 hs

structure Sealed (P : Platform N) (E : Key × N → Prop) (s : File N) (t : Tree) : Prop where
  holds : Holds P E s t
  has : ∀ i, s.Dirty i → s.Has i
  root : ∀ i, s.Dirty i → s.Dirty (.mht 0)
  seals : ∀ i n, s.node? i = some n → n.needWriting = true →
    P.Seals E (t.crypto i) n.encrypted (P.pack (t.plain i))

theorem Sealed.of_memory (hs : Sealed P E s t) (h : s'.memory = s.memory) : Sealed P E s' t := by
  have hmd : s'.encryptedPartPlain = s.encryptedPartPlain :=
    congrArg (fun m => m.2.2.2.2.1) h
  refine ⟨hs.holds.of_memory h, ?_, ?_, ?_⟩
  . intro i hi
    rw [Has, hmd]
    exact hs.has i ((dirty_of_memory h i).1 hi)
  . intro i hi
    rw [dirty_of_memory h] at hi ⊢
    exact hs.root i hi
  . intro i n hn hneed
    rw [node?_of_memory h] at hn
    exact hs.seals i n hn hneed

theorem Sealed.of_core (hs : Sealed P E s t) (h : s'.core = s.core) : Sealed P E s' t :=
  hs.of_memory (memory_of_core h)

theorem Sealed.writeMain (hs : Sealed P E s t) {k : Nat} (hk : ∀ i, ¬ s.Dirty i → i.physical ≠ k)
    (b : N) : Sealed P E (s.writeMain k b) t :=
  ⟨hs.holds.writeMain hk b, hs.has, hs.root, hs.seals⟩

def written (s : File N) (i : NodeId) (p : MhtPtr) : File N :=
  (s.writeMain i.physical (s.mhtNode p).encrypted).modifyMhtNode p FileNode.setWritten

section Written

variable {i : NodeId} {p : MhtPtr}

theorem frame_written : Frame (s.writeMain i.physical (s.mhtNode p).encrypted) (s.written i p) :=
  frame_modifyMhtNode _ p FileNode.shape_setWritten

theorem node?_written (hs : Linked s) (hp : s.loc i = some p) (j : NodeId) :
    (s.written i p).node? j = if j = i then some (s.mhtNode p).setWritten else s.node? j := by
  have hlinked : Linked (s.writeMain i.physical (s.mhtNode p).encrypted) :=
    ⟨hs.wf, hs.keys, hs.addr, hs.shape⟩
  exact hlinked.node?_modifyMhtNode hp FileNode.setWritten j

theorem dirty_written (hs : Linked s) (hp : s.loc i = some p) (j : NodeId) :
    (s.written i p).Dirty j ↔ s.Dirty j ∧ j ≠ i := by
  rw [Dirty, node?_written hs hp]
  split
  . next h => simp [h, FileNode.setWritten]
  . next h => simp [h, Dirty]

theorem has_written (j : NodeId) : (s.written i p).Has j ↔ s.Has j := by
  rw [Has, frame_written.size]
  rfl

theorem host_written : (s.written i p).host = (s.writeMain i.physical (s.mhtNode p).encrypted).host := by
  cases p <;> rfl

theorem Sealed.written (hs : Sealed P E s t) (hp : s.loc i = some p) (hdirty : s.Dirty i)
    (hlast : i = .mht 0 → ∀ j, s.Dirty j → j = .mht 0) : Sealed P E (s.written i p) t where
  holds :=
    { linked := by
        have hlinked : Linked (s.writeMain i.physical (s.mhtNode p).encrypted) :=
          ⟨hs.holds.linked.wf, hs.holds.linked.keys, hs.holds.linked.addr, hs.holds.linked.shape⟩
        exact hlinked.frame frame_written
      root := by
        rw [hs.holds.root]
        cases p <;> rfl
      plain := by
        intro j n hn
        rw [node?_written hs.holds.linked hp] at hn
        split at hn
        . next hj =>
          cases hn
          rw [hj, ← hs.holds.plain _ _ (node?_of_loc hp)]
          rfl
        . exact hs.holds.plain j n hn
      tail := by
        intro j hj
        rw [has_written] at hj
        exact hs.holds.tail j hj
      main := by
        have := hs.holds.main
        rw [host_written]
        simpa [File.writeMain] using this
      disk := by
        intro j hj hclean
        rw [has_written] at hj
        rw [dirty_written hs.holds.linked hp] at hclean
        rw [OnDisk, host_written]
        by_cases hij : j = i
        . subst hij
          rcases Option.isSome_iff_exists.1 hs.holds.main with ⟨f, hf⟩
          refine ⟨f.write j.physical (s.mhtNode p).encrypted, by simp [File.writeMain, hf], ?_, ?_⟩
          . exact Nat.lt_of_lt_of_le (Nat.lt_succ_self _) (Nat.le_max_right _ _)
          simp only [HostFile.write, Function.update_self]
          exact hs.seals j _ (node?_of_loc hp) ((dirty_of_loc hp).1 hdirty)
        . apply (hs.holds.disk j hj (fun h => hclean ⟨h, hij⟩)).writeMain
          exact fun h => hij (NodeId.physical_injective h)
      cipher := by
        intro j n hn hneed hold
        rw [node?_written hs.holds.linked hp] at hn
        rw [SameCipher, host_written]
        split at hn
        . next hij =>
          cases hn
          subst hij
          rcases Option.isSome_iff_exists.1 hs.holds.main with ⟨f, hf⟩
          refine ⟨f.write j.physical (s.mhtNode p).encrypted, by simp [File.writeMain, hf], ?_⟩
          simp [HostFile.write, FileNode.setWritten]
        . next hij =>
          apply (hs.holds.cipher j n hn hneed hold).writeMain
          exact fun h => hij (NodeId.physical_injective h)
      old := by
        intro j n hn hold
        rw [node?_written hs.holds.linked hp] at hn
        rw [has_written]
        split at hn
        . next hij =>
          rw [hij]
          exact hs.has i hdirty
        . exact hs.holds.old j n hn hold
      new := by
        intro j n hn hnew hneed
        rw [node?_written hs.holds.linked hp] at hn
        rw [has_written]
        split at hn
        . cases hn
          cases hnew
        . exact hs.holds.new j n hn hnew hneed }
  has j hj := by
    rw [dirty_written hs.holds.linked hp] at hj
    exact has_written j |>.2 (hs.has j hj.1)
  root j hj := by
    rw [dirty_written hs.holds.linked hp] at hj ⊢
    refine ⟨hs.root j hj.1, ?_⟩
    rintro rfl
    exact hj.2 (hlast rfl j hj.1)
  seals j n hn hneed := by
    rw [node?_written hs.holds.linked hp] at hn
    split at hn
    . cases hn
      cases hneed
    . exact hs.seals j n hn hneed

end Written

def label (s : File N) := (s.fileMetaData, s.needWriting, s.fileStatus, s.encryptedPartPlain)

theorem label_of_core (h : s'.core = s.core) : s'.label = s.label :=
  congr_core h (fun _ => rfl)

theorem dirty_of_core (h : s'.core = s.core) (i : NodeId) : s'.Dirty i ↔ s.Dirty i :=
  iff_of_eq (congrArg (fun u => u.Dirty i) h :)

theorem loc_of_core (h : s'.core = s.core) (i : NodeId) : s'.loc i = s.loc i :=
  (congrArg (fun u => u.loc i) h :)

theorem core_modifyMhtNode (s : File N) (p : MhtPtr) (f : FileNode N → FileNode N) :
    (s.modifyMhtNode p f).core = s.core.modifyMhtNode p f := by
  cases p <;> rfl

theorem Sealed.fwriteNode (hs : Sealed P E s t) {i : NodeId} {p : MhtPtr} (hp : s.loc i = some p)
    (hdirty : s.Dirty i) (hlast : i = .mht 0 → ∀ j, s.Dirty j → j = .mht 0) :
    (∃ s', s.fwriteNode i.physical (s.mhtNode p).encrypted = (none, s')
      ∧ (s'.modifyMhtNode p FileNode.setWritten).core = (s.written i p).core
      ∧ Sealed P E (s'.modifyMhtNode p FileNode.setWritten) t)
    ∨ ∃ e s', s.fwriteNode i.physical (s.mhtNode p).encrypted = (some e, s')
      ∧ s'.label = s.label ∧ (∀ j, s'.Dirty j ↔ s.Dirty j) ∧ Sealed P E s' t := by
  have hk : ∀ j, ¬ s.Dirty j → j.physical ≠ i.physical := by
    intro j hj heq
    rw [NodeId.physical_injective heq] at hj
    exact hj hdirty
  rcases fwriteNode_spec s i.physical (s.mhtNode p).encrypted with ⟨s', heq, hcore⟩ | ⟨e, s', heq, hcore | ⟨b, hcore⟩⟩
  . have hwritten : (s'.modifyMhtNode p FileNode.setWritten).core = (s.written i p).core := by
      rw [core_modifyMhtNode, hcore, ← core_modifyMhtNode]
      rfl
    exact .inl ⟨s', heq, hwritten, (hs.written hp hdirty hlast).of_core hwritten⟩
  . exact .inr ⟨e, s', heq, label_of_core hcore, dirty_of_core hcore, hs.of_core hcore⟩
  refine .inr ⟨e, s', heq, ?_, ?_, (hs.writeMain hk b).of_core hcore⟩
  . rw [label_of_core hcore]
    rfl
  intro j
  rw [dirty_of_core hcore]
  exact Iff.rfl

theorem label_written {i : NodeId} {p : MhtPtr} : (s.written i p).label = s.label := by
  cases p <;> rfl

theorem Sealed.writeNodes (as : List Addr) :
    ∀ {s : File N}, Sealed P E s t → (∀ a ∈ as, ∃ i, s.loc i = some (.node a)) →
      ∃ r s', s.writeNodes as = (r, s') ∧ Sealed P E s' t ∧ s'.label = s.label
        ∧ (∀ i, s'.Dirty i → s.Dirty i) ∧ (s.Dirty (.mht 0) → s'.Dirty (.mht 0))
        ∧ (r = true → ∀ a ∈ as, ∀ i, s.loc i = some (.node a) → ¬ s'.Dirty i) := by
  induction as with
  | nil =>
    intro s hs _
    exact ⟨true, s, rfl, hs, rfl, fun _ h => h, fun h => h, by simp⟩
  | cons a as ih =>
    intro s hs hloc
    have hlinked := hs.holds.linked
    rcases hloc a (by simp) with ⟨i, hi⟩
    have hroot : i ≠ .mht 0 := by
      rintro rfl
      rw [loc_root] at hi
      cases hi
    rw [File.writeNodes]
    split
    . next hclean =>
      rcases ih hs (fun b hb => hloc b (by simp [hb])) with ⟨r, s', heq, hs', hlabel, hsub, hroot', hdone⟩
      refine ⟨r, s', heq, hs', hlabel, hsub, hroot', ?_⟩
      intro hr b hb j hj hdirty
      rw [List.mem_cons] at hb
      rcases hb with rfl | hb
      . have hdirty' := (dirty_of_loc hj).1 (hsub j hdirty)
        rw [mhtNode, hclean] at hdirty'
        cases hdirty'
      . exact hdone hr b hb j hj hdirty
    next hneed =>
    rw [Bool.not_eq_false] at hneed
    have hdirty : s.Dirty i := (dirty_of_loc hi).2 hneed
    have hphysical : (s.heap a).physicalNodeNumber = i.physical := hlinked.physical_eq hi
    rw [hphysical]
    rcases hs.fwriteNode hi hdirty (fun h => absurd h hroot)
      with ⟨s1, heq, hcore, hs1⟩ | ⟨e, s1, heq, hlabel, hdirty', hs1⟩
    . rw [show (s.heap a).encrypted = (s.mhtNode (.node a)).encrypted from rfl, heq]
      have hdirty1 : ∀ j, (s1.modifyMhtNode (.node a) FileNode.setWritten).Dirty j ↔ s.Dirty j ∧ j ≠ i := by
        intro j
        rw [dirty_of_core hcore, dirty_written hlinked hi]
      have hloc1 : ∀ j, (s1.modifyMhtNode (.node a) FileNode.setWritten).loc j = s.loc j := by
        intro j
        rw [loc_of_core hcore]
        rfl
      rcases ih hs1 (fun b hb => by
          rcases hloc b (by simp [hb]) with ⟨j, hj⟩
          exact ⟨j, by rwa [hloc1]⟩) with ⟨r, s', heq', hs', hlabel, hsub, hroot', hdone⟩
      refine ⟨r, s', heq', hs', ?_, ?_, ?_, ?_⟩
      . rw [hlabel, label_of_core hcore, label_written]
      . exact fun j hj => ((hdirty1 j).1 (hsub j hj)).1
      . exact fun h => hroot' ((hdirty1 _).2 ⟨h, hroot.symm⟩)
      intro hr b hb j hj hdirty
      rw [List.mem_cons] at hb
      rcases hb with rfl | hb
      . exact ((hdirty1 j).1 (hsub j hdirty)).2 (hlinked.loc_injective hj hi)
      . exact hdone hr b hb j (by rwa [hloc1]) hdirty
    . rw [show (s.heap a).encrypted = (s.mhtNode (.node a)).encrypted from rfl, heq]
      refine ⟨false, s1.fail e, rfl, hs1.of_core rfl, hlabel, ?_, ?_, by simp⟩
      . exact fun j hj => (hdirty' j).1 hj
      . exact fun h => (hdirty' _).2 h

theorem Sealed.writeRootMht (hs : Sealed P E s t) (hdirty : s.Dirty (.mht 0)) (honly : ∀ i, s.Dirty i → i = .mht 0) :
    (∃ s', s.fwriteNode 1 s.rootMht.encrypted = (none, s') ∧ (s'.setRootMht s'.rootMht.setWritten).label = s.label
      ∧ (∀ i, ¬ (s'.setRootMht s'.rootMht.setWritten).Dirty i)
      ∧ Sealed P E (s'.setRootMht s'.rootMht.setWritten) t)
    ∨ ∃ e s', s.fwriteNode 1 s.rootMht.encrypted = (some e, s') ∧ s'.label = s.label ∧ Sealed P E s' t := by
  rcases hs.fwriteNode (loc_root s) hdirty (fun _ => honly) with ⟨s1, heq, hcore, hs1⟩ | ⟨e, s1, heq, hlabel, -, hs1⟩
  . refine .inl ⟨s1, heq, ?_, ?_, hs1⟩
    . exact (label_of_core hcore).trans label_written
    intro i hi
    have hi' := (dirty_written hs.holds.linked (loc_root s) i).1 ((dirty_of_core hcore i).1 hi)
    exact hi'.2 (honly i hi'.1)
  . exact .inr ⟨e, s1, heq, hlabel, hs1⟩

theorem Sealed.writeChangedNodes (hs : Sealed P E s t) :
    ∃ r s', s.writeChangedNodes = (r, s') ∧ Sealed P E s' t ∧ s'.label = s.label ∧ (r = true → ∀ i, ¬ s'.Dirty i) := by
  have hlinked := hs.holds.linked
  unfold File.writeChangedNodes
  split
  . next hcond =>
    rcases hs.writeNodes s.cache.walk (fun a ha => hlinked.mem_walk_iff.1 ha)
      with ⟨r, s1, heq, hs1, hlabel, hsub, hroot, hdone⟩
    rw [heq]
    cases r with
    | false => exact ⟨false, s1, rfl, hs1, hlabel, by simp⟩
    | true =>
      have honly : ∀ i, s1.Dirty i → i = .mht 0 := by
        intro i hi
        rcases hlinked.loc_parent (hsub i hi) with ⟨p, q, hp, -, -⟩
        cases p with
        | root => exact hlinked.loc_injective hp (loc_root s)
        | node a => exact absurd hi (hdone rfl a (hlinked.mem_walk_iff.2 ⟨i, hp⟩) i hp)
      rcases hs1.writeRootMht (hroot (dirty_root.2 hcond.2)) honly
        with ⟨s2, heq2, hlabel2, hclean, hs2⟩ | ⟨e, s2, heq2, hlabel2, hs2⟩
      . dsimp only
        rw [heq2]
        exact ⟨true, _, rfl, hs2, hlabel2.trans hlabel, fun _ => hclean⟩
      . dsimp only
        rw [heq2]
        exact ⟨false, _, rfl, hs2.of_core rfl, hlabel2.trans hlabel, by simp⟩
  . next hcond =>
    refine ⟨true, s, rfl, hs, rfl, ?_⟩
    intro _ i hi
    have hroot := hs.root i hi
    exact hcond ⟨hs.has _ hroot, dirty_root.1 hroot⟩

def MetaOnDisk (P : Platform N) (s : File N) : Prop :=
  ∃ f, s.host.main = some f ∧ 0 < f.count ∧ f.nodes 0 = P.packMetaData s.fileMetaData

theorem Sealed.writeAllChangesToDisk (hs : Sealed P E s t) (flushToDisk : Bool) :
    ∃ r s', s.writeAllChangesToDisk P flushToDisk = (r, s') ∧ Sealed P E s' t
      ∧ s'.label = s.label ∧ (r = true → (∀ i, ¬ s'.Dirty i) ∧ MetaOnDisk P s') := by
  have hzero : ∀ (u : File N) (i : NodeId), ¬ u.Dirty i → i.physical ≠ 0 :=
    fun u i _ => Nat.pos_iff_ne_zero.1 i.physical_pos
  unfold File.writeAllChangesToDisk
  rcases hs.writeChangedNodes with ⟨r, s1, heq, hs1, hlabel, hclean⟩
  rw [heq]
  cases r with
  | false => exact ⟨false, s1, rfl, hs1, hlabel, by simp⟩
  | true =>
    dsimp only
    rcases fwriteNode_spec s1 0 (P.packMetaData s1.fileMetaData)
      with ⟨s2, heq2, hcore⟩ | ⟨e, s2, heq2, hcore | ⟨b, hcore⟩⟩
    . have hs2 := (hs1.writeMain (hzero s1) (P.packMetaData s1.fileMetaData)).of_core hcore
      have hlabel2 : s2.label = s.label := (label_of_core hcore).trans hlabel
      have hclean2 : ∀ i, ¬ s2.Dirty i := by
        intro i
        rw [dirty_of_core hcore]
        exact hclean rfl i
      have hmeta : MetaOnDisk P s2 := by
        rcases Option.isSome_iff_exists.1 hs1.holds.main with ⟨f, hf⟩
        have hmain : s2.host.main = some (f.write 0 (P.packMetaData s1.fileMetaData)) := by
          rw [congr_core hcore (f := fun u => u.host.main) (fun _ => rfl)]
          simp [File.writeMain, hf]
        have hfile : s2.fileMetaData = s1.fileMetaData :=
          (congrArg File.fileMetaData hcore :)
        refine ⟨_, hmain, ?_, ?_⟩
        . simp [HostFile.write]
        . simp [HostFile.write, hfile]
      rw [heq2]
      dsimp only
      split
      . exact ⟨true, s2, rfl, hs2, hlabel2, fun _ => ⟨hclean2, hmeta⟩⟩
      unfold fflush
      cases s2.answer.error8 sgxErrorFileFlushFailed with
      | some e => exact ⟨false, _, rfl, hs2.of_core rfl, hlabel2, by simp⟩
      | none => exact ⟨true, _, rfl, hs2.of_core rfl, hlabel2, fun _ => ⟨hclean2, hmeta⟩⟩
    . rw [heq2]
      exact ⟨false, _, rfl, hs1.of_core hcore, (label_of_core hcore).trans hlabel, by simp⟩
    . rw [heq2]
      refine ⟨false, _, rfl, ?_, (label_of_core hcore).trans hlabel, by simp⟩
      exact (hs1.writeMain (hzero s1) b).of_core hcore

end File
end ProtectedFs
