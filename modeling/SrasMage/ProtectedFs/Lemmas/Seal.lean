import SrasMage.ProtectedFs.Lemmas.Holds

/-!
This module contains the encryption of all changed nodes.
-/

namespace ProtectedFs

open List Prod

variable {N : Type}

def FileNode.flags (n : FileNode N) : Bool × Bool := (n.needWriting, n.newNode)

namespace File

def outer (s : File N) := (s.host, s.hostLog, s.fileMetaData, s.needWriting, s.fileStatus)

structure Reseals (s s' : File N) : Prop where
  frame : Frame s s'
  outer : s'.outer = s.outer
  flags : ∀ p, (s'.mhtNode p).flags = (s.mhtNode p).flags

namespace Reseals

variable {s s' s'' : File N}

theorem refl (s : File N) : Reseals s s := ⟨Frame.refl s, rfl, fun _ => rfl⟩

theorem trans (h : Reseals s s') (h' : Reseals s' s'') : Reseals s s'' :=
  ⟨h.frame.trans h'.frame, h'.outer.trans h.outer, fun p => (h'.flags p).trans (h.flags p)⟩

theorem of_quiet (hf : Frame s s') (h : s'.quiet = s.quiet) : Reseals s s' where
  frame := hf
  outer := congr_quiet h (fun _ => rfl)
  flags p := congr_quiet h (f := fun u => (u.mhtNode p).flags) (fun _ => by cases p <;> rfl)

theorem modifyMhtNode (s : File N) (p : MhtPtr) {f : FileNode N → FileNode N}
    (hshape : ∀ n, (f n).shape = n.shape) (hflags : ∀ n, (f n).flags = n.flags) :
    Reseals s (s.modifyMhtNode p f) where
  frame := frame_modifyMhtNode s p hshape
  outer := by cases p <;> rfl
  flags q := by
    rw [mhtNode_modifyMhtNode]
    split
    . next h => rw [hflags, h]
    . rfl

section

variable (h : Reseals s s')
include h

theorem loc_eq (i : NodeId) : s'.loc i = s.loc i := loc_congr h.frame.cache i

theorem needWriting_eq (p : MhtPtr) : (s'.mhtNode p).needWriting = (s.mhtNode p).needWriting :=
  congrArg fst (h.flags p)

theorem dirty_iff (i : NodeId) : s'.Dirty i ↔ s.Dirty i := by
  cases hloc : s.loc i with
  | none => simp [Dirty, node?, hloc, h.loc_eq]
  | some p => rw [dirty_of_loc (h.loc_eq i ▸ hloc), dirty_of_loc hloc, h.needWriting_eq]

theorem node?_flags {i : NodeId} {n : FileNode N} (hn : s'.node? i = some n) :
    ∃ n', s.node? i = some n' ∧ n.flags = n'.flags := by
  rcases node?_eq_some_iff.1 hn with ⟨p, hp, rfl⟩
  rw [h.loc_eq] at hp
  exact ⟨_, node?_of_loc hp, h.flags p⟩

theorem has_iff (i : NodeId) : s'.Has i ↔ s.Has i := by rw [Has, Has, h.frame.size]

theorem host : s'.host = s.host := congrArg fst h.outer

theorem closed (hs : Closed s) : Closed s' where
  has i hi := (h.has_iff i).2 (hs.has i ((h.dirty_iff i).1 hi))
  parent i hi := (h.dirty_iff _).2 (hs.parent i ((h.dirty_iff i).1 hi))
  flag hi := by
    have houter := h.outer
    simp only [File.outer, Prod.mk.injEq] at houter
    rw [houter.2.2.2.1]
    exact hs.flag ((h.dirty_iff _).1 hi)

end

end Reseals

structure Sealing (P : Platform N) (E : Key × N → Prop) (S : NodeId → Prop) (s : File N)
    (t : Tree) : Prop where
  holds : Holds P E s t
  closed : Closed s
  seals : ∀ i n, S i → s.node? i = some n → n.needWriting = true →
    P.Seals E (t.crypto i) n.encrypted (P.pack (t.plain i))

def sealNode (s : File N) (i : NodeId) (p q : MhtPtr) (cipher : N) (c : GcmCryptoData) : File N :=
  (s.modifyMhtNode p (·.setEncrypted cipher)).modifyMht q (fun m => m.setCrypto c i)

section SealNode

variable {s : File N} {i : NodeId} {p q : MhtPtr} (cipher : N) (c : GcmCryptoData)

theorem reseals_sealNode : Reseals s (s.sealNode i p q cipher c) := by
  unfold sealNode modifyMht
  apply (Reseals.modifyMhtNode s p (FileNode.shape_setEncrypted cipher) (fun _ => rfl)).trans
  apply Reseals.modifyMhtNode
  . exact FileNode.shape_setPlain (Plain.isData_mapMht _)
  intro n
  rfl

theorem node?_sealNode (hs : Linked s) (hi : i ≠ .mht 0) (hp : s.loc i = some p)
    (hq : s.loc (.mht i.parent) = some q) (j : NodeId) :
    (s.sealNode i p q cipher c).node? j =
    if j = .mht i.parent then
      some ((s.mhtNode q).setPlain ((s.mhtNode q).plain.mapMht (fun m => m.setCrypto c i)))
    else if j = i then some ((s.mhtNode p).setEncrypted cipher)
    else s.node? j := by
  have hfirst := Reseals.modifyMhtNode s p (FileNode.shape_setEncrypted cipher) (fun _ => rfl)
  have hlinked := hs.frame hfirst.frame
  have hq' := hfirst.loc_eq (.mht i.parent) ▸ hq
  have hne : q ≠ p := by
    rintro rfl
    exact NodeId.parent_ne i hi (hs.loc_injective hq hp)
  rw [sealNode, modifyMht, hlinked.node?_modifyMhtNode hq', hs.node?_modifyMhtNode hp,
    mhtNode_modifyMhtNode, if_neg hne]

variable {P : Platform N} {E : Key × N → Prop} {S : NodeId → Prop} {t : Tree}

theorem Sealing.holds_sealNode (hs : Sealing P E S s t) (hi : i ≠ .mht 0) (hp : s.loc i = some p)
    (hq : s.loc (.mht i.parent) = some q) (hdirty : s.Dirty i) :
    Holds P E (s.sealNode i p q cipher c) (t.setCrypto i c) where
  linked := hs.holds.linked.frame (reseals_sealNode cipher c).frame
  root := by
    rw [Tree.root_setCrypto_of_ne t hi, hs.holds.root]
    cases p <;> cases q <;> rfl
  plain j n hn := by
    rw [node?_sealNode cipher c hs.holds.linked hi hp hq] at hn
    split at hn
    . next hj =>
      cases hn
      have hplain := hs.holds.plain _ _ (node?_of_loc hq)
      rw [hj, Tree.plain_setCrypto_parent t hi, ← hplain]
      rfl
    next hj =>
    rw [Tree.plain_setCrypto_of_ne t c (.inr hj)]
    split at hn
    . next hj' =>
      cases hn
      have hplain := hs.holds.plain _ _ (node?_of_loc hp)
      rw [hj', ← hplain]
      rfl
    . exact hs.holds.plain j n hn
  tail j hj := by
    rw [(reseals_sealNode cipher c).has_iff] at hj
    have hne : j ≠ .mht i.parent := by
      rintro rfl
      exact hj (hs.closed.has _ (hs.closed.parent i hdirty))
    rw [Tree.plain_setCrypto_of_ne t c (.inr hne)]
    exact hs.holds.tail j hj
  main := by
    rw [(reseals_sealNode cipher c).host]
    exact hs.holds.main
  disk j hj hclean := by
    rw [(reseals_sealNode cipher c).has_iff] at hj
    rw [(reseals_sealNode cipher c).dirty_iff] at hclean
    have hne : j ≠ .mht i.parent := by
      rintro rfl
      exact hclean (hs.closed.parent i hdirty)
    have hne' : j ≠ i := by
      rintro rfl
      exact hclean hdirty
    rw [OnDisk, (reseals_sealNode cipher c).host, Tree.plain_setCrypto_of_ne t c (.inr hne),
      Tree.crypto_setCrypto_of_ne t c hne']
    exact hs.holds.disk j hj hclean
  cipher j n hn hneed hold := by
    rw [SameCipher, (reseals_sealNode cipher c).host]
    rw [node?_sealNode cipher c hs.holds.linked hi hp hq] at hn
    split at hn
    . next hj =>
      cases hn
      rw [hj]
      have hcipher := hs.holds.cipher _ _ (node?_of_loc hq) hneed hold
      exact hcipher
    split at hn
    . cases hn
      have hneed' : (s.mhtNode p).needWriting = false := hneed
      rw [(dirty_of_loc hp).1 hdirty] at hneed'
      cases hneed'
    . exact hs.holds.cipher j n hn hneed hold
  old j n hn hold := by
    rcases (reseals_sealNode cipher c).node?_flags hn with ⟨n', hn', hflags⟩
    rw [(reseals_sealNode cipher c).has_iff]
    exact hs.holds.old j n' hn' ((congrArg snd hflags).symm.trans hold)
  new j n hn hnew hneed := by
    rcases (reseals_sealNode cipher c).node?_flags hn with ⟨n', hn', hflags⟩
    rw [(reseals_sealNode cipher c).has_iff]
    exact hs.holds.new j n' hn' ((congrArg snd hflags).symm.trans hnew) ((congrArg fst hflags).symm.trans hneed)

theorem Sealing.sealNode (hs : Sealing P E S s t) (hi : i ≠ .mht 0) (hp : s.loc i = some p)
    (hq : s.loc (.mht i.parent) = some q) (hdirty : s.Dirty i) (hparent : ¬ S (.mht i.parent))
    (hseals : P.Seals E c cipher (P.pack (t.plain i))) :
    Sealing P E (fun j => S j ∨ j = i) (s.sealNode i p q cipher c) (t.setCrypto i c) where
  holds := hs.holds_sealNode cipher c hi hp hq hdirty
  closed := (reseals_sealNode cipher c).closed hs.closed
  seals j n hj hn hneed := by
    rw [node?_sealNode cipher c hs.holds.linked hi hp hq] at hn
    by_cases hj' : j = i
    . subst hj'
      rw [if_neg (NodeId.parent_ne j hi).symm, if_pos rfl, Option.some.injEq] at hn
      subst hn
      rw [Tree.crypto_setCrypto_self, Tree.plain_setCrypto_self]
      exact hseals
    have hS : S j := hj.resolve_right hj'
    have hne : j ≠ .mht i.parent := by
      rintro rfl
      exact hparent hS
    rw [if_neg hne, if_neg hj'] at hn
    rw [Tree.crypto_setCrypto_of_ne t c hj', Tree.plain_setCrypto_of_ne t c (.inr hne)]
    exact hs.seals j n hS hn hneed

theorem Sealing.of_core {s' : File N} (hs : Sealing P E S s t) (h : s'.core = s.core) : Sealing P E S s' t where
  holds := hs.holds.of_core h
  closed := hs.closed.of_core h
  seals i n hi hn hneed := by
    apply hs.seals i n hi _ hneed
    rwa [← congr_core h (f := fun u => u.node? i) (fun _ => rfl)]

theorem Sealing.mono {S' : NodeId → Prop} (hs : Sealing P E S s t)
    (h : ∀ i, s.Dirty i → S' i → S i) : Sealing P E S' s t where
  holds := hs.holds
  closed := hs.closed
  seals i n hi hn hneed := hs.seals i n (h i ⟨n, hn, hneed⟩ hi) hn hneed

theorem encryptLog_sealNode : (s.sealNode i p q cipher c).encryptLog = s.encryptLog := by
  cases p <;> cases q <;> rfl

end SealNode

section Update

variable (P : Platform N) {E : Key × N → Prop} {S : NodeId → Prop} {s : File N} {t : Tree}

theorem Sealing.encryptNode (hs : Sealing P E S s t) (hcalls : s.outside.CallsSucceed)
    {i : NodeId} {p q : MhtPtr} (hi : i ≠ .mht 0) (hp : s.loc i = some p)
    (hq : s.loc (.mht i.parent) = some q) (hdirty : s.Dirty i) (hparent : ¬ S (.mht i.parent))
    (n : Nat) :
    ∃ cipher c s1, s.encryptNode P n (P.pack (t.plain i)) = (some (cipher, c), s1)
      ∧ Reseals s (s1.sealNode i p q cipher c)
      ∧ ((∀ e ∈ (s1.sealNode i p q cipher c).encryptLog, E e) →
        Sealing P E (fun j => S j ∨ j = i) (s1.sealNode i p q cipher c) (t.setCrypto i c)) := by
  rcases encryptNode_spec P hcalls n (P.pack (t.plain i)) with ⟨key, s1, heq, hquiet, hlog⟩
  have hreseals : Reseals s s1 := Reseals.of_quiet ((frame_encryptNode P s n _).snd heq) hquiet
  refine ⟨_, _, s1, heq, hreseals.trans (reseals_sealNode _ _), ?_⟩
  intro hE
  rw [encryptLog_sealNode] at hE
  apply Sealing.sealNode _ _ (hs.of_core (core_of_quiet hquiet)) hi
  . rwa [hreseals.loc_eq]
  . rwa [hreseals.loc_eq]
  . rwa [hreseals.dirty_iff]
  . exact hparent
  . exact ⟨hE _ hlog, rfl⟩

omit P in
theorem setNeedWriting_eq_self {as : List Addr} (h : ∀ a ∈ as, (s.heap a).needWriting = true) :
    s.setNeedWriting as = s := by
  induction as with
  | nil => rfl
  | cons a as ih =>
    have ha : s.modifyNode a FileNode.setNeedWriting = s := by
      have hnode : (s.heap a).setNeedWriting = s.heap a := by rw [FileNode.setNeedWriting, ← h a (by simp)]
      rw [modifyNode, hnode, setNode, Function.update_eq_self]
    rw [setNeedWriting, foldl_cons, ha]
    exact ih (fun b hb => h b (by simp [hb]))

omit P in
theorem Closed.parents (hs : Closed s) (hlinked : Linked s) {m : Nat} {p : MhtPtr}
    (hp : s.loc (.mht m) = some p) (hdirty : s.Dirty (.mht m)) :
    ∀ a ∈ s.parents p, (s.heap a).needWriting = true := by
  have hgo : ∀ fuel m p, s.loc (.mht m) = some p → s.Dirty (.mht m) →
      ∀ a ∈ parents.go s fuel p, (s.heap a).needWriting = true := by
    intro fuel
    induction fuel with
    | zero => simp [parents.go]
    | succ fuel ih =>
      intro m p hp hdirty a ha
      cases p with
      | root => simp [parents.go] at ha
      | node b =>
        rw [parents.go, mem_cons] at ha
        rcases ha with rfl | ha
        . exact (dirty_of_loc hp).1 hdirty
        . exact ih _ _ (hlinked.parent_eq hp) (hs.parent _ hdirty) a ha
  exact hgo _ m p hp hdirty

theorem Sealing.updateDataNode (hs : Sealing P E S s t) (hcalls : s.outside.CallsSucceed)
    {d : Nat} {a : Addr} (hloc : s.loc (.data d) = some (.node a)) (hdirty : s.Dirty (.data d))
    (hS : ∀ m, ¬ S (.mht m)) (hE : ∀ e ∈ (s.updateDataNode P a).2.encryptLog, E e) :
    ∃ s' c, s.updateDataNode P a = (true, s') ∧ Reseals s s'
      ∧ Sealing P E (fun j => S j ∨ j = .data d) s' (t.setCrypto (.data d) c) := by
  have hlinked := hs.holds.linked
  have hparent := hlinked.parent_eq hloc
  have hplain : P.packData (s.heap a).plain.toData = P.pack (t.plain (.data d)) := by
    rw [hs.holds.heap_plain hloc]
    rfl
  have hnumber : (s.heap a).number = d := hlinked.number_eq hloc
  rcases hs.encryptNode P hcalls (by simp) hloc hparent hdirty (hS _)
    (s.heap a).physicalNodeNumber with ⟨cipher, c, s1, heq, hreseals, hseal⟩
  have hself : (s1.sealNode (.data d) (.node a) (s.heap a).parent cipher c).setNeedWriting
      ((s1.sealNode (.data d) (.node a) (s.heap a).parent cipher c).parents (s.heap a).parent)
      = s1.sealNode (.data d) (.node a) (s.heap a).parent cipher c := by
    apply setNeedWriting_eq_self
    apply (hreseals.closed hs.closed).parents (hlinked.frame hreseals.frame)
    . rw [hreseals.loc_eq]
      exact hparent
    rw [hreseals.dirty_iff]
    exact hs.closed.parent _ hdirty
  have hupdate : s.updateDataNode P a = (true, s1.sealNode (.data d) (.node a) (s.heap a).parent cipher c) := by
    rw [File.updateDataNode]
    dsimp only
    rw [hplain, heq, hnumber]
    exact congrArg (Prod.mk true) hself
  rw [hupdate] at hE
  exact ⟨_, c, hupdate, hreseals, hseal hE⟩

theorem Sealing.updateMhtNode (hs : Sealing P E S s t) (hcalls : s.outside.CallsSucceed)
    {m : Nat} {a : Addr} (hloc : s.loc (.mht m) = some (.node a)) (hdirty : s.Dirty (.mht m))
    (hS : ¬ S (.mht (NodeId.mht m).parent))
    (hE : ∀ e ∈ (s.updateMhtNode P a).2.encryptLog, E e) :
    ∃ s' c, s.updateMhtNode P a = (true, s') ∧ Reseals s s'
      ∧ Sealing P E (fun j => S j ∨ j = .mht m) s' (t.setCrypto (.mht m) c) := by
  have hlinked := hs.holds.linked
  have hparent := hlinked.parent_eq hloc
  have hroot : NodeId.mht m ≠ .mht 0 := by
    intro h
    rw [h, loc_root] at hloc
    cases hloc
  have hplain : P.packMht (s.heap a).plain.toMht = P.pack (t.plain (.mht m)) := by
    rw [hs.holds.heap_plain hloc]
    rfl
  have hnumber : (s.heap a).number = m := hlinked.number_eq hloc
  rcases hs.encryptNode P hcalls hroot hloc hparent hdirty hS (s.heap a).physicalNodeNumber
    with ⟨cipher, c, s1, heq, hreseals, hseal⟩
  have hupdate : s.updateMhtNode P a = (true, s1.sealNode (.mht m) (.node a) (s.heap a).parent cipher c) := by
    rw [File.updateMhtNode]
    rw [hplain, heq, hnumber]
    rfl
  rw [hupdate] at hE
  exact ⟨_, c, hupdate, hreseals, hseal hE⟩

theorem Sealing.updateDataNodes (as : List Addr) :
    ∀ {S : NodeId → Prop} {s : File N} {t : Tree}, Sealing P E S s t → s.outside.CallsSucceed →
      (∀ m, ¬ S (.mht m)) → (∀ a ∈ as, ∃ i, s.loc i = some (.node a)) →
      (∀ e ∈ (s.updateDataNodes P as).2.encryptLog, E e) →
      ∃ s' t', s.updateDataNodes P as = (true, s') ∧ Reseals s s' ∧ t'.data = t.data ∧ Sealing P E
          (fun i => S i ∨ i.isData = true ∧ ∃ a ∈ as, s.loc i = some (.node a)) s' t' := by
  induction as with
  | nil =>
    intro S s t hs _ _ _ _
    exact ⟨s, t, rfl, Reseals.refl s, rfl, hs.mono (by simp)⟩
  | cons a as ih =>
    intro S s t hs hcalls hS hloc hE
    rcases hloc a (by simp) with ⟨i, hi⟩
    have hlinked := hs.holds.linked
    rw [File.updateDataNodes] at hE ⊢
    split
    . next hcond =>
      rw [if_pos hcond] at hE
      have hdata : i.isData = true := (hlinked.isData_eq hi).symm.trans hcond.1
      cases i with
      | mht m => simp [NodeId.isData] at hdata
      | data d =>
        have hdirty : s.Dirty (.data d) := (dirty_of_loc hi).2 hcond.2
        have hlog := log_of_match (fun s1 => frame_updateDataNodes P as s1) hE
        rcases hs.updateDataNode P hcalls hi hdirty hS hlog with ⟨s1, c, heq, hreseals, hs1⟩
        rw [heq] at hE ⊢
        have hcalls1 : s1.outside.CallsSucceed := hreseals.frame.outside ▸ hcalls
        rcases ih hs1 hcalls1 (by simpa using hS) (fun b hb => by
          rcases hloc b (by simp [hb]) with ⟨j, hj⟩
          exact ⟨j, by rwa [hreseals.loc_eq]⟩) hE with ⟨s', t', heq', hreseals', hdata', hs'⟩
        refine ⟨s', t', heq', hreseals.trans hreseals', by rw [hdata', Tree.data_setCrypto], ?_⟩
        apply hs'.mono
        rintro j - (hj | ⟨hjd, b, hb, hj⟩)
        . exact .inl (.inl hj)
        rw [mem_cons] at hb
        rcases hb with rfl | hb
        . exact .inl (.inr (hlinked.loc_injective hj hi))
        . exact .inr ⟨hjd, b, hb, by rwa [hreseals.loc_eq]⟩
    . next hcond =>
      rw [if_neg hcond] at hE
      rcases ih hs hcalls hS (fun b hb => hloc b (by simp [hb])) hE with ⟨s', t', heq', hreseals', hdata', hs'⟩
      refine ⟨s', t', heq', hreseals', hdata', ?_⟩
      apply hs'.mono
      rintro j hdirty (hj | ⟨hjd, b, hb, hj⟩)
      . exact .inl hj
      rw [mem_cons] at hb
      rcases hb with rfl | hb
      . -- a data node that was skipped is not changed
        rw [hreseals'.dirty_iff, dirty_of_loc hj] at hdirty
        exact absurd ⟨(hlinked.isData_eq hj).trans hjd, hdirty⟩ hcond
      . exact .inr ⟨hjd, b, hb, hj⟩

theorem Sealing.updateMhtNodes (as : List Addr) :
    ∀ {S : NodeId → Prop} {s : File N} {t : Tree}, Sealing P E S s t → s.outside.CallsSucceed →
      (∀ a ∈ as, ∃ m, s.loc (.mht m) = some (.node a) ∧ s.Dirty (.mht m)) →
      as.Pairwise (fun a b => (s.heap b).number ≤ (s.heap a).number) →
      (∀ m, S (.mht m) → ∀ a ∈ as, (s.heap a).number ≤ m) →
      (∀ e ∈ (s.updateMhtNodes P as).2.encryptLog, E e) →
      ∃ s' t', s.updateMhtNodes P as = (true, s') ∧ Reseals s s' ∧ t'.data = t.data
        ∧ Sealing P E (fun i => S i ∨ ∃ a ∈ as, s.loc i = some (.node a)) s' t' := by
  induction as with
  | nil =>
    intro S s t hs _ _ _ _ _
    exact ⟨s, t, rfl, Reseals.refl s, rfl, hs.mono (by simp)⟩
  | cons a as ih =>
    intro S s t hs hcalls hloc hsorted hS hE
    rcases hloc a (by simp) with ⟨m, hm, hdirty⟩
    have hlinked := hs.holds.linked
    have hnumber : (s.heap a).number = m := hlinked.number_eq hm
    rw [pairwise_cons] at hsorted
    rw [File.updateMhtNodes] at hE ⊢
    have hlog := log_of_match (fun s1 => frame_updateMhtNodes P as s1) hE
    have hne : m ≠ 0 := by
      rintro rfl
      rw [loc_root] at hm
      cases hm
    have hparent : ¬ S (.mht (NodeId.mht m).parent) := by
      intro h
      have := hS _ h a (by simp)
      have := NodeId.parent_mht_lt hne
      omega
    rcases hs.updateMhtNode P hcalls hm hdirty hparent hlog with ⟨s1, c, heq, hreseals, hs1⟩
    rw [heq] at hE ⊢
    have hcalls1 : s1.outside.CallsSucceed := hreseals.frame.outside ▸ hcalls
    have hnumber1 : ∀ b, (s1.heap b).number = (s.heap b).number :=
      fun b => congrArg fst (hreseals.frame.nodes.shape b)
    rcases ih hs1 hcalls1 (fun b hb => by
        rcases hloc b (by simp [hb]) with ⟨j, hj, hjd⟩
        exact ⟨j, by rwa [hreseals.loc_eq], by rwa [hreseals.dirty_iff]⟩)
      (by simpa only [hnumber1] using hsorted.2) (by
        rintro j (hj | hj) b hb
        . rw [hnumber1]
          exact hS j hj b (by simp [hb])
        cases hj
        rw [hnumber1, ← hnumber]
        exact hsorted.1 b hb) hE with ⟨s', t', heq', hreseals', hdata', hs'⟩
    refine ⟨s', t', heq', hreseals.trans hreseals', by rw [hdata', Tree.data_setCrypto], ?_⟩
    apply hs'.mono
    rintro j - (hj | ⟨b, hb, hj⟩)
    . exact .inl (.inl hj)
    rw [mem_cons] at hb
    rcases hb with rfl | hb
    . exact .inl (.inr (hlinked.loc_injective hj hm))
    . exact .inr ⟨b, hb, by rwa [hreseals.loc_eq]⟩

omit P in
theorem mem_mhtList_iff (hs : Linked s) {a : Addr} :
    a ∈ s.mhtList ↔ ∃ m, s.loc (.mht m) = some (.node a) ∧ s.Dirty (.mht m) := by
  rw [mhtList, mem_insertionSort, mem_reverse, mem_filter, hs.mem_walk_iff]
  constructor
  . rintro ⟨⟨i, hi⟩, hcond⟩
    rw [Bool.and_eq_true, Bool.not_eq_true'] at hcond
    have hdata : i.isData = false := (hs.isData_eq hi).symm.trans hcond.1
    cases i with
    | data d => simp [NodeId.isData] at hdata
    | mht m => exact ⟨m, hi, (dirty_of_loc hi).2 hcond.2⟩
  . rintro ⟨m, hm, hdirty⟩
    refine ⟨⟨_, hm⟩, ?_⟩
    rw [Bool.and_eq_true, Bool.not_eq_true']
    exact ⟨hs.isData_eq hm, (dirty_of_loc hm).1 hdirty⟩

omit P in
theorem pairwise_mhtList (s : File N) : s.mhtList.Pairwise (fun a b => (s.heap b).number ≤ (s.heap a).number) := by
  have : Std.Total (fun a b : Addr => (s.heap b).number ≤ (s.heap a).number) :=
    ⟨fun a b => Nat.le_total _ _⟩
  have : IsTrans Addr (fun a b : Addr => (s.heap b).number ≤ (s.heap a).number) :=
    ⟨fun a b c hab hbc => Nat.le_trans hbc hab⟩
  exact pairwise_insertionSort _ _

omit P in
theorem reseals_setRootCrypto (cipher : N) (c : GcmCryptoData) : Reseals s (s.setRootCrypto cipher c) where
  frame := ⟨⟨rfl, rfl, fun _ => rfl⟩, rfl, rfl, List.Subset.refl _⟩
  outer := rfl
  flags p := by cases p <;> rfl

theorem Sealing.setRootCrypto (hs : Sealing P E (fun i => i ≠ .mht 0) s t)
    (hdirty : s.Dirty (.mht 0)) {cipher : N} {c : GcmCryptoData}
    (hseals : P.Seals E c cipher (P.pack (t.plain (.mht 0)))) :
    Sealing P E (fun _ => True) (s.setRootCrypto cipher c) (t.setCrypto (.mht 0) c) where
  holds :=
    { linked := hs.holds.linked.frame (reseals_setRootCrypto cipher c).frame
      root := by simp [Tree.setCrypto, File.setRootCrypto]
      plain := by
        intro i n hn
        rw [Tree.plain_setCrypto_of_ne t c (.inl rfl)]
        by_cases hi : i = .mht 0
        . subst hi
          rw [node?_root, Option.some.injEq] at hn
          rw [← hn, ← hs.holds.plain _ _ (node?_root s)]
          rfl
        . apply hs.holds.plain i n
          rw [node?_of_ne hi] at hn ⊢
          exact hn
      tail := by
        intro i hi
        rw [Tree.plain_setCrypto_of_ne t c (.inl rfl)]
        exact hs.holds.tail i hi
      main := hs.holds.main
      disk := by
        intro i hi hclean
        rw [(reseals_setRootCrypto cipher c).dirty_iff] at hclean
        have hne : i ≠ .mht 0 := by
          rintro rfl
          exact hclean hdirty
        rw [OnDisk, Tree.plain_setCrypto_of_ne t c (.inl rfl), Tree.crypto_setCrypto_of_ne t c hne]
        exact hs.holds.disk i hi hclean
      cipher := by
        intro i n hn hneed hold
        have hne : i ≠ .mht 0 := by
          rintro rfl
          rw [node?_root, Option.some.injEq] at hn
          subst hn
          have hneed' : s.rootMht.needWriting = false := hneed
          rw [dirty_root.1 hdirty] at hneed'
          cases hneed'
        apply hs.holds.cipher i n _ hneed hold
        rw [node?_of_ne hne] at hn ⊢
        exact hn
      old := by
        intro i n hn hold
        rcases (reseals_setRootCrypto cipher c).node?_flags hn with ⟨n', hn', hflags⟩
        exact hs.holds.old i n' hn' ((congrArg snd hflags).symm.trans hold)
      new := by
        intro i n hn hnew hneed
        rcases (reseals_setRootCrypto cipher c).node?_flags hn with ⟨n', hn', hflags⟩
        exact hs.holds.new i n' hn' ((congrArg snd hflags).symm.trans hnew) ((congrArg fst hflags).symm.trans hneed) }
  closed := (reseals_setRootCrypto cipher c).closed hs.closed
  seals i n _ hn hneed := by
    rw [Tree.plain_setCrypto_of_ne t c (.inl rfl)]
    by_cases hi : i = .mht 0
    . subst hi
      rw [node?_root, Option.some.injEq] at hn
      subst hn
      rw [Tree.crypto_setCrypto_self]
      exact hseals
    . rw [Tree.crypto_setCrypto_of_ne t c hi]
      apply hs.seals i n hi _ hneed
      rw [node?_of_ne hi] at hn ⊢
      exact hn

theorem Sealing.updateRootMht (hs : Sealing P E (fun i => i ≠ .mht 0) s t)
    (hcalls : s.outside.CallsSucceed) (hdirty : s.Dirty (.mht 0))
    (hE : ∀ e ∈ (s.updateRootMht P).2.encryptLog, E e) :
    ∃ s' t', s.updateRootMht P = (true, s') ∧ Reseals s s' ∧ t'.data = t.data ∧ Sealing P E (fun _ => True) s' t' := by
  have hplain : P.packMht s.rootMht.plain.toMht = P.pack (t.plain (.mht 0)) := by
    rw [hs.holds.plain _ _ (node?_root s)]
    rfl
  rcases encryptNode_spec P hcalls s.rootMht.physicalNodeNumber (P.pack (t.plain (.mht 0)))
    with ⟨key, s1, heq, hquiet, hlog⟩
  have hreseals : Reseals s s1 := Reseals.of_quiet ((frame_encryptNode P s _ _).snd heq) hquiet
  rw [← hreseals.dirty_iff] at hdirty
  unfold File.updateRootMht at hE ⊢
  rw [hplain, heq] at hE ⊢
  have hs1 := hs.of_core (core_of_quiet hquiet)
  refine ⟨_, _, rfl, hreseals.trans (reseals_setRootCrypto _ _), ?_, hs1.setRootCrypto P hdirty ⟨hE _ hlog, rfl⟩⟩
  exact Tree.data_setCrypto _ _ _

theorem Sealing.updateAllMhtNodes (hs : Sealing P E (fun i => i.isData = true) s t)
    (hcalls : s.outside.CallsSucceed) (hdirty : s.Dirty (.mht 0))
    (hE : ∀ e ∈ (s.updateAllMhtNodes P).2.encryptLog, E e) :
    ∃ s' t', s.updateAllMhtNodes P = (true, s') ∧ Reseals s s' ∧ t'.data = t.data
      ∧ Sealing P E (fun _ => True) s' t' := by
  have hlinked := hs.holds.linked
  unfold File.updateAllMhtNodes at hE ⊢
  have hlog := log_of_match (fun s1 => frame_updateRootMht P s1) hE
  rcases hs.updateMhtNodes P _ hcalls (fun a ha => (mem_mhtList_iff hlinked).1 ha)
    (pairwise_mhtList s) (by simp [NodeId.isData]) hlog
    with ⟨s1, t1, heq, hreseals, hdata, hs1⟩
  rw [heq] at hE ⊢
  have hs₁' : Sealing P E (fun i => i ≠ .mht 0) s1 t1 := by
    apply hs1.mono
    intro i hi hne
    rw [hreseals.dirty_iff] at hi
    cases i with
    | data d => exact .inl rfl
    | mht m =>
      rcases hlinked.loc_parent hi with ⟨p, q, hp, -, -⟩
      cases p with
      | root => exact absurd (hlinked.loc_injective hp (loc_root s)) hne
      | node a => exact .inr ⟨a, (mem_mhtList_iff hlinked).2 ⟨m, hp, hi⟩, hp⟩
  rw [← hreseals.dirty_iff] at hdirty
  rcases hs₁'.updateRootMht P (hreseals.frame.outside ▸ hcalls) hdirty hE with ⟨s', t', heq', hreseals', hdata', hs'⟩
  exact ⟨s', t', heq', hreseals.trans hreseals', hdata'.trans hdata, hs'⟩

theorem updateAllDataAndMhtNodes_spec (hs : Holds P E s t) (hclosed : Closed s)
    (hcalls : s.outside.CallsSucceed) (hdirty : s.Dirty (.mht 0))
    (hE : ∀ e ∈ (s.updateAllDataAndMhtNodes P).2.encryptLog, E e) :
    ∃ s' t', s.updateAllDataAndMhtNodes P = (true, s') ∧ Reseals s s' ∧ t'.data = t.data
      ∧ Sealing P E (fun _ => True) s' t' := by
  have hstart : Sealing P E (fun _ => False) s t := ⟨hs, hclosed, fun _ _ h => h.elim⟩
  have hwalk : ∀ a ∈ s.cache.walk, ∃ i, s.loc i = some (.node a) :=
    fun a ha => hs.linked.mem_walk_iff.1 ha
  unfold updateAllDataAndMhtNodes at hE ⊢
  have hlog := log_of_match (fun s1 => frame_updateAllMhtNodes P s1) hE
  rcases hstart.updateDataNodes P _ hcalls (by simp) hwalk hlog with ⟨s1, t1, heq, hreseals, hdata, hs1⟩
  rw [heq] at hE ⊢
  have hs₁' : Sealing P E (fun i => i.isData = true) s1 t1 := by
    apply hs1.mono
    intro i hi hisData
    rw [hreseals.dirty_iff] at hi
    rcases hs.linked.loc_parent hi with ⟨p, q, hp, -, -⟩
    cases p with
    | root =>
      rw [hs.linked.loc_injective hp (loc_root s)] at hisData
      cases hisData
    | node a => exact .inr ⟨hisData, a, hs.linked.mem_walk_iff.2 ⟨i, hp⟩, hp⟩
  rw [← hreseals.dirty_iff] at hdirty
  rcases hs₁'.updateAllMhtNodes P (hreseals.frame.outside ▸ hcalls) hdirty hE
    with ⟨s', t', heq', hreseals', hdata', hs'⟩
  exact ⟨s', t', heq', hreseals.trans hreseals', hdata'.trans hdata, hs'⟩

end Update

end File
end ProtectedFs
