import SrasMage.ProtectedFs.Lemmas.Log
import SrasMage.ProtectedFs.Lemmas.LookupSpec
import SrasMage.ProtectedFs.Lemmas.Store
import SrasMage.ProtectedFs.Lemmas.Success

/-!
This module contains the eviction loop and, with it, the specification of `get_data_node`.
-/

namespace ProtectedFs

open NodeId List

variable {N : Type}

namespace File

structure Live (P : Platform N) (E : Key × N → Prop) (J : File N → Prop) (s : File N) (t : Tree) :
    Prop where
  ready : Ready P E s t
  ordered : Ordered s
  inside : s.offset ≤ s.encryptedPartPlain.size
  kept : J s

structure Kept (P : Platform N) (E : Key × N → Prop) (J : File N → Prop) : Prop where
  evolves : ∀ {s s' t}, Ready P E s t → J s → Evolves t s s' → J s'
  touches : ∀ {s s' t A}, Ready P E s t → J s → Touches A s s' → J s'
  flush : ∀ {s s' t t' flushToDisk}, Ready P E s t → J s →
    s.internalFlush P flushToDisk = (true, s') → Flushed P E s' t' → J s'
  congr : ∀ {s s'}, J s → s'.memory = s.memory → s'.fileMetaData = s.fileMetaData →
    s'.kdk = s.kdk → J s'

theorem Kept.trivial (P : Platform N) (E : Key × N → Prop) : Kept P E (fun _ => True) :=
  ⟨fun _ _ _ => True.intro, fun _ _ _ => True.intro, fun _ _ _ _ => True.intro, fun _ _ _ _ => True.intro⟩

structure Shrinks (s s' : File N) : Prop where
  keys : s'.cache.keys <+: s.cache.keys
  cached : ∀ i a, s'.cached i = some a → s.cached i = some a
  fixed : s'.fixed = s.fixed
  log : s.encryptLog ⊆ s'.encryptLog

namespace Shrinks

variable {s s' s'' : File N}

theorem refl (s : File N) : Shrinks s s :=
  ⟨prefix_refl _, fun _ _ h => h, rfl, List.Subset.refl _⟩

theorem trans (h : Shrinks s s') (h' : Shrinks s' s'') : Shrinks s s'' where
  keys := h'.keys.trans h.keys
  cached i a hi := h.cached i a (h'.cached i a hi)
  fixed := h'.fixed.trans h.fixed
  log := List.Subset.trans h.log h'.log

theorem of_frame (h : Frame s s') : Shrinks s s' where
  keys := by rw [h.cache]
  cached i a hi := by
    rw [File.cached, h.cache] at hi
    exact hi
  fixed := h.fixed
  log := h.log

end Shrinks

section Evict

variable {P : Platform N} {E : Key × N → Prop} {J : File N → Prop} {s s' : File N} {t : Tree}

theorem Live.evolves (hJ : Kept P E J) (hs : Live P E J s t) (h : Evolves t s s')
    (hordered : Ordered s') : Live P E J s' t where
  ready := h.ready hs.ready
  ordered := hordered
  inside := by
    have hoffset : s'.offset = s.offset := congrArg Fixed.offset h.fixed
    rw [hoffset, h.md]
    exact hs.inside
  kept := hJ.evolves hs.ready hs.kept h

theorem Ordered.last_childless (hs : Ordered s) (hlinked : Linked s) {ks : List Nat} {i : NodeId}
    (hks : s.cache.keys = ks ++ [i.physical]) (j : NodeId) (b : Addr)
    (hj : s.cached j = some b) : .mht j.parent ≠ i := by
  rintro rfl
  have hmem := hlinked.wf.mem_keys hj
  rw [hks, mem_append, mem_singleton] at hmem
  rw [Ordered, hks, pairwise_append] at hs
  rcases hmem with hmem | hlast
  . exact hs.2.2 _ hmem _ (by simp) j rfl rfl
  . exact parent_ne j (hlinked.ne_root hj) (physical_injective hlast).symm

theorem shrinks_evictLast (hs : Linked s) {a : Addr} {i : NodeId} {ks : List Nat}
    (hi : s.cached i = some a) (hks : s.cache.keys = ks ++ [i.physical])
    (hclean : (s.heap a).needWriting = false)
    (hchild : ∀ j b, s.cached j = some b → .mht j.parent ≠ i) : Shrinks s (s.evictLast a) where
  keys := by
    rw [evictLast, setCache, Lru.Cache.removeLast_keys]
    exact dropLast_prefix _
  cached j b hj := by
    rw [Evolves.cached_evictLast hks] at hj
    split at hj
    . cases hj
    . exact hj
  fixed := (Evolves.evictLast (t := Tree.zero) hs hi hks hclean hchild).fixed
  log := List.Subset.refl _

theorem Live.evictLast (hJ : Kept P E J) (hs : Live P E J s t) {a : Addr}
    (hlast : s.cache.getLast = some a) (hclean : (s.heap a).needWriting = false) :
    Live P E J (s.evictLast a) t ∧ Shrinks s (s.evictLast a) ∧ (s.evictLast a).cache.keys = s.cache.keys.dropLast
      ∧ (s.evictLast a).cache.size + 1 = s.cache.size := by
  have hlinked := hs.ready.holds.linked
  have hkeys' : (s.evictLast a).cache.keys = s.cache.keys.dropLast := by
    rw [File.evictLast, setCache, Lru.Cache.removeLast_keys]
  rcases eq_nil_or_concat s.cache.keys with hnil | ⟨ks, key, hks⟩
  . rw [Lru.Cache.getLast_eq, hnil] at hlast
    cases hlast
  rw [concat_eq_append] at hks
  rcases hlinked.keys key (by simp [hks]) with ⟨i, -, rfl⟩
  have hi : s.cached i = some a := by
    rw [Lru.Cache.getLast_eq, hks, List.getLast?_append_cons, List.getLast?_singleton] at hlast
    exact hlast
  have hchild := hs.ordered.last_childless hlinked hks
  have hevolves : Evolves t s (s.evictLast a) := Evolves.evictLast hlinked hi hks hclean hchild
  refine ⟨hs.evolves hJ hevolves ?_, shrinks_evictLast hlinked hi hks hclean hchild, hkeys', ?_⟩
  . rw [Ordered, hkeys']
    exact hs.ordered.sublist (dropLast_sublist _)
  rw [Lru.Cache.size_eq_length_keys, Lru.Cache.size_eq_length_keys, hkeys', hks]
  simp

theorem Live.internalFlush (hJ : Kept P E J) (hs : Live P E J s t)
    (hcalls : s.outside.CallsSucceed) (flushToDisk : Bool)
    (hE : ∀ e ∈ (s.internalFlush P flushToDisk).2.encryptLog, E e) :
    (∃ s' t', s.internalFlush P flushToDisk = (true, s') ∧ t'.data = t.data ∧ Live P E J s' t'
      ∧ s'.needWriting = false ∧ s'.fileStatus = s.fileStatus)
    ∨ ∃ s' t', s.internalFlush P flushToDisk = (false, s') ∧ t'.data = t.data ∧ Broken P E s' t' ∧ Ordered s' := by
  have hframe := frame_internalFlush P s flushToDisk
  have hordered : Ordered (s.internalFlush P flushToDisk).2 := by
    rw [Ordered, hframe.cache]
    exact hs.ordered
  rcases internalFlush_spec hs.ready hcalls flushToDisk hE
    with ⟨s', t', heq, hdata, hflushed, hstatus⟩ | ⟨s', t', heq, hdata, hbroken⟩
  . refine .inl ⟨s', t', heq, hdata, ⟨hflushed.ready, ?_, ?_, ?_⟩, hflushed.needWriting, hstatus⟩
    . rwa [heq] at hordered
    . rw [heq] at hframe
      rw [hframe.offset, hframe.size]
      exact hs.inside
    . exact hJ.flush hs.ready hs.kept heq hflushed
  . rw [heq] at hordered
    exact .inr ⟨s', t', heq, hdata, hbroken, hordered⟩

def turns (s : File N) : Nat := s.cache.size + s.needWriting.toNat

theorem evict_spec (hJ : Kept P E J) (fuel : Nat) :
    ∀ {s : File N} {t : Tree}, Live P E J s t → s.outside.CallsSucceed → s.turns ≤ fuel →
      (∀ e ∈ (s.evict P fuel).2.encryptLog, E e) →
      (∃ s' t', s.evict P fuel = (true, s') ∧ t'.data = t.data ∧ Live P E J s' t' ∧ Shrinks s s'
        ∧ s'.fileStatus = s.fileStatus ∧ s.cache.keys.take maxPagesInCache <+: s'.cache.keys)
      ∨ ∃ s' t', s.evict P fuel = (false, s') ∧ t'.data = t.data ∧ Broken P E s' t' ∧ Ordered s'
        ∧ Shrinks s s' ∧ ¬ s.outside.OcallsSucceed := by
  induction fuel with
  | zero =>
    intro s t hs _ hturns _
    have hsize : s.cache.size ≤ maxPagesInCache := by
      simp only [turns] at hturns
      omega
    refine .inl ⟨s, t, by rw [evict, if_pos hsize], rfl, hs, Shrinks.refl s, rfl, ?_⟩
    exact take_prefix _ _
  | succ fuel ih =>
    intro s t hs hcalls hturns hE
    rw [evict] at hE ⊢
    by_cases hsize : s.cache.size ≤ maxPagesInCache
    . rw [if_pos hsize]
      exact .inl ⟨s, t, rfl, rfl, hs, Shrinks.refl s, rfl, take_prefix _ _⟩
    rw [if_neg hsize] at hE ⊢
    have hlinked := hs.ready.holds.linked
    rw [Lru.Cache.size_eq_length_keys] at hsize
    rcases eq_nil_or_concat s.cache.keys with hnil | ⟨ks, key, hks⟩
    . simp [hnil] at hsize
    rw [concat_eq_append] at hks
    rcases hlinked.wf.getLast hks with ⟨a, hlast, hkey⟩
    rw [hlast] at hE ⊢
    dsimp only at hE ⊢
    split
    . next hclean =>
      rw [if_pos hclean] at hE
      rcases hs.evictLast hJ hlast hclean with ⟨hs1, hshrinks, hkeys1, hsize1⟩
      have hturns1 : (s.evictLast a).turns ≤ fuel := by
        have hneed : (s.evictLast a).needWriting = s.needWriting := rfl
        simp only [turns, hneed] at hturns ⊢
        omega
      have htake : s.cache.keys.take maxPagesInCache <+: (s.evictLast a).cache.keys.take maxPagesInCache := by
        rw [hkeys1, hks, dropLast_concat, take_append_of_le_length]
        simp only [hks, length_append, length_singleton] at hsize
        omega
      rcases ih hs1 hcalls hturns1 hE with ⟨s', t', heq, hdata, hs', hshrinks', hstatus, hkept⟩
          | ⟨s', t', heq, hdata, hbroken, hordered, hshrinks', hfails⟩
      . exact .inl ⟨s', t', heq, hdata, hs', hshrinks.trans hshrinks', hstatus, htake.trans hkept⟩
      . exact .inr ⟨s', t', heq, hdata, hbroken, hordered, hshrinks.trans hshrinks', hfails⟩
    next hdirty =>
    rw [if_neg hdirty] at hE
    rcases hlinked.keys key (by simp [hks]) with ⟨i, -, rfl⟩
    have hneed : s.needWriting = true := by
      apply hs.ready.closed.flag
      apply hs.ready.closed.root i
      rw [dirty_of_loc (hlinked.loc_of_cached hkey)]
      exact Bool.not_eq_false _ |>.mp hdirty
    have hlog : ∀ e ∈ (s.internalFlush P false).2.encryptLog, E e := by
      intro e he
      apply hE
      generalize s.internalFlush P false = res at he ⊢
      rcases res with ⟨_ | _, s₁⟩
      . dsimp only at he ⊢
        split
        . exact he
        . exact he
      . exact (grows_evict P fuel s₁).log he
    have hframe := frame_internalFlush P s false
    rcases hs.internalFlush hJ hcalls false hlog
      with ⟨s₁, t1, heq, hdata, hs1, hneed1, hstatus⟩ | ⟨s₁, t1, heq, hdata, hbroken, hordered⟩
    . rw [heq] at hE hframe ⊢
      have hturns1 : s₁.turns ≤ fuel := by
        rw [turns, hframe.cache, hneed1, Bool.toNat_false]
        rw [turns, hneed, Bool.toNat_true] at hturns
        omega
      rcases ih hs1 (hframe.outside ▸ hcalls) hturns1 hE with ⟨s', t', heq', hdata', hs', hshrinks', hstatus', hkept⟩
          | ⟨s', t', heq', hdata', hbroken, hordered, hshrinks', hfails⟩
      . refine .inl ⟨s', t', heq', hdata'.trans hdata, hs',
          (Shrinks.of_frame hframe).trans hshrinks', hstatus'.trans hstatus, ?_⟩
        rw [hframe.cache] at hkept
        exact hkept
      . exact .inr ⟨s', t', heq', hdata'.trans hdata, hbroken, hordered,
          (Shrinks.of_frame hframe).trans hshrinks', hframe.outside ▸ hfails⟩
    . have hfails : ¬ s.outside.OcallsSucceed := by
        intro hocalls
        rcases internalFlush_eq_true ⟨hcalls, hocalls⟩ P false with ⟨s2, heq2, -⟩
        rw [heq] at heq2
        cases heq2
      rw [heq] at hframe ⊢
      have hstatus : s₁.fileStatus ≠ .ok := by
        rcases hbroken with ⟨h, -⟩ | ⟨h, -⟩ <;> simp [h]
      dsimp only
      rw [if_neg hstatus]
      exact .inr ⟨s₁, t1, rfl, hdata, hbroken, hordered, Shrinks.of_frame hframe, hfails⟩

end Evict

section GetDataNode

variable {P : Platform N} {E : Key × N → Prop} {J : File N → Prop} {s : File N} {t : Tree}

theorem length_ancestors_le {offset : Nat} (h : offset < 2 ^ 63) : (atOffset offset).ancestors.length ≤ 9 := by
  apply length_mhtChain_le
  simp only [atOffset, parent, getNodeNumbers, attachedDataNodesCount, nodeSize, childMhtNodesCount]
  omega

variable {s₁ : File N} {a : Addr}

theorem Found.keys_bumpParents (h : Found t s s₁ a) : ∃ rest, rest.Sublist s.cache.keys
      ∧ (∀ x ∈ (atOffset s.offset).ancestors, physicalMhtNode x ∉ rest)
      ∧ (s₁.bumpParents (some a)).cache.keys = ((atOffset s.offset).ancestors.map physicalMhtNode).reverse
          ++ (atOffset s.offset).physical :: rest := by
  rcases h.keys with ⟨ks, hks, hsub⟩
  refine ⟨_, hsub, ?_, ?_⟩
  . intro x hx hmem
    have := (mem_filter.1 hmem).2
    rw [decide_eq_true_eq] at this
    exact this (mem_map_of_mem hx)
  rw [File.keys_bumpParents h.evolves.linked h.cached, hks, filter_cons_of_pos]
  rw [decide_eq_true_eq, mem_map]
  rintro ⟨x, -, hx⟩
  exact mht_ne_atOffset x s.offset (physical_injective hx)

theorem Found.live (hJ : Kept P E J) (hs : Live P E J s t) (h : Found t s s₁ a) :
    Live P E J (s₁.bumpParents (some a)) t := by
  have hevolves : Evolves t s (s₁.bumpParents (some a)) :=
    h.evolves.trans (Evolves.bump h.evolves.linked _)
  apply hs.evolves hJ hevolves
  rcases h.keys_bumpParents with ⟨rest, hsub, hrest, hkeys⟩
  rw [Ordered, hkeys]
  apply pairwise_notParent hs.ordered hsub _ hrest
  have hroot := hs.ready.holds.linked.cached_root
  exact (hs.ready.holds.linked.wf.data?_eq_none_iff _).1 hroot

theorem Found.mem_take (h : Found t s s₁ a) (hbig : s.offset < 2 ^ 63) : (atOffset s.offset).physical
      ∈ (s₁.bumpParents (some a)).cache.keys.take maxPagesInCache := by
  rcases h.keys_bumpParents with ⟨rest, -, -, hkeys⟩
  have hlen := length_ancestors_le hbig
  rw [hkeys, take_append, length_reverse, length_map, mem_append]
  right
  rw [show maxPagesInCache - (atOffset s.offset).ancestors.length
    = (maxPagesInCache - (atOffset s.offset).ancestors.length - 1) + 1 by
      simp only [maxPagesInCache]; omega]
  simp

def ReadsThrough (s : File N) : Prop :=
  ∀ j < s.lookupReads, (∃ m ∈ s.lookupLoads.take j, childMhtNodesCount < m) →
    (∀ k < j, (s.outside.ocall (s.ocalls + k)).error32 eio = none) →
    (s.outside.ocall (s.ocalls + j)).error32 eio = none

instance (s : File N) : Decidable s.ReadsThrough :=
  inferInstanceAs (Decidable (∀ j < s.lookupReads, (∃ m ∈ s.lookupLoads.take j, childMhtNodesCount < m) →
    (∀ k < j, (s.outside.ocall (s.ocalls + k)).error32 eio = none) →
    (s.outside.ocall (s.ocalls + j)).error32 eio = none))

theorem Stops.ordered (hordered : Ordered s) (hthrough : s.ReadsThrough) {ms : List Nat} (h : Stops t s s₁ ms)
    (hms : ms <+: s.lookupLoads) (hlt : ms.length < s.lookupReads)
    (hfails : (s.outside.ocall (s.ocalls + ms.length)).error32 eio ≠ none) : Ordered s₁ := by
  have hlow : ∀ m ∈ ms, m ≤ childMhtNodesCount := by
    intro m hm
    by_contra hhigh
    apply hfails
    apply hthrough _ hlt _ h.served
    rw [← prefix_iff_eq_take.1 hms]
    exact ⟨m, hm, Nat.lt_of_not_le hhigh⟩
  have hroot : (mht 0).physical ∉ s₁.cache.keys :=
    (h.evolves.linked.wf.data?_eq_none_iff _).1 h.evolves.linked.cached_root
  have hnew : ∀ key ∈ (ms.map physicalMhtNode).reverse, ∀ key' ∈ s₁.cache.keys, NotParent key key' := by
    intro key hkey key' hkey' i hi hparent
    rw [mem_reverse, mem_map] at hkey
    rcases hkey with ⟨m, hm, rfl⟩
    have him : i = .mht m := physical_injective hi
    have hzero : i.parent = 0 := by
      have := hlow m hm
      rw [him]
      simp only [parent, childMhtNodesCount] at *
      omega
    rw [hzero] at hparent
    exact hroot (hparent ▸ hkey')
  rw [Ordered]
  have hkeys := h.keys
  rw [hkeys, pairwise_append]
  refine ⟨?_, hordered, ?_⟩
  . apply pairwise_of_forall_mem_list
    intro key hkey key' hkey'
    exact hnew key hkey key' (by rw [hkeys]; exact mem_append_left _ hkey')
  . intro key hkey key' hkey'
    exact hnew key hkey key' (by rw [hkeys]; exact mem_append_right _ hkey')

inductive Lookup (P : Platform N) (E : Key × N → Prop) (J : File N → Prop) (s : File N) (t : Tree) :
    Option Addr × File N → Prop where
  | found {a : Addr} {s' : File N} {t' : Tree} (data : t'.data = t.data) (live : Live P E J s' t')
    (fixed : s'.fixed = s.fixed) (status : s'.fileStatus = s.fileStatus)
    (cached : s'.cached (.atOffset s.offset) = some a) : Lookup P E J s t (some a, s')
  | missed {s' : File N} {t' : Tree} (data : t'.data = t.data) (live : Live P E J s' t')
    (fixed : s'.fixed = s.fixed) (status : s'.fileStatus = s.fileStatus)
    (fails : ¬ s.outside.OcallsSucceed) : Lookup P E J s t (none, s')
  | broken {s' : File N} {t' : Tree} (data : t'.data = t.data) (broken : Broken P E s' t')
    (ordered : Ordered s') (fixed : s'.fixed = s.fixed) (fails : ¬ s.outside.OcallsSucceed) :
    Lookup P E J s t (none, s')
  | forged {s₁ : File N} {fuel : Nat} (status : s₁.fileStatus = .corrupted)
    (outside : s₁.outside = s.outside)
    (bytes : ∃ k, (s.outside.ocall k).error32 eio = none ∧ (s.outside.ocall k).bytes ≠ none) :
    Lookup P E J s t (none, (s₁.evict P fuel).2)

theorem getDataNode_eq (P : Platform N) (hmin : mdUserDataSize ≤ s.offset) {a? : Option Addr}
    (h : s.findDataNode P = (a?, s₁)) :
    s.getDataNode P =
    match (s₁.bumpParents a?).evict P (2 * (s₁.bumpParents a?).cache.size + 2) with
    | (true, s) => (a?, s)
    | (false, s) => (none, s) := by
  rewrite [getDataNode, if_neg (Nat.not_lt.2 hmin), h]
  rfl

theorem turns_le (s : File N) : s.turns ≤ 2 * s.cache.size + 2 := by
  rw [turns]
  have := Bool.toNat_le s.needWriting
  omega

theorem snd_getDataNode (P : Platform N) (hmin : mdUserDataSize ≤ s.offset) {a? : Option Addr}
    (h : s.findDataNode P = (a?, s₁)) :
    (s.getDataNode P).2 =
    ((s₁.bumpParents a?).evict P (2 * (s₁.bumpParents a?).cache.size + 2)).2 := by
  rw [getDataNode_eq P hmin h]
  generalize (s₁.bumpParents a?).evict P (2 * (s₁.bumpParents a?).cache.size + 2) = res
  rcases res with ⟨_ | _, s'⟩ <;> rfl

theorem Found.lookup (hJ : Kept P E J) (hs : Live P E J s t) (hcalls : s.outside.CallsSucceed)
    (hmin : mdUserDataSize ≤ s.offset) (hbig : s.offset < 2 ^ 63)
    (hE : ∀ e ∈ (s.getDataNode P).2.encryptLog, E e) (h : s.findDataNode P = (some a, s₁))
    (hfound : Found t s s₁ a) : Lookup P E J s t (s.getDataNode P) := by
  have hlive := hfound.live hJ hs
  have hevolves : Evolves t s (s₁.bumpParents (some a)) :=
    hfound.evolves.trans (Evolves.bump hfound.evolves.linked _)
  have hstatus : (s₁.bumpParents (some a)).fileStatus = s.fileStatus := by
    rw [bumpParents, bump_eq]
    exact hfound.status
  rw [snd_getDataNode P hmin h] at hE
  rw [getDataNode_eq P hmin h]
  have hcached : (s₁.bumpParents (some a)).cached (.atOffset s.offset) = some a := by
    rw [bumpParents, bump_eq]
    exact (hfound.evolves.linked.wf.getAll_data? _).trans hfound.cached
  have hmem := hfound.mem_take hbig
  have hcalls2 := hevolves.outside ▸ hcalls
  generalize s₁.bumpParents (some a) = s2 at *
  rcases evict_spec hJ _ hlive hcalls2 (turns_le s2) hE with ⟨s', t', heq, hdata, hlive', hshrinks, hstatus', hkeys⟩
      | ⟨s', t', heq, hdata, hbroken, hordered, hshrinks, hfails⟩
  . rw [heq]
    refine .found hdata hlive' (hshrinks.fixed.trans hevolves.fixed) (hstatus'.trans hstatus) ?_
    rcases hlive'.ready.holds.linked.mem_keys_iff.1 (hkeys.subset hmem) with ⟨b, hb⟩
    rw [hshrinks.cached _ _ hb] at hcached
    rwa [← hcached]
  . rw [heq]
    exact .broken hdata hbroken hordered (hshrinks.fixed.trans hevolves.fixed) (hevolves.outside ▸ hfails)

theorem Stops.lookup (hJ : Kept P E J) (hs : Live P E J s t) (hcalls : s.outside.CallsSucceed)
    (hmin : mdUserDataSize ≤ s.offset) (hthrough : s.ReadsThrough)
    (hE : ∀ e ∈ (s.getDataNode P).2.encryptLog, E e) {ms : List Nat} (h : s.findDataNode P = (none, s₁))
    (hstops : Stops t s s₁ ms) (hms : ms <+: s.lookupLoads) (hlt : ms.length < s.lookupReads) :
    Lookup P E J s t (s.getDataNode P) := by
  have hevolves := hstops.evolves
  rcases hstops.fails with ⟨hrefused, hstatus⟩ | ⟨hserved, hbytes, hstatus⟩
  . have hlive := hs.evolves hJ hevolves (hstops.ordered hs.ordered hthrough hms hlt hrefused)
    rw [snd_getDataNode P hmin h] at hE
    rw [getDataNode_eq P hmin h]
    rcases evict_spec hJ _ hlive (hevolves.outside ▸ hcalls) (turns_le s₁) hE
      with ⟨s', t', heq, hdata, hlive', hshrinks, hstatus', -⟩
        | ⟨s', t', heq, hdata, hbroken, hordered, hshrinks, hfails⟩
    . rw [bumpParents, heq]
      exact .missed hdata hlive' (hshrinks.fixed.trans hevolves.fixed) (hstatus'.trans hstatus)
        (fun hocalls => hrefused (hocalls.error32 _ _))
    . rw [bumpParents, heq]
      exact .broken hdata hbroken hordered (hshrinks.fixed.trans hevolves.fixed) (hevolves.outside ▸ hfails)
  . have hnone : s.getDataNode P = (none, (s₁.evict P (2 * s₁.cache.size + 2)).2) := by
      rw [getDataNode_eq P hmin h, bumpParents]
      generalize s₁.evict P (2 * s₁.cache.size + 2) = res
      rcases res with ⟨_ | _, s'⟩ <;> rfl
    rw [hnone]
    exact .forged hstatus hevolves.outside ⟨_, hserved, hbytes⟩

theorem getDataNode_spec [LawfulPlatform P] (hP : P.GcmCorrect) (hJ : Kept P E J)
    (hs : Live P E J s t) (henv : s.outside.Serves P E) (hmin : mdUserDataSize ≤ s.offset)
    (hbig : s.offset < 2 ^ 63) (hno : s.Appends → ∀ i a, s.cached i = some a → s.Has i)
    (hthrough : s.ReadsThrough) (hE : ∀ e ∈ (s.getDataNode P).2.encryptLog, E e) :
    Lookup P E J s t (s.getDataNode P) := by
  rcases findDataNode_spec hP hs.ready.holds henv hmin hs.inside hno
    with ⟨a, s₁, heq, hfound⟩ | ⟨ms, s₁, heq, hstops, hms, hlt⟩
  . exact hfound.lookup hJ hs henv.calls hmin hbig hE heq
  . exact hstops.lookup hJ hs henv.calls hmin hthrough hE heq hms hlt

end GetDataNode

end File
end ProtectedFs
