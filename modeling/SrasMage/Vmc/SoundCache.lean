import SrasMage.Vmc.Branch

/-!
This module contains what the cache of hash tree nodes keeps, and its invariant on an untrusted database.
-/

namespace Vmc

variable {W D R : Type} {P : Outside W D R}

open Merkle TreeCache List

namespace TreeCache

structure All (N : Nat → D → Prop) (L : Nat → Leaf D → Prop) (t : TreeCache D R) : Prop where
  internals : ∀ i c, t.internals i = some c → N i c.node
  leaves : ∀ i c, t.leaves i = some c → L i c.node

variable {N : Nat → D → Prop} {L : Nat → Leaf D → Prop} {t : TreeCache D R}

theorem all_flush : (flushHashTreeCache : TreeCache D R).All N L := by
  constructor <;> (intro _ _ h; cases h)

theorem node_addRef {α : Type} {c c' : CachedNode α} {v : UInt32} (h : c.addRef v = some c') : c'.node = c.node := by
  unfold CachedNode.addRef at h
  split at h
  . cases h
  cases h
  rfl

structure Thinner (t' t : TreeCache D R) : Prop where
  root : t'.root = t.root
  internals : ∀ i c', t'.internals i = some c' → ∃ c, t.internals i = some c ∧ c'.node = c.node
  leaves : ∀ i c', t'.leaves i = some c' → ∃ c, t.leaves i = some c ∧ c'.node = c.node

theorem Thinner.refl (t : TreeCache D R) : Thinner t t :=
  ⟨rfl, fun _ c h => ⟨c, h, rfl⟩, fun _ c h => ⟨c, h, rfl⟩⟩

theorem Thinner.trans {t1 t2 t3 : TreeCache D R} (h : Thinner t1 t2) (h' : Thinner t2 t3) : Thinner t1 t3 := by
  refine ⟨h.root.trans h'.root, fun i c hc => ?_, fun i c hc => ?_⟩
  . obtain ⟨c2, hc2, heq⟩ := h.internals i c hc
    obtain ⟨c3, hc3, heq'⟩ := h'.internals i c2 hc2
    exact ⟨c3, hc3, heq.trans heq'⟩
  obtain ⟨c2, hc2, heq⟩ := h.leaves i c hc
  obtain ⟨c3, hc3, heq'⟩ := h'.leaves i c2 hc2
  exact ⟨c3, hc3, heq.trans heq'⟩

theorem All.thinner {t' : TreeCache D R} (h : t.All N L) (ht : Thinner t' t) : t'.All N L := by
  refine ⟨fun i c hc => ?_, fun i c hc => ?_⟩
  . obtain ⟨c', hc', heq⟩ := ht.internals i c hc
    rw [heq]
    exact h.internals i c' hc'
  obtain ⟨c', hc', heq⟩ := ht.leaves i c hc
  rw [heq]
  exact h.leaves i c' hc'

theorem exists_of_update_bind {α : Type} {f : Nat → Option (CachedNode α)} {i j : Nat} {v : UInt32}
    {c' : CachedNode α} (h : Function.update f i ((f i).bind (·.addRef v)) j = some c') :
    ∃ c, f j = some c ∧ c'.node = c.node := by
  by_cases hj : j = i
  . subst hj
    rw [Function.update_self] at h
    obtain ⟨c, hc, hadd⟩ := Option.bind_eq_some_iff.1 h
    exact ⟨c, hc, node_addRef hadd⟩
  . rw [Function.update_of_ne hj] at h
    exact ⟨c', h, rfl⟩

theorem updateLeafRefCounter_thinner (t : TreeCache D R) (i : Nat) (v : UInt32) :
    Thinner (t.updateLeafRefCounter i v) t :=
  ⟨rfl, fun _ c h => ⟨c, h, rfl⟩, fun _ _ h => exists_of_update_bind h⟩

theorem updateInternalRefCounter_thinner (t : TreeCache D R) (i : Nat) (v : UInt32) :
    Thinner (t.updateInternalRefCounter i v) t :=
  ⟨rfl, fun _ _ h => exists_of_update_bind h, fun _ c h => ⟨c, h, rfl⟩⟩

theorem updateAncestorsRefCounter_thinner (n i : Nat) (v : UInt32) (t : TreeCache D R) :
    Thinner (updateAncestorsRefCounter n i v t) t := by
  induction n generalizing i t with
  | zero => exact .refl t
  | succ n ih =>
    rw [updateAncestorsRefCounter]
    split
    . exact .refl t
    . exact (ih _ _).trans ((updateInternalRefCounter_thinner _ _ _).trans (updateInternalRefCounter_thinner _ _ _))

theorem updateRelatedNodesRefCounter_thinner (t : TreeCache D R) (leafId : Nat) (v : UInt32) :
    Thinner (t.updateRelatedNodesRefCounter leafId v) t :=
  (updateAncestorsRefCounter_thinner _ _ _ _).trans ((updateLeafRefCounter_thinner _ _ _).trans
    (updateLeafRefCounter_thinner _ _ _))

theorem Thinner.setList {t' : TreeCache D R} (h : Thinner t' t) (list : List Nat) :
    Thinner { t' with list := list } t :=
  ⟨h.root, h.internals, h.leaves⟩

theorem evict_thinner (t : TreeCache D R) : Thinner t.evict t := by
  unfold evict
  split
  . exact .refl t
  . exact (updateRelatedNodesRefCounter_thinner _ _ _).setList _

theorem removeFromCachedLeafList_thinner (t : TreeCache D R) (leafId : Nat) :
    Thinner (t.removeFromCachedLeafList leafId) t := by
  unfold removeFromCachedLeafList
  split
  . exact (updateRelatedNodesRefCounter_thinner _ _ _).trans ((Thinner.refl t).setList _)
  . exact .refl t

end TreeCache

open TreeCache

theorem updateCachedLeafList_thinner (leafId : Nat) (t : TreeCache D R) (w : W) :
    Thinner (updateCachedLeafList P leafId t w).2.1 t := by
  unfold updateCachedLeafList
  split
  . exact (Thinner.refl t).setList _
  split
  . exact .refl t
  dsimp only
  split
  . exact ((evict_thinner _).trans (updateRelatedNodesRefCounter_thinner _ _ _)).setList _
  . exact (updateRelatedNodesRefCounter_thinner _ _ _).setList _

variable {t : TreeCache D R} {N : Nat → D → Prop} {i : Nat} {t' : TreeCache D R} {α : Type}
  {L : Nat → Leaf D → Prop} {path : Path D R}

theorem node_cacheHelper {node : Option (CachedNode α)} {data : α} {w w' : W} {c : CachedNode α}
    (h : cacheHelper P node data w = (some c, w')) : c.node = data := by
  unfold cacheHelper at h
  split at h
  . cases h
    rfl
  split at h
  . cases h
  cases h
  rfl

theorem update_eq_some {f : Nat → Option α} {j : Nat} {c c' : α} (h : Function.update f i (some c) j = some c') :
    (j = i ∧ c' = c) ∨ (j ≠ i ∧ f j = some c') := by
  by_cases hj : j = i
  . subst hj
    rw [Function.update_self] at h
    cases h
    exact .inl ⟨rfl, rfl⟩
  . rw [Function.update_of_ne hj] at h
    exact .inr ⟨hj, h⟩

theorem storeInternal_spec {d : D} {w w' : W} (h : storeInternal P i d t w = (some t', w')) :
    t'.root = t.root ∧ t'.leaves = t.leaves ∧
      ∀ j c, t'.internals j = some c → (j = i ∧ c.node = d) ∨ (j ≠ i ∧ t.internals j = some c) := by
  unfold storeInternal at h
  split at h
  . cases h
  next c1 w1 hc1 =>
  cases h
  refine ⟨rfl, rfl, fun j c hc => ?_⟩
  obtain ⟨rfl, rfl⟩ | hc := update_eq_some hc
  . exact .inl ⟨rfl, node_cacheHelper hc1⟩
  . exact .inr hc

theorem storeLeaf_spec {a : Leaf D} {w w' : W} (h : storeLeaf P i a t w = (some t', w')) :
    t'.root = t.root ∧ t'.internals = t.internals ∧
      ∀ j c, t'.leaves j = some c → (j = i ∧ c.node = a) ∨ (j ≠ i ∧ t.leaves j = some c) := by
  unfold storeLeaf at h
  split at h
  . cases h
  next c1 w1 hc1 =>
  cases h
  refine ⟨rfl, rfl, fun j c hc => ?_⟩
  obtain ⟨rfl, rfl⟩ | hc := update_eq_some hc
  . exact .inl ⟨rfl, node_cacheHelper hc1⟩
  . exact .inr hc

theorem andThen_eq_some {result : Option α × W} {f : α → W → Option α × W} {b : α} {w' : W}
    (h : andThen result f = (some b, w')) : ∃ a w, result = (some a, w) ∧ f a w = (some b, w') := by
  unfold andThen at h
  split at h
  . cases h
  . next a w => exact ⟨a, w, rfl, h⟩

def OnLevels (levels : List (Level D)) (i : Nat) : Prop :=
  ∃ l ∈ levels, i = l.ancestorId ∨ i = l.brotherId

theorem storeLevels_spec {levels : List (Level D)} {w w' : W} (h : storeLevels P levels t w = (some t', w'))
    (hlevels : ∀ l ∈ levels, N l.ancestorId l.ancestor ∧ N l.brotherId l.brother)
    (ht : ∀ i c, t.internals i = some c → OnLevels levels i ∨ N i c.node) :
    t'.root = t.root ∧ t'.leaves = t.leaves ∧ ∀ i c, t'.internals i = some c → N i c.node := by
  induction levels generalizing t w with
  | nil =>
    cases h
    refine ⟨rfl, rfl, fun i c hc => (ht i c hc).resolve_left ?_⟩
    rintro ⟨l, hl, _⟩
    cases hl
  | cons l rest ih =>
    rw [storeLevels] at h
    obtain ⟨t2, w2, h2, hrest⟩ := andThen_eq_some h
    obtain ⟨t1, w1, h1, h2⟩ := andThen_eq_some h2
    obtain ⟨hr1, hl1, hi1⟩ := storeInternal_spec h1
    obtain ⟨hr2, hl2, hi2⟩ := storeInternal_spec h2
    obtain ⟨hna, hnb⟩ := hlevels l (List.mem_cons_self ..)
    have ht2 : ∀ i c, t2.internals i = some c → OnLevels rest i ∨ N i c.node := by
      intro i c hc
      obtain ⟨rfl, hd⟩ | ⟨hb, hc⟩ := hi2 i c hc
      . exact .inr (hd ▸ hnb)
      obtain ⟨rfl, hd⟩ | ⟨ha, hc⟩ := hi1 i c hc
      . exact .inr (hd ▸ hna)
      obtain ⟨m, hm, hon⟩ | hn := ht i c hc
      . obtain rfl | hm := List.mem_cons.1 hm
        . exact (hon.elim ha hb).elim
        . exact .inl ⟨m, hm, hon⟩
      . exact .inr hn
    obtain ⟨hr, hl, hi⟩ := ih hrest (fun m hm => hlevels m (List.mem_cons_of_mem _ hm)) ht2
    exact ⟨hr.trans (hr2.trans hr1), hl.trans (hl2.trans hl1), hi⟩

theorem storePath_spec {w w' : W} (h : storePath P path t w = (some t', w'))
    (hlevels : ∀ l ∈ path.levels, N l.ancestorId l.ancestor ∧ N l.brotherId l.brother)
    (hself : L path.selfId path.self) (hbrother : L path.brotherId path.brother)
    (ht : t.All (fun i d => OnLevels path.levels i ∨ N i d) (fun i a => i = path.selfId ∨ i = path.brotherId ∨ L i a)) :
    (∃ c, t'.root = some c ∧ c.node = path.root) ∧ t'.All N L := by
  rw [storePath] at h
  obtain ⟨t3, w3, h3, h4⟩ := andThen_eq_some h
  obtain ⟨t2, w2, h2, h3⟩ := andThen_eq_some h3
  obtain ⟨t1, w1, h1, h2⟩ := andThen_eq_some h2
  unfold storeRoot at h1
  split at h1
  . cases h1
  next c w0 hc =>
  cases h1
  obtain ⟨hr2, hl2, hi2⟩ := storeLevels_spec h2 hlevels ht.internals
  obtain ⟨hr3, hi3, hl3⟩ := storeLeaf_spec h3
  obtain ⟨hr4, hi4, hl4⟩ := storeLeaf_spec h4
  refine ⟨⟨c, by rw [hr4, hr3, hr2], node_cacheHelper hc⟩, ?_, ?_⟩
  . rw [hi4, hi3]
    exact hi2
  intro i c' hc'
  obtain ⟨rfl, ha⟩ | ⟨hb, hc'⟩ := hl4 i c' hc'
  . exact ha ▸ hbrother
  obtain ⟨rfl, ha⟩ | ⟨hs, hc'⟩ := hl3 i c' hc'
  . exact ha ▸ hself
  rw [hl2] at hc'
  exact ((ht.leaves i c' hc').resolve_left hs).resolve_left hb

theorem updateHashTreeCache_spec (op : RpdbOp) {s : State W D R}
    (hlevels : ∀ l ∈ path.levels, N l.ancestorId l.ancestor ∧ N l.brotherId l.brother)
    (hself : L path.selfId path.self) (hbrother : L path.brotherId path.brother)
    (ht : s.tree.All (fun i d => OnLevels path.levels i ∨ N i d)
      (fun i a => i = path.selfId ∨ i = path.brotherId ∨ L i a)) :
    ∃ t w, updateHashTreeCache P op path s = { s with tree := t, world := w } ∧ t.All N L ∧
      (t = flushHashTreeCache ∨ ∃ c, t.root = some c ∧ c.node = path.root) := by
  unfold updateHashTreeCache
  split
  . exact ⟨_, _, rfl, all_flush, .inl rfl⟩
  next t w hstore =>
  obtain ⟨⟨c, hc, hroot⟩, hall⟩ := storePath_spec hstore hlevels hself hbrother ht
  split
  . have hthin := updateCachedLeafList_thinner (P := P) path.selfId t w
    split
    . next t' w' hlist =>
      rw [hlist] at hthin
      exact ⟨_, _, rfl, hall.thinner hthin, .inr ⟨c, hthin.root.trans hc, hroot⟩⟩
    . exact ⟨_, _, rfl, all_flush, .inl rfl⟩
  . have hthin := removeFromCachedLeafList_thinner t path.selfId
    exact ⟨_, _, rfl, hall.thinner hthin, .inr ⟨c, hthin.root.trans hc, hroot⟩⟩

theorem readLevels_spec (ht : ∀ i c, t.internals i = some c → N i c.node) {levels levels' : List (Level D)}
    (h : readLevels t levels = some levels') (hids : LevelIds i levels) :
    LevelIds i levels' ∧ ∀ l ∈ levels', N l.ancestorId l.ancestor ∧ N l.brotherId l.brother := by
  induction levels generalizing i levels' with
  | nil =>
    cases h
    exact ⟨trivial, fun _ hl => by cases hl⟩
  | cons l rest ih =>
    rw [readLevels] at h
    split at h
    . next a b ha hb =>
      obtain ⟨rest', hrest, rfl⟩ := Option.map_eq_some_iff.1 h
      obtain ⟨hids', hall⟩ := ih hrest hids.2.2
      refine ⟨⟨hids.1, hids.2.1, hids'⟩, fun m hm => ?_⟩
      obtain rfl | hm := List.mem_cons.1 hm
      . exact ⟨ht _ _ ha, ht _ _ hb⟩
      . exact hall m hm
    . cases h

theorem readPath_spec (ht : t.All N L) {path' : Path D R} {root : R} {leafId : Nat} (hids : path.HasIds leafId)
    (h : readPath t path root = some path') :
    path'.HasIds leafId ∧ path'.root = root ∧
      (∀ l ∈ path'.levels, N l.ancestorId l.ancestor ∧ N l.brotherId l.brother) ∧
      L path'.selfId path'.self ∧ L path'.brotherId path'.brother := by
  unfold readPath at h
  split at h
  . next levels self brother hlevels hself hbrother =>
    cases h
    obtain ⟨hids', hall⟩ := readLevels_spec ht.internals hlevels hids.ids
    exact ⟨⟨hids.selfId, hids.brotherId, hids'⟩, rfl, hall, ht.leaves _ _ hself, ht.leaves _ _ hbrother⟩
  . cases h

theorem apart_of_not_onLevels {leafId i : Nat} (hid : IsLeafId leafId) {path : Path D R}
    (hp : path.HasIds leafId) (hi : 2 ≤ i) (hbase : i < initLeafNodeIdBase)
    (hon : ¬ OnLevels path.levels i) : Apart (leafId / 2) i := by
  have hhalf := hid.half
  unfold initLeafNodeIdBase at hbase
  intro n
  refine ⟨fun heq => ?_, fun heq => ?_⟩
  . by_cases hn : n < path.levels.length
    . exact hon ⟨_, get_mem path.levels ⟨n, hn⟩, .inl (by rw [(hp.ids.get n hn).1, heq])⟩
    have htop := hid.top
    rw [path.length_levels] at hn
    obtain ⟨m, rfl⟩ : ∃ m, n = initInternalNodeNr + m := ⟨n - initInternalNodeNr, by omega⟩
    rw [Nat.pow_add, ← Nat.div_div_eq_div_mul, htop] at heq
    have : 1 / 2 ^ m ≤ 1 := Nat.div_le_self _ _
    omega
  cases n with
  | zero =>
    have h0 : 0 < path.levels.length := by
      rw [path.length_levels]
      decide
    refine hon ⟨_, get_mem path.levels ⟨0, h0⟩, .inl ?_⟩
    rw [(hp.ids.get 0 h0).1]
    simpa using heq
  | succ n =>
    rw [Nat.pow_succ', ← Nat.div_div_eq_div_mul] at heq
    have : i / 2 / 2 ^ n ≤ i / 2 := Nat.div_le_self _ _
    omega

theorem apart_of_half_ne {leafId k : Nat} (hid : IsLeafId leafId) (hk : IsLeafId k)
    (hne : k / 2 ≠ leafId / 2) : Apart (leafId / 2) (k / 2) := by
  have hhalf := hid.half
  have hhalf' := hk.half
  have hdiv : ∀ i n, i / 2 ^ (n + 1) ≤ i / 2 := by
    intro i n
    rw [Nat.pow_succ', ← Nat.div_div_eq_div_mul]
    exact Nat.div_le_self _ _
  intro n
  cases n with
  | zero => simpa using ⟨Ne.symm hne, hne⟩
  | succ n =>
    have h1 := hdiv (leafId / 2) n
    have h2 := hdiv (k / 2) n
    exact ⟨by omega, by omega⟩

structure Rebased (h : Hashes (Leaf D) D (BitVec 128 × UInt32) R) (root root' : R) (leafId : Nat)
    (path path' : Path D R) : Prop where
  before : ∃ e, path.Opens h root e leafId
  after : ∃ e, path'.Opens h root' e leafId
  brother : path'.brother = path.brother
  brothers : path'.levels.map Level.brother = path.levels.map Level.brother

namespace Rebased

variable {h : Hashes (Leaf D) D (BitVec 128 × UInt32) R} {root root' : R} {leafId : Nat}
  {path path' : Path D R}

section

variable (hr : Rebased h root root' leafId path path')
include hr

theorem symm : Rebased h root' root leafId path' path :=
  ⟨hr.after, hr.before, hr.brother.symm, hr.brothers.symm⟩

theorem map_snd : (path.levels.map Level.pair).map Prod.snd = (path'.levels.map Level.pair).map Prod.snd := by
  rw [map_map, map_map]
  exact hr.brothers.symm

theorem nodeAt (hh : CollisionFree h)
    (hid : IsLeafId leafId) {i : Nat} {d : D} (hd : NodeAt h root i d) (hbase : i < initLeafNodeIdBase)
    (hon : ¬ OnLevels path'.levels i) : NodeAt h root' i d := by
  obtain ⟨e, hb⟩ := hr.before
  obtain ⟨e', ha⟩ := hr.after
  have hapart := apart_of_not_onLevels hid ha.hasIds hd.two_le hbase hon
  exact ha.climbs.nodeAt_of_apart hh hb.climbs hr.map_snd hd hapart

theorem leafAt (hh : CollisionFree h)
    (hid : IsLeafId leafId) {k : Nat} (hk : IsLeafId k) (hne : k ≠ leafId) {a : Leaf D}
    (ha : LeafAt h root k a) : LeafAt h root' k a := by
  obtain ⟨e, hbefore⟩ := hr.before
  obtain ⟨e', hafter⟩ := hr.after
  by_cases hhalf : k / 2 = leafId / 2
  . obtain rfl := eq_sibling hhalf hne
    have hbrother := (hbefore.leafAt hid).2
    rw [ha.unique hh hbrother, ← hr.brother]
    exact (hafter.leafAt hid).2
  . exact hafter.climbs.leafAt_of_apart hh hbefore.climbs hr.map_snd ha (apart_of_half_ne hid hk hhalf)

end

end Rebased

structure Replaced (h : Hashes (Leaf D) D (BitVec 128 × UInt32) R) (root root' : R) (leafId : Nat)
    (leaf : Leaf D) : Prop where
  self : LeafAt h root' leafId leaf
  others : ∀ k, IsLeafId k → k ≠ leafId → ∀ a, LeafAt h root' k a ↔ LeafAt h root k a

theorem Rebased.replaced {h : Hashes (Leaf D) D (BitVec 128 × UInt32) R} {root root' : R} {leafId : Nat}
    {path path' : Path D R} (hr : Rebased h root root' leafId path path') (hh : CollisionFree h)
    (hid : IsLeafId leafId) : Replaced h root root' leafId path'.self := by
  obtain ⟨e', ha⟩ := hr.after
  exact ⟨(ha.leafAt hid).1, fun k hk hne a =>
    ⟨fun h => hr.symm.leafAt hh hid hk hne h, fun h => hr.leafAt hh hid hk hne h⟩⟩

theorem opens_of_nodeAt {h : Hashes (Leaf D) D (BitVec 128 × UInt32) R} (hh : CollisionFree h) {root : R}
    {leafId : Nat} (hid : IsLeafId leafId) {path : Path D R} (hp : path.HasIds leafId)
    (hlevels : ∀ l ∈ path.levels, NodeAt h root l.ancestorId l.ancestor ∧ NodeAt h root l.brotherId l.brother)
    (hself : LeafAt h root leafId path.self)
    (hbrother : LeafAt h root (Merkle.sibling leafId) path.brother) :
    ∃ e, path.Opens h root e leafId := by
  have hlen := path.length_levels
  have hne : path.levels.map Level.pair ≠ [] := by
    intro hnil
    rw [map_eq_nil_iff.1 hnil] at hlen
    cases hlen
  obtain ⟨e, hc⟩ : ∃ e, Climbs h root e (leafId / 2) (path.levels.map Level.pair) := by
    refine Climbs.of_nodeAt hh hne ?_ fun n hn => ?_
    . rw [length_map, hlen]
      exact hid.top
    have hn' : n < path.levels.length := by simpa using hn
    have hat := hlevels _ (get_mem path.levels ⟨n, hn'⟩)
    rw [(hp.ids.get n hn').1, (hp.ids.get n hn').2] at hat
    simpa [Level.pair] using hat
  refine ⟨e, hp, hc, fun l hl => ?_⟩
  obtain ⟨b, hb⟩ := hself
  have hl' : l ∈ path.levels := mem_of_mem_head? hl
  have hla : l.ancestorId = leafId / 2 := by
    have hids := hp.ids
    generalize path.levels = levels at hl hids
    cases levels with
    | nil => cases hl
    | cons m rest =>
      cases hl
      exact hids.1
  have hanc := (hlevels l hl').1
  rw [hla] at hanc
  have hid2 : 2 ≤ leafId := by
    have := hid.half
    omega
  obtain rfl := (LeafAt.pair hid2 hb).2.unique hh hbrother
  exact hanc.unique hh hb

def TreeCache.Sound (h : Hashes (Leaf D) D (BitVec 128 × UInt32) R) (t : TreeCache D R) : Prop :=
  t.All (fun i d => i < initLeafNodeIdBase ∧ ∃ c ∈ t.root, NodeAt h c.node i d)
    (fun i a => IsLeafId i ∧ ∃ c ∈ t.root, LeafAt h c.node i a)

def TreeCache.RootIs (t : TreeCache D R) (root : R) : Prop := ∀ c ∈ t.root, c.node = root

section

variable {h : Hashes (Leaf D) D (BitVec 128 × UInt32) R} {t t' : TreeCache D R} {root : R}

theorem sound_flush : (flushHashTreeCache : TreeCache D R).Sound h := all_flush

theorem TreeCache.Sound.thinner (hs : t.Sound h) (ht : Thinner t' t) : t'.Sound h := by
  unfold TreeCache.Sound
  rw [ht.root]
  exact All.thinner hs ht

theorem Path.HasIds.lt_base {leafId : Nat} (hid : IsLeafId leafId) {path : Path D R}
    (hp : path.HasIds leafId) {l : Level D} (hl : l ∈ path.levels) :
    l.ancestorId < initLeafNodeIdBase ∧ l.brotherId < initLeafNodeIdBase := by
  have hhalf := hid.half
  obtain ⟨n, hn, -, ha, hb⟩ := hp.ids.exists_get hl
  have hle : leafId / 2 / 2 ^ n ≤ leafId / 2 := Nat.div_le_self _ _
  rw [ha, hb]
  unfold initLeafNodeIdBase Merkle.sibling
  refine ⟨by omega, ?_⟩
  split <;> omega

theorem sound_updateHashTreeCache (hh : CollisionFree h) {leafId : Nat} (hid : IsLeafId leafId)
    {path path' : Path D R} (op : RpdbOp) {s : State W D R} (hs : s.tree.Sound h)
    (hroot : s.tree.RootIs root) {root' : R} (hr : Rebased h root root' leafId path path')
    (hroot' : path'.root = root') :
    ∃ t w, updateHashTreeCache P op path' s = { s with tree := t, world := w } ∧ t.Sound h := by
  subst hroot'
  obtain ⟨e', ha⟩ := hr.after
  have hleaf := ha.leafAt hid
  obtain ⟨t, w, heq, hall, hc⟩ := updateHashTreeCache_spec (P := P) (s := s)
    (N := fun i d => i < initLeafNodeIdBase ∧ NodeAt h path'.root i d)
    (L := fun i a => IsLeafId i ∧ LeafAt h path'.root i a) op
    (fun l hl => ⟨⟨(ha.hasIds.lt_base hid hl).1, (ha.nodeAt hl).1⟩, ⟨(ha.hasIds.lt_base hid hl).2, (ha.nodeAt hl).2⟩⟩)
    (by rw [ha.hasIds.selfId]; exact ⟨hid, hleaf.1⟩)
    (by rw [ha.hasIds.brotherId]; exact ⟨hid.sibling, hleaf.2⟩)
    (by
      refine ⟨fun i c hc => ?_, fun i c hc => ?_⟩
      . obtain ⟨hbase, r, hr', hd⟩ := hs.internals i c hc
        rw [hroot r hr'] at hd
        by_cases hon : OnLevels path'.levels i
        . exact .inl hon
        . exact .inr ⟨hbase, hr.nodeAt hh hid hd hbase hon⟩
      obtain ⟨hi, r, hr', hd⟩ := hs.leaves i c hc
      rw [hroot r hr'] at hd
      by_cases hne : i = leafId
      . exact .inl (by rw [ha.hasIds.selfId, hne])
      . exact .inr (.inr ⟨hi, hr.leafAt hh hid hi hne hd⟩))
  refine ⟨t, w, heq, ?_⟩
  obtain rfl | ⟨c, hc, hnode⟩ := hc
  . exact sound_flush
  refine ⟨fun i d hd => ?_, fun i d hd => ?_⟩
  . obtain ⟨hbase, hat⟩ := hall.internals i d hd
    exact ⟨hbase, c, hc, by rwa [hnode]⟩
  obtain ⟨hi, hat⟩ := hall.leaves i d hd
  exact ⟨hi, c, hc, by rwa [hnode]⟩

end

theorem readHashTreeCache_spec [DecidableEq R] (hh : CollisionFree P.hashes) (op : RpdbOp) {leafId : Nat}
    (hid : IsLeafId leafId) (root : R) {s : State W D R} (hs : s.tree.Sound P.hashes) :
    ∃ t w, (readHashTreeCache P op (setRelatedNodesIds leafId P.zeroPath) root s).2 = { s with tree := t, world := w } ∧
      t.Sound P.hashes ∧ t.RootIs root ∧
      ∀ path ∈ (readHashTreeCache P op (setRelatedNodesIds leafId P.zeroPath) root s).1,
        ∃ e, path.Opens P.hashes root e leafId := by
  have hflush : (flushHashTreeCache : TreeCache D R).RootIs root := by
    intro c hc
    cases hc
  unfold readHashTreeCache
  split
  . next hnone =>
    refine ⟨s.tree, s.world, rfl, hs, ?_, fun _ h => by cases h⟩
    intro c hc
    rw [hnone] at hc
    cases hc
  next c hc =>
  split
  . exact ⟨_, _, rfl, sound_flush, hflush, fun _ h => by cases h⟩
  next heq =>
  have hroot : s.tree.RootIs root := by
    intro c' hc'
    rw [hc] at hc'
    cases hc'
    exact not_not.1 heq
  split
  . exact ⟨s.tree, s.world, rfl, hs, hroot, fun _ h => by cases h⟩
  next path hpath =>
  have hall : s.tree.All (fun i d => NodeAt P.hashes root i d) (fun i a => LeafAt P.hashes root i a) := by
    refine ⟨fun i d hd => ?_, fun i a ha => ?_⟩
    . obtain ⟨-, c', hc', hat⟩ := hs.internals i d hd
      rwa [hroot c' hc'] at hat
    obtain ⟨-, c', hc', hat⟩ := hs.leaves i a ha
    rwa [hroot c' hc'] at hat
  obtain ⟨hids, -, hlevels, hself, hbrother⟩ :=
    readPath_spec hall (hasIds_setRelatedNodesIds hid P.zeroPath) hpath
  rw [hids.selfId] at hself
  rw [hids.brotherId] at hbrother
  have hopens := opens_of_nodeAt hh hid hids hlevels hself hbrother
  split
  . have hthin := updateCachedLeafList_thinner (P := P) path.selfId s.tree s.world
    split
    . next t w hlist =>
      rw [hlist] at hthin
      refine ⟨t, w, rfl, hs.thinner hthin, ?_, ?_⟩
      . unfold TreeCache.RootIs
        rw [hthin.root]
        exact hroot
      . rintro _ ⟨⟩
        exact hopens
    . exact ⟨_, _, rfl, sound_flush, hflush, fun _ h => by cases h⟩
  . refine ⟨s.tree, s.world, rfl, hs, hroot, ?_⟩
    rintro _ ⟨⟩
    exact hopens

end Vmc
