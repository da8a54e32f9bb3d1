import SrasMage.Vmc.Rpdb
import Mathlib.Data.List.Chain

/-!
This module contains what the functions on a branch of the hash tree establish.
-/

namespace Vmc

open Merkle List

variable {W D R : Type} {P : Outside W D R}

def Level.pair (l : Level D) : D × D := (l.ancestor, l.brother)

def LevelIds : Nat → List (Level D) → Prop
  | _, [] => True
  | i, l :: rest => l.ancestorId = i ∧ l.brotherId = sibling i ∧ LevelIds (i / 2) rest

theorem parent_eq (i : Nat) : parent i = i / 2 := by
  unfold parent
  omega

variable {i : Nat} {levels : List (Level D)}

theorem levelIds_setAncestorsIds (hi : i / 2 ^ levels.length = 1) : LevelIds i (setAncestorsIds i levels) := by
  induction levels generalizing i with
  | nil => trivial
  | cons l rest ih =>
    rw [length_cons, Nat.pow_succ', ← Nat.div_div_eq_div_mul] at hi
    have hne : i ≠ 1 := by
      rintro rfl
      simp at hi
    rw [setAncestorsIds, if_neg hne, parent_eq]
    exact ⟨rfl, rfl, ih hi⟩

theorem LevelIds.get (h : LevelIds i levels) (n : Nat) (hn : n < levels.length) :
    (levels.get ⟨n, hn⟩).ancestorId = i / 2 ^ n ∧ (levels.get ⟨n, hn⟩).brotherId = sibling (i / 2 ^ n) := by
  induction levels generalizing i n with
  | nil => simp at hn
  | cons l rest ih =>
    cases n with
    | zero => simpa using ⟨h.1, h.2.1⟩
    | succ n =>
      have := ih h.2.2 n (by simpa using hn)
      rwa [Nat.div_div_eq_div_mul, ← Nat.pow_succ'] at this

theorem LevelIds.exists_get (h : LevelIds i levels) {l : Level D} (hl : l ∈ levels) :
    ∃ n, ∃ hn : n < levels.length, levels.get ⟨n, hn⟩ = l ∧
      l.ancestorId = i / 2 ^ n ∧ l.brotherId = sibling (i / 2 ^ n) := by
  obtain ⟨⟨n, hn⟩, rfl⟩ := mem_iff_get.1 hl
  exact ⟨n, hn, rfl, h.get n hn⟩

def IsLeafId (leafId : Nat) : Prop := initLeafNodeIdBase ≤ leafId ∧ leafId ≤ initMaxLeafNodeId

theorem IsLeafId.half {leafId : Nat} (h : IsLeafId leafId) : 4096 ≤ leafId / 2 ∧ leafId / 2 < 8192 := by
  unfold IsLeafId initLeafNodeIdBase initMaxLeafNodeId at h
  omega

theorem IsLeafId.top {leafId : Nat} (h : IsLeafId leafId) : leafId / 2 / 2 ^ initInternalNodeNr = 1 := by
  have := h.half
  have hp : 2 ^ initInternalNodeNr = 4096 := rfl
  rw [hp]
  omega

theorem IsLeafId.sibling {leafId : Nat} (h : IsLeafId leafId) : IsLeafId (sibling leafId) := by
  unfold IsLeafId initLeafNodeIdBase initMaxLeafNodeId at *
  unfold Merkle.sibling
  split <;> omega

structure Path.HasIds (leafId : Nat) (path : Path D R) : Prop where
  selfId : path.selfId = leafId
  brotherId : path.brotherId = sibling leafId
  ids : LevelIds (leafId / 2) path.levels

theorem hasIds_setRelatedNodesIds {leafId : Nat} (hid : IsLeafId leafId) (cache : Path D R) :
    (setRelatedNodesIds leafId cache).HasIds leafId := by
  refine ⟨rfl, rfl, ?_⟩
  show LevelIds (leafId / 2) (setAncestorsIds (parent leafId) cache.levels)
  rw [parent_eq]
  apply levelIds_setAncestorsIds
  rw [cache.length_levels]
  exact hid.top

structure Path.Opens (h : Hashes (Leaf D) D (BitVec 128 × UInt32) R) (root : R)
    (e : BitVec 128 × UInt32) (leafId : Nat) (path : Path D R) : Prop where
  hasIds : path.HasIds leafId
  climbs : Climbs h root e (leafId / 2) (path.levels.map Level.pair)
  leaf : ∀ l ∈ path.levels.head?,
    l.ancestor = h.leaf (order leafId path.self path.brother).1 (order leafId path.self path.brother).2

namespace Path.Opens

variable {h : Hashes (Leaf D) D (BitVec 128 × UInt32) R} {root : R} {e : BitVec 128 × UInt32}
  {leafId : Nat} {path : Path D R}

theorem leafAt (ho : path.Opens h root e leafId) (hid : IsLeafId leafId) :
    LeafAt h root leafId path.self ∧ LeafAt h root (Merkle.sibling leafId) path.brother := by
  have hlen := path.length_levels
  have hc := ho.climbs
  have hleaf := ho.leaf
  generalize path.levels = levels at hlen hc hleaf
  cases levels with
  | nil => cases hlen
  | cons l rest =>
    have hhead := (Climbs.head hc).1
    rw [hleaf l rfl] at hhead
    refine LeafAt.pair ?_ hhead
    unfold IsLeafId initLeafNodeIdBase at hid
    omega

theorem nodeAt (ho : path.Opens h root e leafId) {l : Level D} (hl : l ∈ path.levels) :
    NodeAt h root l.ancestorId l.ancestor ∧ NodeAt h root l.brotherId l.brother := by
  obtain ⟨n, hn, rfl, ha, hb⟩ := ho.hasIds.ids.exists_get hl
  have := ho.climbs.nodeAt n (by simpa using hn)
  rw [ha, hb]
  simpa [Level.pair] using this

end Path.Opens

def HashesTo (P : Outside W D R) (upper lower : Level D) : Prop :=
  P.hashes.node (order lower.ancestorId lower.ancestor lower.brother).1
    (order lower.ancestorId lower.ancestor lower.brother).2 = upper.ancestor

theorem climbs_of_isChain {top : Level D} {root : R} {e : BitVec 128 × UInt32} (hids : LevelIds i levels)
    (hi : i / 2 ^ levels.length = 1) (hchain : levels.IsChain fun lower upper => HashesTo P upper lower)
    (htop : levels.getLast? = some top)
    (hroot : P.hashes.root e (order top.ancestorId top.ancestor top.brother).1
      (order top.ancestorId top.ancestor top.brother).2 = root) :
    Climbs P.hashes root e i (levels.map Level.pair) := by
  induction levels generalizing i with
  | nil => cases htop
  | cons l rest ih =>
    cases rest with
    | nil =>
      obtain rfl : l = top := by simpa using htop
      rw [hids.1] at hroot
      exact ⟨by simpa using hi, hroot⟩
    | cons l' rest =>
      rw [length_cons, Nat.pow_succ', ← Nat.div_div_eq_div_mul] at hi
      have hup := ih hids.2.2 hi (isChain_cons_cons.1 hchain).2 (by simpa using htop)
      have hl : HashesTo P l' l := (isChain_cons_cons.1 hchain).1
      unfold HashesTo at hl
      rw [hids.1] at hl
      have hi2 : 2 ≤ i := by
        have := (Climbs.head hup).1.two_le
        omega
      exact ⟨hi2, hl.symm, hup⟩

section

variable [DecidableEq D]

theorem verifyInternal_isChain {upper : Level D} {below : List (Level D)} {w w' : W} {n : Nat}
    (h : verifyInternal P upper below w = ((.success, n), w')) :
    (upper :: below).IsChain (HashesTo P) := by
  induction below generalizing upper w with
  | nil => exact .singleton _
  | cons lower rest ih =>
    rw [verifyInternal] at h
    split at h
    . cases h
    split at h
    . cases h
    . next heq => exact isChain_cons_cons.2 ⟨not_not.1 heq, ih h⟩

theorem verifyLeaf_head {cache : Path D R} {w : W} {n : Nat}
    (h : (verifyLeaf P cache w).1 = (.success, n)) {l : Level D} (hl : l ∈ cache.levels.head?) :
    l.ancestor = P.hashes.leaf (order cache.selfId cache.self cache.brother).1
      (order cache.selfId cache.self cache.brother).2 := by
  rw [verifyLeaf] at h
  split at h
  . cases h
  split at h
  . cases h
  next l' rest hlevels =>
  rw [hlevels] at hl
  cases hl
  split at h
  . cases h
  . next heq => exact (not_not.1 heq).symm

end

theorem hashRoot_cases (P : Outside W D R) (s : State W D R) (children : D × D) :
    ∃ w, (hashRoot P s children).2 = { s with world := w } ∧ ∀ root ∈ (hashRoot P s children).1,
        root = P.hashes.root (P.pairingNonce, s.cachedRpdata.epoch) children.1 children.2 := by
  unfold hashRoot
  split
  . exact ⟨_, rfl, fun _ h => by cases h⟩
  split
  . exact ⟨_, rfl, fun _ h => by cases h⟩
  next epoch hepoch =>
  split
  . exact ⟨_, rfl, fun _ h => by cases h⟩
  refine ⟨_, rfl, ?_⟩
  rintro root ⟨⟩
  unfold getCachedRpepoch at hepoch
  split at hepoch
  . cases hepoch
    rfl
  . cases hepoch

section

variable [DecidableEq D] [DecidableEq R]

theorem verifyRelatedNodesOfLeaf_world (cache : Path D R) (s : State W D R) :
    ∃ w, (verifyRelatedNodesOfLeaf P cache s).2 = { s with world := w } := by
  unfold verifyRelatedNodesOfLeaf
  split
  . exact ⟨_, rfl⟩
  next top below _ =>
  split
  . exact ⟨_, rfl⟩
  obtain ⟨w, hw, _⟩ := hashRoot_cases P s (order top.ancestorId top.ancestor top.brother)
  generalize hashRoot P s (order top.ancestorId top.ancestor top.brother) = res at hw ⊢
  rcases res with ⟨_ | rootHash, s1⟩
  . exact ⟨w, hw⟩
  obtain rfl : s1 = { s with world := w } := hw
  dsimp only
  split
  . exact ⟨w, rfl⟩
  . split <;> exact ⟨_, rfl⟩

theorem opens_of_verify {leafId : Nat} (hid : IsLeafId leafId) {cache : Path D R} {s s' : State W D R} {n : Nat}
    (h : verifyRelatedNodesOfLeaf P (setRelatedNodesIds leafId cache) s = ((.success, n), s')) :
    (setRelatedNodesIds leafId cache).Opens P.hashes s.cachedRpdata.roothash
      (P.pairingNonce, s.cachedRpdata.epoch) leafId := by
  have hlen := (setRelatedNodesIds leafId cache).length_levels
  have hids := hasIds_setRelatedNodesIds hid cache
  unfold verifyRelatedNodesOfLeaf at h
  split at h
  . cases h
  next top below hrev =>
  split at h
  . cases h
  next rpdataRoothash hcached =>
  have hr : rpdataRoothash = s.cachedRpdata.roothash := by
    unfold getCachedRoothash at hcached
    split at hcached
    . cases hcached
      rfl
    . cases hcached
  obtain ⟨w, hw, hroot⟩ := hashRoot_cases P s (order top.ancestorId top.ancestor top.brother)
  generalize hashRoot P s (order top.ancestorId top.ancestor top.brother) = res at hw hroot h
  rcases res with ⟨_ | rootHash, s1⟩
  . cases h
  have heq := hroot rootHash rfl
  dsimp only at h
  split at h
  . cases h
  next hne =>
  split at h
  . next hint =>
    have hchain := isChain_reverse.1 (hrev ▸ verifyInternal_isChain hint)
    have hlast : (setRelatedNodesIds leafId cache).levels.getLast? = some top := by
      rw [← head?_reverse, hrev]
      rfl
    refine ⟨hids, ?_, fun l hl => ?_⟩
    . refine climbs_of_isChain hids.ids ?_ hchain hlast ?_
      . rw [hlen]
        exact hid.top
      rw [← heq, ← hr]
      exact not_not.1 hne
    . exact verifyLeaf_head (congrArg Prod.fst h) hl
  . next hno hint =>
    cases h
    exact absurd rfl (hno _)

end

theorem rehash_climbs {levels' : List (Level D)} {hash : D} {w w' : W} {top : D × D} {e : BitVec 128 × UInt32}
    (h : rehash P levels hash w = (some (levels', some top), w')) (hids : LevelIds i levels)
    (hi : i / 2 ^ levels.length = 1) :
    LevelIds i levels' ∧ Climbs P.hashes (P.hashes.root e top.1 top.2) e i (levels'.map Level.pair) ∧
      levels'.map Level.brother = levels.map Level.brother ∧
      ∀ l ∈ levels'.head?, l.ancestor = hash := by
  induction levels generalizing i hash w levels' with
  | nil => cases h
  | cons l rest ih =>
    cases rest with
    | nil =>
      cases h
      refine ⟨hids, ⟨by simpa using hi, ?_⟩, rfl, fun _ hl => by cases hl; rfl⟩
      rw [hids.1]
    | cons l' rest =>
      rw [length_cons, Nat.pow_succ', ← Nat.div_div_eq_div_mul] at hi
      rw [rehash] at h
      split at h
      . cases h
      split at h
      . cases h
      next levels1 top1 w2 hrest =>
      cases h
      obtain ⟨hids1, hc, hb, hhead⟩ := ih hrest hids.2.2 hi
      refine ⟨⟨hids.1, hids.2.1, hids1⟩, ?_, ?_, fun _ hl => by cases hl; rfl⟩
      . cases levels1 with
        | nil => exact hc.elim
        | cons m levels1 =>
          have hm := hhead m rfl
          rw [hids.1] at hm
          have hi2 : 2 ≤ i := by
            have := (Climbs.head hc).1.two_le
            omega
          exact ⟨hi2, hm, hc⟩
      . rw [map_cons, hb]
        rfl

theorem updateRelatedNodesOfLeaf_spec {leafId : Nat} (hid : IsLeafId leafId) {cache : Path D R}
    (hc : cache.HasIds leafId) (op : LeafnodeFlagOp) (s : State W D R) :
    ∃ w, (updateRelatedNodesOfLeaf P cache op s).2 = { s with world := w } ∧
      ∀ path ∈ (updateRelatedNodesOfLeaf P cache op s).1,
        path.Opens P.hashes path.root (P.pairingNonce, s.cachedRpdata.epoch) leafId ∧
        path.self = applyFlag cache.self op ∧ path.brother = cache.brother ∧
        path.levels.map Level.brother = cache.levels.map Level.brother := by
  unfold updateRelatedNodesOfLeaf
  dsimp only
  split
  . exact ⟨_, rfl, fun _ h => by cases h⟩
  split
  . exact ⟨_, rfl, fun _ h => by cases h⟩
  . exact ⟨_, rfl, fun _ h => by cases h⟩
  next levels top w hre =>
  obtain ⟨w', hw, hroot⟩ := hashRoot_cases P { s with world := w } top
  generalize hashRoot P { s with world := w } top = res at hw hroot ⊢
  rcases res with ⟨_ | root, s1⟩
  . exact ⟨w', hw, fun _ h => by cases h⟩
  refine ⟨w', hw, ?_⟩
  rintro path ⟨⟩
  have htop : leafId / 2 / 2 ^ cache.levels.length = 1 := by
    rw [cache.length_levels]
    exact hid.top
  obtain ⟨hids, hclimbs, hb, hhead⟩ := rehash_climbs hre hc.ids htop
  refine ⟨⟨⟨hc.selfId, hc.brotherId, hids⟩, ?_, ?_⟩, rfl, rfl, hb⟩
  . rw [show root = _ from hroot root rfl]
    exact hclimbs
  rw [hc.selfId] at hhead
  exact hhead

end Vmc
