import SrasMage.Vmc.Branch
import Mathlib.Data.List.Nodup
import Mathlib.Data.List.Perm.Basic
import Mathlib.Data.List.Sort

/-!
This module contains the branches that are read from and written to the table of the nodes.
-/

namespace Vmc

open Merkle Nat List Function

namespace Sqlite

def internalNodeSize : Nat := 32
def leafNodeSize : Nat := 1 + 13 + 4 + 2 + 16 + 32 + 2
def initTotalNodeNumberForReading : Nat := (initMaxHashTreeLayer - 2) + (initMaxHashTreeLayer - 1) + 1

abbrev Blob := List UInt8

structure Row where
  id : Nat
  nodeContent : Option Blob

structure Node where
  nodeId : Nat
  blob : Blob

@[ext]
structure Cache where
  self : Node
  brother : Node
  ancestors : Nat → Node
  brotherOfAncestors : Nat → Node

def ancestorId (x : Nat) : Nat := x >>> 1

def brotherId (x : Nat) : Nat := if x % 2 = 0 then x + 1 else x - 1

def relatedNodes : Nat → Nat → List Nat × List Nat
  | 0, _ => ([], [])
  | n + 1, leafIndex =>
    let brotherIndex := brotherId leafIndex
    let ancestorIndex := ancestorId leafIndex
    if ancestorIndex ≠ 1 then
      let (ancestors, brothers) := relatedNodes n ancestorIndex
      (ancestorIndex :: ancestors, brotherIndex :: brothers)
    else ([], [brotherIndex])

/--
The arrays have room for 12 ancestors and 13 brothers, so the loop is given 13 rounds.
-/
def findAllRelatedNodeIndex (leafNodeIndex : Nat) : List Nat :=
  let (ancestors, brothers) := relatedNodes (initMaxHashTreeLayer - 1) leafNodeIndex
  leafNodeIndex :: (ancestors ++ brothers)

/--
`select * from HASH_TREE_NODE_TABLE where ID IN (…) order by ID desc`
-/
def select (t : List Row) (ids : List Nat) : List Row :=
  (t.filter fun row => row.id ∈ ids).mergeSort fun a b => b.id ≤ a.id

structure Cursor where
  childNodeId : Nat
  internalIndex : Nat
  count : Nat
  cache : Cache

def readRow (leafId : Nat) (c : Cursor) (row : Row) : Except OpError Cursor :=
  match row.nodeContent with
  | none => .error .invalidVmcDb
  | some blob =>
    -- SQLite returns a null pointer for an empty blob
    if blob.length = 0 then .error .invalidVmcDb
    else if row.id = 1 then .error .invalidVmcDb
    else if initLeafNodeIdBase ≤ row.id then
      if blob.length ≠ leafNodeSize then .error .invalidVmcDb
      else if row.id = leafId then .ok { c with cache := { c.cache with self := ⟨row.id, blob⟩ } }
      else .ok { c with cache := { c.cache with brother := ⟨row.id, blob⟩ } }
    else if blob.length ≠ internalNodeSize then .error .invalidVmcDb
    else
      let cache :=
        if row.id = c.childNodeId / 2 then
          { c.cache with ancestors := update c.cache.ancestors c.internalIndex ⟨row.id, blob⟩ }
        else
          { c.cache with
            brotherOfAncestors := update c.cache.brotherOfAncestors c.internalIndex ⟨row.id, blob⟩ }
      if c.count + 1 = 2 then .ok ⟨row.id, c.internalIndex + 1, 0, cache⟩
      else .ok { c with count := c.count + 1, cache := cache }

def sqliteReadDb (t : List Row) (leafId : Nat) (cache : Cache) : Except OpError Cache :=
  if leafId < initLeafNodeIdBase ∨ leafId > initMaxLeafNodeId then .error .invalidParameter
  else
    let rows := select t (findAllRelatedNodeIndex leafId)
    match rows.foldlM (readRow leafId) ⟨leafId, 0, 0, cache⟩ with
    | .error e => .error e
    | .ok c => if rows.length ≠ initTotalNodeNumberForReading then .error .invalidVmcDb else .ok c.cache

def sqliteUpdateNode (t : List Row) (node : Node) : List Row :=
  t.map fun row => if row.id = node.nodeId then { row with nodeContent := some node.blob } else row

def Cache.nodes (cache : Cache) : List Node :=
  (List.range initInternalNodeNr).flatMap (fun k => [cache.ancestors k, cache.brotherOfAncestors k]) ++
    [cache.self, cache.brother]

/--
The nodes are written in one transaction with the flags of the leaf, `flags` tells how their update ends.
-/
def sqliteWriteDb (t : List Row) (cache : Cache) (flags : Except OpError Unit) : Except OpError (List Row) :=
  let t := cache.nodes.foldl sqliteUpdateNode t
  match flags with
  | .error e => .error e
  | .ok () => .ok t

def nodeSize (id : Nat) : Nat := if initLeafNodeIdBase ≤ id then leafNodeSize else internalNodeSize

structure Holds (t : List Row) (f : Nat → Blob) : Prop where
  nodup : (t.map Row.id).Nodup
  row : ∀ id, 2 ≤ id → id ≤ initMaxLeafNodeId → ⟨id, some (f id)⟩ ∈ t
  size : ∀ id, 2 ≤ id → id ≤ initMaxLeafNodeId → (f id).length = nodeSize id

def node (f : Nat → Blob) (id : Nat) : Node := ⟨id, f id⟩

def branch (f : Nat → Blob) (leafId : Nat) (cache : Cache) : Cache where
  self := node f leafId
  brother := node f (sibling leafId)
  ancestors k := if k < initInternalNodeNr then node f (leafId / 2 ^ (k + 1)) else cache.ancestors k
  brotherOfAncestors k :=
    if k < initInternalNodeNr then node f (sibling (leafId / 2 ^ (k + 1))) else cache.brotherOfAncestors k

def Cache.nodeIds (cache : Cache) : List Nat := cache.nodes.map Node.nodeId

end Sqlite

def Path.nodeIds {D R : Type} (path : Path D R) : List Nat :=
  path.levels.flatMap (fun l => [l.ancestorId, l.brotherId]) ++ [path.selfId, path.brotherId]

namespace Sqlite

def descIds : Nat → Nat → List Nat
  | 0, _ => []
  | n + 1, i => (2 * (i / 2) + 1) :: (2 * (i / 2)) :: descIds n (i / 2)

theorem pair_iff (i id : Nat) : (id = i ∨ id = sibling i) ↔ id = 2 * (i / 2) + 1 ∨ id = 2 * (i / 2) := by
  unfold sibling
  split <;> omega

theorem pow_le_half {n i : Nat} (h : 2 ^ (n + 1) ≤ i) : 2 ^ n ≤ i / 2 := by
  rw [pow_succ] at h
  omega

theorem mem_relatedNodes (n i id : Nat) (hlow : 2 ^ (n + 1) ≤ i) (hhigh : i < 2 ^ (n + 2)) :
    id ∈ i :: ((relatedNodes (n + 1) i).1 ++ (relatedNodes (n + 1) i).2) ↔ id ∈ descIds (n + 1) i := by
  induction n generalizing i with
  | zero =>
    have hone : ancestorId i = 1 := by
      rw [ancestorId, shiftRight_one]
      omega
    have hbrother : brotherId i = sibling i := rfl
    rw [relatedNodes, if_neg (not_not.2 hone), hbrother]
    simpa [descIds] using pair_iff i id
  | succ n ih =>
    have hhalf := pow_le_half hlow
    have hpos := Nat.two_pow_pos n
    rw [Nat.pow_succ] at hhalf
    have hne : ancestorId i ≠ 1 := by
      rw [ancestorId, shiftRight_one]
      omega
    have ih := ih (i / 2) (pow_le_half hlow) (by rw [pow_succ] at hhigh; omega)
    have hbrother : brotherId i = sibling i := rfl
    rw [relatedNodes, if_pos hne, hbrother, ancestorId, shiftRight_one]
    generalize relatedNodes (n + 1) (i / 2) = related at ih ⊢
    obtain ⟨ancestors, brothers⟩ := related
    have hpair := pair_iff i id
    rw [descIds]
    simp only [mem_cons, mem_append, cons_append] at ih ⊢
    rw [← ih]
    grind

theorem length_descIds (n i : Nat) : (descIds n i).length = 2 * n := by
  induction n generalizing i with
  | zero => rfl
  | succ n ih =>
    simp only [descIds, length_cons, ih]
    omega

theorem le_of_mem_descIds {n i id : Nat} (h : id ∈ descIds n i) : id ≤ 2 * (i / 2) + 1 := by
  induction n generalizing i with
  | zero => cases h
  | succ n ih =>
    simp only [descIds, mem_cons] at h
    rcases h with rfl | rfl | h
    . exact le_refl _
    . exact le_succ _
    have := ih h
    omega

theorem two_le_of_mem_descIds {n i id : Nat} (hi : 2 ^ n ≤ i) (h : id ∈ descIds n i) : 2 ≤ id := by
  induction n generalizing i with
  | zero => cases h
  | succ n ih =>
    have hhalf := pow_le_half hi
    have hpos := Nat.two_pow_pos n
    simp only [descIds, mem_cons] at h
    rcases h with rfl | rfl | h
    . omega
    . omega
    . exact ih hhalf h

theorem pairwise_descIds {n i : Nat} (hi : 2 ^ n ≤ i) : (descIds n i).Pairwise (· > ·) := by
  induction n generalizing i with
  | zero => exact .nil
  | succ n ih =>
    have hhalf := pow_le_half hi
    have hrest : ∀ id ∈ descIds n (i / 2), id < 2 * (i / 2) := by
      intro id hid
      cases n with
      | zero => cases hid
      | succ n =>
        have hle := le_of_mem_descIds hid
        have hpos := Nat.two_pow_pos n
        rw [Nat.pow_succ] at hhalf
        omega
    refine .cons ?_ (.cons hrest (ih hhalf))
    intro id hid
    rcases mem_cons.1 hid with rfl | hid
    . exact lt_succ_self _
    . exact lt_succ_of_lt (hrest id hid)

theorem flatMap_perm_descIds (n i : Nat) :
    ((List.range n).flatMap fun k => [i / 2 ^ k, sibling (i / 2 ^ k)]).Perm (descIds n i) := by
  induction n generalizing i with
  | zero => exact .nil
  | succ n ih =>
    have hpair : [i, sibling i].Perm [2 * (i / 2) + 1, 2 * (i / 2)] := by
      rcases mod_two_eq_zero_or_one i with heven | hodd
      . rw [sibling, if_pos heven, show 2 * (i / 2) = i by omega]
        exact .swap _ _ _
      . rw [sibling, if_neg (by omega), show 2 * (i / 2) = i - 1 by omega, Nat.sub_add_cancel (by omega)]
    rw [range_succ_eq_map, flatMap_cons, flatMap_map]
    simp only [Nat.pow_zero, Nat.div_one, Nat.succ_eq_add_one, Nat.pow_succ', ← Nat.div_div_eq_div_mul]
    exact hpair.append (ih (i / 2))

def rowOf (f : Nat → Blob) (id : Nat) : Row := ⟨id, some (f id)⟩

section Read

variable {t : List Row} {f : Nat → Blob} {leafId : Nat}

theorem select_eq (ht : Holds t f) {ids desc : List Nat} (hmem : ∀ id, id ∈ ids ↔ id ∈ desc)
    (hdesc : desc.Pairwise (· > ·)) (hrange : ∀ id ∈ desc, 2 ≤ id ∧ id ≤ initMaxLeafNodeId) :
    select t ids = desc.map (rowOf f) := by
  have hrow : ∀ row ∈ t, row.id ∈ desc → row = rowOf f row.id := by
    intro row hrow hid
    obtain ⟨hlow, hhigh⟩ := hrange row.id hid
    exact inj_on_of_nodup_map ht.nodup hrow (ht.row row.id hlow hhigh) rfl
  have hperm : (t.filter fun row => row.id ∈ ids).Perm (desc.map (rowOf f)) := by
    refine (perm_ext_iff_of_nodup (ht.nodup.of_map.filter _) ?_).2 ?_
    . refine List.Nodup.map (fun a b h => congrArg Row.id h) (hdesc.imp ne_of_gt)
    intro row
    rw [mem_filter, decide_eq_true_eq, hmem, mem_map]
    constructor
    . rintro ⟨ht, hid⟩
      exact ⟨row.id, hid, (hrow row ht hid).symm⟩
    rintro ⟨id, hid, rfl⟩
    exact ⟨ht.row id (hrange id hid).1 (hrange id hid).2, hid⟩
  have hsorted : (select t ids).Pairwise fun a b => decide (b.id ≤ a.id) = true :=
    pairwise_mergeSort (by simpa using fun a b c h h' => le_trans h' h) (by simpa using fun a b => le_total _ _) _
  refine List.Perm.eq_of_pairwise ?_ hsorted ?_ ((mergeSort_perm _ _).trans hperm)
  . intro a b ha hb hab hba
    obtain ⟨id, -, rfl⟩ := mem_map.1 hb
    obtain ⟨hat, hid⟩ := mem_filter.1 (mem_mergeSort.1 ha)
    rw [decide_eq_true_eq, hmem] at hid
    rw [hrow a hat hid, le_antisymm (of_decide_eq_true hba) (of_decide_eq_true hab)]
    rfl
  . rw [pairwise_map]
    exact hdesc.imp fun h => decide_eq_true (le_of_lt h)

theorem readRow_leaf (leafId : Nat) {id : Nat} (hid : initLeafNodeIdBase ≤ id)
    (hsize : (f id).length = leafNodeSize) (c : Cursor) :
    readRow leafId c (rowOf f id) = .ok (if id = leafId then { c with cache := { c.cache with self := node f id } }
      else { c with cache := { c.cache with brother := node f id } }) := by
  have hone : id ≠ 1 := by
    rintro rfl
    exact absurd hid (by decide)
  have hzero : (f id).length ≠ 0 := by
    rw [hsize]
    decide
  unfold readRow rowOf
  dsimp only
  rw [if_neg hzero, if_neg hone, if_pos hid, if_neg (not_not.2 hsize)]
  by_cases h : id = leafId
  . rw [if_pos h, if_pos h]
    rfl
  rw [if_neg h, if_neg h]
  rfl

theorem readRow_internal (leafId : Nat) {id : Nat} (hlow : 2 ≤ id) (hhigh : id < initLeafNodeIdBase)
    (hsize : (f id).length = internalNodeSize) (c : Cursor) :
    readRow leafId c (rowOf f id) = let cache :=
        if id = c.childNodeId / 2 then
          { c.cache with ancestors := update c.cache.ancestors c.internalIndex (node f id) }
        else
          { c.cache with brotherOfAncestors := update c.cache.brotherOfAncestors c.internalIndex (node f id) }
      if c.count + 1 = 2 then .ok ⟨id, c.internalIndex + 1, 0, cache⟩
      else .ok { c with count := c.count + 1, cache := cache } := by
  have hone : id ≠ 1 := by omega
  have hzero : (f id).length ≠ 0 := by
    rw [hsize]
    decide
  unfold readRow rowOf
  dsimp only
  rw [if_neg hzero, if_neg hone, if_neg (not_le.2 hhigh), if_neg (not_not.2 hsize)]
  rfl

def setLevel (f : Nat → Blob) (a index : Nat) (cache : Cache) : Cache :=
  { cache with
    ancestors := update cache.ancestors index (node f a)
    brotherOfAncestors := update cache.brotherOfAncestors index (node f (sibling a)) }

theorem Holds.size_leaf (ht : Holds t f) {id : Nat} (h : IsLeafId id) : (f id).length = leafNodeSize := by
  rw [ht.size id (le_trans (by decide) h.1) h.2, nodeSize, if_pos h.1]

theorem Holds.size_internal (ht : Holds t f) {id : Nat} (hlow : 2 ≤ id) (hhigh : id < initLeafNodeIdBase) :
    (f id).length = internalNodeSize := by
  rw [ht.size id hlow (le_trans (le_of_lt hhigh) (by decide)), nodeSize, if_neg (not_le.2 hhigh)]

theorem foldlM_readRow_pair (ht : Holds t f) {a child : Nat} (hlow : 2 ≤ a) (hhigh : a < initLeafNodeIdBase)
    (hchild : child / 2 = a) (index : Nat) (cache : Cache) (rest : List Row) :
    (rowOf f (2 * (a / 2) + 1) :: rowOf f (2 * (a / 2)) :: rest).foldlM (readRow leafId) ⟨child, index, 0, cache⟩ =
      rest.foldlM (readRow leafId) ⟨2 * (a / 2), index + 1, 0, setLevel f a index cache⟩ := by
  have hself := readRow_internal leafId hlow hhigh (ht.size_internal hlow hhigh)
  have hsib : 2 ≤ sibling a ∧ sibling a < initLeafNodeIdBase ∧ sibling a ≠ a := by
    unfold initLeafNodeIdBase at *
    unfold sibling
    split <;> omega
  have hbrother := readRow_internal leafId hsib.1 hsib.2.1 (ht.size_internal hsib.1 hsib.2.1)
  rcases mod_two_eq_zero_or_one a with heven | hodd
  . rw [show 2 * (a / 2) + 1 = sibling a by rw [sibling, if_pos heven]; omega, show 2 * (a / 2) = a by omega]
    simp [foldlM_cons, bind, Except.bind, hself, hbrother, hchild, hsib.2.2, setLevel]
  rw [show 2 * (a / 2) + 1 = a by omega, show 2 * (a / 2) = sibling a by rw [sibling, if_neg (by omega)]; omega]
  simp [foldlM_cons, bind, Except.bind, hself, hbrother, hchild, hsib.2.2, setLevel]

def fill (f : Nat → Blob) : Nat → Nat → Nat → Cache → Cache
  | 0, _, _, cache => cache
  | n + 1, a, index, cache => fill f n (a / 2) (index + 1) (setLevel f a index cache)

theorem foldlM_readRow_levels (ht : Holds t f) (leafId n : Nat) {a child : Nat} (hlow : 2 ^ n ≤ a)
    (hhigh : a < initLeafNodeIdBase) (hchild : child / 2 = a) (index : Nat) (cache : Cache) :
    ∃ child', ((descIds n a).map (rowOf f)).foldlM (readRow leafId) ⟨child, index, 0, cache⟩ =
      .ok ⟨child', index + n, 0, fill f n a index cache⟩ := by
  induction n generalizing a child index cache with
  | zero => exact ⟨child, rfl⟩
  | succ n ih =>
    have hhalf := pow_le_half hlow
    have hpos := Nat.two_pow_pos n
    rw [descIds, map_cons, map_cons, foldlM_readRow_pair ht (by omega) hhigh hchild]
    obtain ⟨child', h⟩ := ih hhalf (by omega) (show 2 * (a / 2) / 2 = a / 2 by omega) (index + 1)
      (setLevel f a index cache)
    rw [h, fill, show index + 1 + n = index + (n + 1) by omega]
    exact ⟨child', rfl⟩

theorem ite_update (v g : Nat → Node) (n a index k : Nat) :
    (if index + 1 ≤ k ∧ k < index + 1 + n then v (a / 2 / 2 ^ (k - (index + 1))) else update g index (v a) k) =
      if index ≤ k ∧ k < index + (n + 1) then v (a / 2 ^ (k - index)) else g k := by
  by_cases hk : k = index
  . subst hk
    rw [if_neg (by omega), if_pos (by omega), update_self, Nat.sub_self, Nat.pow_zero, Nat.div_one]
  rw [update_of_ne hk, Nat.div_div_eq_div_mul, ← Nat.pow_succ']
  by_cases h : index + 1 ≤ k ∧ k < index + 1 + n
  . rw [if_pos h, if_pos (by omega), show (k - (index + 1)).succ = k - index by omega]
  . rw [if_neg h, if_neg (by omega)]

theorem fill_eq (n a index : Nat) (cache : Cache) : fill f n a index cache = ⟨cache.self, cache.brother,
      fun k => if index ≤ k ∧ k < index + n then node f (a / 2 ^ (k - index)) else cache.ancestors k,
      fun k => if index ≤ k ∧ k < index + n then node f (sibling (a / 2 ^ (k - index)))
        else cache.brotherOfAncestors k⟩ := by
  induction n generalizing a index cache with
  | zero =>
    have hnot : ∀ k, ¬ (index ≤ k ∧ k < index + 0) := fun k => by omega
    simp only [fill, if_neg (hnot _)]
  | succ n ih =>
    rw [fill, ih]
    congr 1
    . funext k
      exact ite_update (node f) cache.ancestors n a index k
    funext k
    exact ite_update (fun b => node f (sibling b)) cache.brotherOfAncestors n a index k

theorem fill_eq_branch (cache : Cache) :
    fill f initInternalNodeNr (leafId / 2) 0 { cache with self := node f leafId, brother := node f (sibling leafId) } =
      branch f leafId cache := by
  rw [fill_eq]
  simp only [Nat.zero_le, true_and, Nat.zero_add, Nat.sub_zero, Nat.div_div_eq_div_mul, ← Nat.pow_succ']
  rfl

theorem foldlM_readRow_leaves (ht : Holds t f) (hid : IsLeafId leafId) (cache : Cache) (rest : List Row) :
    (rowOf f (2 * (leafId / 2) + 1) :: rowOf f (2 * (leafId / 2)) :: rest).foldlM (readRow leafId)
        ⟨leafId, 0, 0, cache⟩ =
      rest.foldlM (readRow leafId)
        ⟨leafId, 0, 0, { cache with self := node f leafId, brother := node f (sibling leafId) }⟩ := by
  have hself := readRow_leaf leafId hid.1 (ht.size_leaf hid)
  have hbrother := readRow_leaf leafId hid.sibling.1 (ht.size_leaf hid.sibling)
  have hne : sibling leafId ≠ leafId := sibling_ne leafId (le_trans (by decide) hid.1)
  rcases mod_two_eq_zero_or_one leafId with heven | hodd
  . rw [show 2 * (leafId / 2) + 1 = sibling leafId by rw [sibling, if_pos heven]; omega,
      show 2 * (leafId / 2) = leafId by omega]
    simp [foldlM_cons, bind, Except.bind, hself, hbrother, hne]
  rw [show 2 * (leafId / 2) + 1 = leafId by omega,
    show 2 * (leafId / 2) = sibling leafId by rw [sibling, if_neg (by omega)]; omega]
  simp [foldlM_cons, bind, Except.bind, hself, hbrother, hne]

theorem sqliteReadDb_eq (ht : Holds t f) (hid : IsLeafId leafId) (cache : Cache) :
    sqliteReadDb t leafId cache = .ok (branch f leafId cache) := by
  have hrange : ∀ id ∈ descIds 13 leafId, 2 ≤ id ∧ id ≤ initMaxLeafNodeId := by
    intro id hmem
    refine ⟨two_le_of_mem_descIds hid.1 hmem, le_trans (le_of_mem_descIds hmem) ?_⟩
    have := hid.2
    unfold initMaxLeafNodeId at *
    omega
  have hrows : select t (findAllRelatedNodeIndex leafId) = (descIds 13 leafId).map (rowOf f) :=
    select_eq ht (fun id => mem_relatedNodes 12 leafId id hid.1 (lt_succ_of_le hid.2)) (pairwise_descIds hid.1) hrange
  obtain ⟨hhalf, hhalf'⟩ := hid.half
  obtain ⟨child, hlevels⟩ := foldlM_readRow_levels ht leafId 12 hhalf hhalf' rfl 0
    { cache with self := node f leafId, brother := node f (sibling leafId) }
  rw [sqliteReadDb, if_neg (not_or.2 ⟨not_lt.2 hid.1, not_lt.2 hid.2⟩), hrows]
  dsimp only
  rw [descIds, map_cons, map_cons, foldlM_readRow_leaves ht hid, hlevels]
  dsimp only
  rw [if_neg (by simp [length_descIds]; decide)]
  exact congrArg Except.ok (fill_eq_branch cache)

end Read

section Write

variable {t : List Row} {f : Nat → Blob}

def write (f : Nat → Blob) (node : Node) : Nat → Blob := update f node.nodeId node.blob

theorem Holds.sqliteUpdateNode (ht : Holds t f) {node : Node} (hsize : node.blob.length = nodeSize node.nodeId) :
    Holds (sqliteUpdateNode t node) (write f node) where
  nodup := by
    have hids : (Sqlite.sqliteUpdateNode t node).map Row.id = t.map Row.id := by
      simp only [Sqlite.sqliteUpdateNode, map_map]
      refine map_congr_left fun row _ => ?_
      by_cases h : row.id = node.nodeId <;> simp [h]
    rw [hids]
    exact ht.nodup
  row id hlow hhigh := by
    refine mem_map.2 ⟨_, ht.row id hlow hhigh, ?_⟩
    by_cases h : id = node.nodeId <;> simp [write, h]
  size id hlow hhigh := by
    by_cases h : id = node.nodeId
    . simp [write, h, hsize]
    . simp [write, h, ht.size id hlow hhigh]

theorem Holds.foldl (ht : Holds t f) {nodes : List Node}
    (hsize : ∀ node ∈ nodes, node.blob.length = nodeSize node.nodeId) :
    Holds (nodes.foldl Sqlite.sqliteUpdateNode t) (nodes.foldl write f) := by
  induction nodes generalizing t f with
  | nil => exact ht
  | cons node rest ih =>
    rw [forall_mem_cons] at hsize
    exact ih (ht.sqliteUpdateNode hsize.1) hsize.2

theorem foldl_write_of_notMem {nodes : List Node} {id : Nat} (hid : id ∉ nodes.map Node.nodeId) :
    nodes.foldl write f id = f id := by
  induction nodes generalizing f with
  | nil => rfl
  | cons node rest ih =>
    rw [map_cons, mem_cons, not_or] at hid
    rw [foldl_cons, ih hid.2, write, update_of_ne hid.1]

theorem foldl_write_of_mem {nodes : List Node} (hnodup : (nodes.map Node.nodeId).Nodup) {node : Node}
    (hnode : node ∈ nodes) : nodes.foldl write f node.nodeId = node.blob := by
  induction nodes generalizing f with
  | nil => cases hnode
  | cons first rest ih =>
    rw [map_cons, nodup_cons] at hnodup
    rw [foldl_cons]
    rcases mem_cons.1 hnode with rfl | hnode
    . rw [foldl_write_of_notMem hnodup.1, write, update_self]
    . exact ih hnodup.2 hnode

theorem eq_of_sqliteWriteDb {t' : List Row} {cache : Cache} {flags : Except OpError Unit}
    (h : sqliteWriteDb t cache flags = .ok t') : t' = cache.nodes.foldl Sqlite.sqliteUpdateNode t := by
  cases flags with
  | error e => cases h
  | ok u => exact (Except.ok.inj h).symm

end Write

def branchIds (leafId : Nat) : List Nat :=
  (List.range initInternalNodeNr).flatMap (fun k => [leafId / 2 / 2 ^ k, sibling (leafId / 2 / 2 ^ k)]) ++
    [leafId, sibling leafId]

theorem nodup_branchIds {leafId : Nat} (hid : IsLeafId leafId) : (branchIds leafId).Nodup := by
  have hperm : (branchIds leafId).Perm (descIds 13 leafId) := by
    refine (perm_append_comm.trans ?_).trans (flatMap_perm_descIds 13 leafId)
    rw [range_succ_eq_map, flatMap_cons, flatMap_map]
    simp only [Nat.pow_zero, Nat.div_one, Nat.succ_eq_add_one, Nat.pow_succ', ← Nat.div_div_eq_div_mul]
    rfl
  exact hperm.nodup_iff.2 ((pairwise_descIds hid.1).imp Nat.ne_of_gt)

theorem nodeIds_branch (f : Nat → Blob) (leafId : Nat) (cache : Cache) :
    (branch f leafId cache).nodeIds = branchIds leafId := by
  simp only [Cache.nodeIds, Cache.nodes, branchIds, map_append, map_flatMap]
  congr 1
  refine flatMap_congr fun k hk => ?_
  rw [mem_range] at hk
  simp [branch, hk, node, Nat.div_div_eq_div_mul, Nat.pow_succ']

theorem flatMap_of_levelIds {D : Type} {levels : List (Level D)} {i : Nat} (h : LevelIds i levels) :
    levels.flatMap (fun l => [l.ancestorId, l.brotherId]) =
      (List.range levels.length).flatMap fun k => [i / 2 ^ k, sibling (i / 2 ^ k)] := by
  induction levels generalizing i with
  | nil => rfl
  | cons l rest ih =>
    obtain ⟨hancestor, hbrother, hrest⟩ := h
    rw [flatMap_cons, ih hrest, hancestor, hbrother, length_cons, range_succ_eq_map, flatMap_cons, flatMap_map]
    simp only [Nat.pow_zero, Nat.div_one, Nat.succ_eq_add_one, Nat.pow_succ', ← Nat.div_div_eq_div_mul]

theorem nodeIds_of_hasIds {D R : Type} {leafId : Nat} {path : Path D R} (h : path.HasIds leafId) :
    path.nodeIds = branchIds leafId := by
  rw [Path.nodeIds, flatMap_of_levelIds h.ids, path.length_levels, h.selfId, h.brotherId]
  rfl

theorem sqlite_agrees_with_enclave {t : List Row} {f : Nat → Blob} (ht : Holds t f) {leafId : Nat}
    (hid : IsLeafId leafId) (cache : Cache) :
    sqliteReadDb t leafId cache = .ok (branch f leafId cache) ∧
      (∀ (D R : Type) (path : Path D R),
        (branch f leafId cache).nodeIds = (setRelatedNodesIds leafId path).nodeIds) ∧
      ∀ written flags t', written.nodeIds = (branch f leafId cache).nodeIds →
        (∀ node ∈ written.nodes, node.blob.length = nodeSize node.nodeId) → sqliteWriteDb t written flags = .ok t' →
        ∃ f', (∀ node ∈ written.nodes, f' node.nodeId = node.blob) ∧
          (∀ id, id ∉ written.nodeIds → f' id = f id) ∧
          ∀ other cache, IsLeafId other → sqliteReadDb t' other cache = .ok (branch f' other cache) := by
  have hids := nodeIds_branch f leafId cache
  refine ⟨sqliteReadDb_eq ht hid cache, ?_, ?_⟩
  . intro D R path
    rw [hids, nodeIds_of_hasIds (hasIds_setRelatedNodesIds hid path)]
  intro written flags t' hwritten hsize hwrite
  have hnodup : (written.nodes.map Node.nodeId).Nodup := by
    rw [← Cache.nodeIds, hwritten, hids]
    exact nodup_branchIds hid
  rw [eq_of_sqliteWriteDb hwrite]
  refine ⟨written.nodes.foldl write f, ?_, ?_, ?_⟩
  . exact fun node hnode => foldl_write_of_mem hnodup hnode
  . exact fun id hnot => foldl_write_of_notMem hnot
  . exact fun other cache hother => sqliteReadDb_eq (ht.foldl hsize) hother cache

def sampleBlob (b : UInt8) (id : Nat) : Blob :=
  UInt8.ofNat id :: UInt8.ofNat (id / 256) :: replicate (nodeSize id - 2) b

theorem length_sampleBlob (b : UInt8) (id : Nat) : (sampleBlob b id).length = nodeSize id := by
  rw [sampleBlob, length_cons, length_cons, length_replicate, nodeSize]
  split <;> rfl

def sampleTable : List Row := (List.range' 2 (initMaxLeafNodeId - 1)).map (rowOf (sampleBlob 0))

def blank : Cache := ⟨⟨0, []⟩, ⟨0, []⟩, fun _ => ⟨0, []⟩, fun _ => ⟨0, []⟩⟩

theorem holds_sampleTable : Holds sampleTable (sampleBlob 0) where
  nodup := by
    rw [sampleTable, map_map]
    exact (map_id (List.range' 2 (initMaxLeafNodeId - 1))).symm ▸ nodup_range'
  row id hlow hhigh := by
    refine mem_map_of_mem (mem_range'_1.2 ⟨hlow, ?_⟩)
    unfold initMaxLeafNodeId at *
    omega
  size id _ _ := length_sampleBlob 0 id

theorem length_blob_branch {f : Nat → Blob} (hf : ∀ id, (f id).length = nodeSize id) {leafId : Nat} :
    ∀ n ∈ (branch f leafId blank).nodes, n.blob.length = nodeSize n.nodeId := by
  intro n hn
  simp only [Cache.nodes, mem_append, mem_flatMap, mem_range, mem_cons, not_mem_nil, or_false] at hn
  rcases hn with ⟨k, hk, rfl | rfl⟩ | rfl | rfl
  . simp [branch, hk, node, hf]
  . simp [branch, hk, node, hf]
  . exact hf _
  . exact hf _

/-- A branch is changed, and read again from its leaf and from the last one. -/
theorem sqlite_agrees_with_enclave_sampleTable : ∃ t' f',
    sqliteReadDb sampleTable 8192 blank = .ok (branch (sampleBlob 0) 8192 blank) ∧
      sqliteWriteDb sampleTable (branch (sampleBlob 1) 8192 blank) (.ok ()) = .ok t' ∧
      sqliteReadDb t' 8192 blank = .ok (branch f' 8192 blank) ∧ f' 8192 = sampleBlob 1 8192 ∧
      sqliteReadDb t' 16383 blank = .ok (branch f' 16383 blank) ∧ f' 16383 = sampleBlob 0 16383 := by
  obtain ⟨hread, -, hwrite⟩ :=
    sqlite_agrees_with_enclave holds_sampleTable (show IsLeafId 8192 from ⟨by decide, by decide⟩) blank
  have hids := (nodeIds_branch (sampleBlob 1) 8192 blank).trans (nodeIds_branch (sampleBlob 0) 8192 blank).symm
  obtain ⟨f', hpath, hrest, hreads⟩ := hwrite _ (.ok ()) _ hids (length_blob_branch (length_sampleBlob 1)) rfl
  refine ⟨_, f', hread, rfl, hreads _ _ ⟨by decide, by decide⟩, ?_, hreads _ _ ⟨by decide, by decide⟩, ?_⟩
  . exact hpath ⟨8192, sampleBlob 1 8192⟩ (mem_append_right _ (mem_cons_self ..))
  . apply hrest
    rw [nodeIds_branch]
    decide

end Sqlite

end Vmc
