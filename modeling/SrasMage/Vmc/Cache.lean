import SrasMage.Vmc.Basic
import Mathlib.Logic.Function.Basic

/-!
This module contains the cache of hash tree nodes of the virtual monotonic counters
(`monotonic_counter_database_sqlite_cache.cpp`).
-/

namespace Vmc

open Merkle

inductive RpdbOp where
  | create | read | increment | delete
deriving DecidableEq

variable {W D R : Type} (P : Outside W D R)

def cacheHelper {α : Type} (node : Option (CachedNode α)) (data : α) (w : W) : Option (CachedNode α) × W :=
  match node with
  | some c => (some { c with node := data }, w)
  | none =>
    match P.malloc w with
    | (false, w) => (none, w)
    | (true, w) => (some ⟨0, data⟩, w)

def CachedNode.addRef {α : Type} (valueToAdd : UInt32) (c : CachedNode α) : Option (CachedNode α) :=
  if c.refCounter + valueToAdd = 0 then none
  else some { c with refCounter := c.refCounter + valueToAdd }

namespace TreeCache

variable (t : TreeCache D R)

def updateLeafRefCounter (nodeIndex : Nat) (valueToAdd : UInt32) : TreeCache D R :=
  let node := (t.leaves nodeIndex).bind (·.addRef valueToAdd)
  { t with leaves := Function.update t.leaves nodeIndex node }

def updateInternalRefCounter (nodeIndex : Nat) (valueToAdd : UInt32) : TreeCache D R :=
  let node := (t.internals nodeIndex).bind (·.addRef valueToAdd)
  { t with internals := Function.update t.internals nodeIndex node }

def updateAncestorsRefCounter : Nat → Nat → UInt32 → TreeCache D R → TreeCache D R
  | 0, _, _, t => t
  | n + 1, i, v, t =>
    if i = 1 then t
    else
      let t := (t.updateInternalRefCounter i v).updateInternalRefCounter (sibling i) v
      updateAncestorsRefCounter n (parent i) v t

def updateRelatedNodesRefCounter (leafId : Nat) (valueToAdd : UInt32) : TreeCache D R :=
  let t := (t.updateLeafRefCounter leafId valueToAdd).updateLeafRefCounter (sibling leafId) valueToAdd
  updateAncestorsRefCounter initInternalNodeNr (parent leafId) valueToAdd t

def evict : TreeCache D R :=
  match t.list.getLast? with
  | none => t
  | some tail => { t.updateRelatedNodesRefCounter tail (-1) with list := t.list.dropLast }

def removeFromCachedLeafList (leafId : Nat) : TreeCache D R :=
  if leafId ∈ t.list then
    { t with list := t.list.erase leafId }.updateRelatedNodesRefCounter leafId (-1)
  else t

end TreeCache

def updateCachedLeafList (leafId : Nat) (t : TreeCache D R) (w : W) : OpError × TreeCache D R × W :=
  if leafId ∈ t.list then
    (.success, { t with list := leafId :: t.list.erase leafId }, w)
  else
    match P.malloc w with
    | (false, w) => (.malloc, t, w)
    | (true, w) =>
      let t := t.updateRelatedNodesRefCounter leafId 1
      let t := if t.list.length = maxLeafCacheNum then t.evict else t
      (.success, { t with list := leafId :: t.list }, w)

def readLevels (t : TreeCache D R) : List (Level D) → Option (List (Level D))
  | [] => some []
  | l :: rest =>
    match t.internals l.ancestorId, t.internals l.brotherId with
    | some ancestor, some brother =>
      (readLevels t rest).map ({ l with ancestor := ancestor.node, brother := brother.node } :: ·)
    | _, _ => none

theorem length_readLevels {t : TreeCache D R} {levels levels' : List (Level D)}
    (h : readLevels t levels = some levels') : levels'.length = levels.length := by
  induction levels generalizing levels' with
  | nil =>
    cases h
    rfl
  | cons l rest ih =>
    rw [readLevels] at h
    split at h
    . obtain ⟨rest', hrest, rfl⟩ := Option.map_eq_some_iff.1 h
      simp [ih hrest]
    . cases h

def readPath (t : TreeCache D R) (cache : Path D R) (root : R) : Option (Path D R) :=
  match h : readLevels t cache.levels, t.leaves cache.selfId, t.leaves cache.brotherId with
  | some levels, some self, some brother =>
    some { cache with
      self := self.node, brother := brother.node, levels := levels, root := root
      length_levels := (length_readLevels h).trans cache.length_levels }
  | _, _, _ => none

def storeRoot (root : R) (t : TreeCache D R) (w : W) : Option (TreeCache D R) × W :=
  match cacheHelper P t.root root w with
  | (none, w) => (none, w)
  | (some c, w) => (some { t with root := some c }, w)

def storeInternal (i : Nat) (d : D) (t : TreeCache D R) (w : W) : Option (TreeCache D R) × W :=
  match cacheHelper P (t.internals i) d w with
  | (none, w) => (none, w)
  | (some c, w) => (some { t with internals := Function.update t.internals i (some c) }, w)

def storeLeaf (i : Nat) (leaf : Leaf D) (t : TreeCache D R) (w : W) : Option (TreeCache D R) × W :=
  match cacheHelper P (t.leaves i) leaf w with
  | (none, w) => (none, w)
  | (some c, w) => (some { t with leaves := Function.update t.leaves i (some c) }, w)

def andThen {α : Type} (result : Option α × W) (f : α → W → Option α × W) : Option α × W :=
  match result with
  | (none, w) => (none, w)
  | (some a, w) => f a w

def storeLevels : List (Level D) → TreeCache D R → W → Option (TreeCache D R) × W
  | [], t, w => (some t, w)
  | l :: rest, t, w =>
    andThen (andThen (storeInternal P l.ancestorId l.ancestor t w)
      (storeInternal P l.brotherId l.brother)) (storeLevels rest)

def storePath (cache : Path D R) (t : TreeCache D R) (w : W) : Option (TreeCache D R) × W :=
  andThen (andThen (andThen (storeRoot P cache.root t w) (storeLevels P cache.levels))
    (storeLeaf P cache.selfId cache.self)) (storeLeaf P cache.brotherId cache.brother)

def readHashTreeCache [DecidableEq R] (op : RpdbOp) (cache : Path D R) (rootHash : R)
    (s : State W D R) : Option (Path D R) × State W D R :=
  match s.tree.root with
  | none => (none, s)
  | some c =>
    if c.node ≠ rootHash then (none, { s with tree := flushHashTreeCache })
    else
      match readPath s.tree cache c.node with
      | none => (none, s)
      | some cache =>
        if op ≠ .delete then
          match updateCachedLeafList P cache.selfId s.tree s.world with
          | (.success, t, w) => (some cache, { s with tree := t, world := w })
          | (_, _, w) => (none, { s with tree := flushHashTreeCache, world := w })
        else (some cache, s)

def updateHashTreeCache (op : RpdbOp) (cache : Path D R) (s : State W D R) : State W D R :=
  match storePath P cache s.tree s.world with
  | (none, w) => { s with tree := flushHashTreeCache, world := w }
  | (some t, w) =>
    if op ≠ .delete then
      match updateCachedLeafList P cache.selfId t w with
      | (.success, t, w) => { s with tree := t, world := w }
      | (_, _, w) => { s with tree := flushHashTreeCache, world := w }
    else { s with tree := t.removeFromCachedLeafList cache.selfId, world := w }

end Vmc
