import SrasMage.Merkle

/-!
This module contains the data of the virtual monotonic counters (`psw/ae/pse/pse_op`), what lies outside of
the enclave, the cached copy of the RPDATA and the checks on a branch of the hash tree.
-/

namespace Vmc

open Merkle

inductive OpError where
  | success | internal | invalidParameter | malloc | invalidEphSession | psdaSessionLost | psdaBusy
  | unknownRequest | capNotAvailable | databaseFatal | invalidVmcDb | databaseFull | databaseOverQuota
  | sqliteInternal | copyPrebuildDb | invalidCounter | invalidOwner | invalidPolicy | cacheMiss
deriving DecidableEq

def initMaxHashTreeLayer : Nat := 14
def initLeafNodeIdBase : Nat := 8192
def initMaxLeafNodeId : Nat := 16383
def initInternalNodeNr : Nat := initMaxHashTreeLayer - 2
def maxLeafCacheNum : Nat := 256

def mcPolicySigner : UInt16 := 1
def mcPolicyEnclave : UInt16 := 2

abbrev Nonce := BitVec 104

structure Leaf (D : Type) where
  isUsed : UInt8
  nonce : Nonce
  value : UInt32
  ownerPolicy : UInt16
  ownerMaskFlags : UInt64
  ownerMaskXfrm : UInt64
  ownerId : D
  ownerSvn : UInt16
deriving DecidableEq

structure Uuid where
  entryIndex : BitVec 24
  nonce : Nonce
deriving DecidableEq

structure IsvAttributes where
  mrSigner : BitVec 256
  mrEnclave : BitVec 256
  flags : UInt64
  xfrm : UInt64
  isvProdId : UInt16
  isvSvn : UInt16
deriving DecidableEq

structure Rpdata (R : Type) where
  roothash : R
  epoch : UInt32
deriving DecidableEq

inductive LeafnodeFlagOp where
  | clrLeafnodeFlag | setLeafnodeFlag | nonOp
deriving DecidableEq

structure OpLeafnodeFlag where
  opType : LeafnodeFlagOp
  mrSigner : BitVec 256

structure Level (D : Type) where
  ancestorId : Nat
  ancestor : D
  brotherId : Nat
  brother : D

structure Path (D R : Type) where
  selfId : Nat
  self : Leaf D
  brotherId : Nat
  brother : Leaf D
  levels : List (Level D)
  length_levels : levels.length = initInternalNodeNr
  root : R

structure Reply where
  report : OpError
  applied : Bool

structure Suite (D R : Type) where
  hashes : Hashes (Leaf D) D (BitVec 128 × UInt32) R
  ownerHash : List (BitVec 256) → UInt64 → UInt64 → UInt16 → D
  zeroDigest : D
  zeroRoot : R
  pairingNonce : BitVec 128

structure Outside (W D R : Type) extends Suite D R where
  sha256 : W → Bool × W
  malloc : W → Bool × W
  copyGlobalPairingNonce : W → Bool × W
  readRand : W → Option Nonce × W
  psdaReadRpdata : W → OpError × W
  psdaUpdateRpdata : R → R → W → Reply × W
  psdaResetRpdata : R → W → (Reply × Rpdata R) × W
  sqliteReadDb : Nat → W → Option (OpError × Path D R) × W
  sqliteWriteDb : Path D R → Bool → Option OpLeafnodeFlag → W → Option OpError × W
  sqliteReadChildrenOfRoot : W → Option (OpError × D × D) × W
  sqliteGetEmptyLeafnode : BitVec 256 → W → Option (OpError × Int) × W
  sqliteDbInitHashTreeTable : W → Option OpError × W
  sqliteRollbackDbFile : W → Option OpError × W

structure CachedNode (α : Type) where
  refCounter : UInt32
  node : α

structure TreeCache (D R : Type) where
  root : Option (CachedNode R)
  internals : Nat → Option (CachedNode D)
  leaves : Nat → Option (CachedNode (Leaf D))
  list : List Nat

structure State (W D R : Type) where
  world : W
  rpdata : Rpdata R
  cachedRpdata : Rpdata R
  rpdataCacheInitialized : Bool
  mcServiceStatus : OpError
  tree : TreeCache D R

namespace Suite

variable {D R : Type} (S : Suite D R)

def zeroLeaf : Leaf D := ⟨0, 0, 0, 0, 0, 0, S.zeroDigest, 0⟩

def internalNodeHashValueTable : Nat → D
  | 0 => S.hashes.leaf S.zeroLeaf S.zeroLeaf
  | n + 1 => S.hashes.node (internalNodeHashValueTable n) (internalNodeHashValueTable n)

end Suite

variable {W D R : Type} (P : Outside W D R)

def flushHashTreeCache : TreeCache D R := ⟨none, fun _ => none, fun _ => none, []⟩

section

variable (s : State W D R)

def readRpdata : OpError × State W D R :=
  let (rc, w) := P.psdaReadRpdata s.world
  let s := { s with world := w }
  if rc = .success then
    if s.rpdataCacheInitialized && s.cachedRpdata.epoch != s.rpdata.epoch then
      (.internal, s)
    else
      (.success, { s with cachedRpdata := s.rpdata, rpdataCacheInitialized := true })
  else
    (rc, s)

def updateRpdata (rpdataNew : R) : OpError × State W D R :=
  let (reply, w) := P.psdaUpdateRpdata s.cachedRpdata.roothash rpdataNew s.world
  let rpdata := if reply.applied then { s.rpdata with roothash := rpdataNew } else s.rpdata
  let s := { s with world := w, rpdata := rpdata }
  if reply.report = .success then
    if s.rpdataCacheInitialized && s.cachedRpdata.epoch != s.rpdata.epoch then
      (.internal, s)
    else
      (.success, { s with cachedRpdata := ⟨rpdataNew, s.rpdata.epoch⟩, rpdataCacheInitialized := true })
  else
    (reply.report, s)

def resetRpdata : OpError × State W D R :=
  let ((reply, rpdataNew), w) := P.psdaResetRpdata s.cachedRpdata.roothash s.world
  let s := { s with world := w, rpdata := if reply.applied then rpdataNew else s.rpdata }
  if reply.report = .success then
    (.success, { s with cachedRpdata := rpdataNew, rpdataCacheInitialized := true })
  else
    (reply.report, s)

def getCachedRoothash : Option R :=
  if s.rpdataCacheInitialized then some s.cachedRpdata.roothash else none

def getCachedRpepoch : Option UInt32 :=
  if s.rpdataCacheInitialized then some s.cachedRpdata.epoch else none

def clearCachedRpdata : State W D R :=
  { s with cachedRpdata := ⟨P.zeroRoot, 0⟩, rpdataCacheInitialized := false }

end

def parent (i : Nat) : Nat := (i - i % 2) / 2

def setAncestorsIds : Nat → List (Level D) → List (Level D)
  | _, [] => []
  | i, l :: rest =>
    if i = 1 then l :: rest
    else { l with ancestorId := i, brotherId := sibling i } :: setAncestorsIds (parent i) rest

theorem length_setAncestorsIds (i : Nat) (levels : List (Level D)) :
    (setAncestorsIds i levels).length = levels.length := by
  induction levels generalizing i with
  | nil => rfl
  | cons l rest ih =>
    rw [setAncestorsIds]
    split
    . rfl
    . simp [ih]

def setRelatedNodesIds (leafNodeIndex : Nat) (cache : Path D R) : Path D R :=
  { cache with
    selfId := leafNodeIndex
    brotherId := sibling leafNodeIndex
    levels := setAncestorsIds (parent leafNodeIndex) cache.levels
    length_levels := (length_setAncestorsIds _ _).trans cache.length_levels }

def rehash : List (Level D) → D → W → Option (List (Level D) × Option (D × D)) × W
  | [], _, w => (some ([], none), w)
  | [l], hash, w =>
    (some ([{ l with ancestor := hash }], some (order l.ancestorId hash l.brother)), w)
  | l :: l' :: rest, hash, w =>
    let children := order l.ancestorId hash l.brother
    match P.sha256 w with
    | (false, w) => (none, w)
    | (true, w) =>
      match rehash (l' :: rest) (P.hashes.node children.1 children.2) w with
      | (none, w) => (none, w)
      | (some (levels, top), w) => (some ({ l with ancestor := hash } :: levels, top), w)

theorem length_rehash {levels levels' : List (Level D)} {hash : D} {w w' : W} {top : Option (D × D)}
    (h : rehash P levels hash w = (some (levels', top), w')) : levels'.length = levels.length := by
  induction levels generalizing hash w levels' with
  | nil =>
    rw [rehash] at h
    cases h
    rfl
  | cons l rest ih =>
    cases rest with
    | nil =>
      rw [rehash] at h
      cases h
      rfl
    | cons l' rest =>
      rw [rehash] at h
      split at h
      . cases h
      next w1 hsha =>
      split at h
      . cases h
      next levels1 top1 w2 hrest =>
      cases h
      simpa using ih hrest

def hashRoot (s : State W D R) (children : D × D) : Option R × State W D R :=
  match P.copyGlobalPairingNonce s.world with
  | (false, w) => (none, { s with world := w })
  | (true, w) =>
    match getCachedRpepoch s with
    | none => (none, { s with world := w })
    | some epoch =>
      match P.sha256 w with
      | (false, w) => (none, { s with world := w })
      | (true, w) =>
        (some (P.hashes.root (P.pairingNonce, epoch) children.1 children.2), { s with world := w })

def applyFlag (leaf : Leaf D) : LeafnodeFlagOp → Leaf D
  | .setLeafnodeFlag => { leaf with isUsed := 1 }
  | .clrLeafnodeFlag => { leaf with isUsed := 0 }
  | .nonOp => leaf

def updateRelatedNodesOfLeaf (cache : Path D R) (flagOp : LeafnodeFlagOp) (s : State W D R) :
    Option (Path D R) × State W D R :=
  let self := applyFlag cache.self flagOp
  let leaves := order cache.selfId self cache.brother
  match P.sha256 s.world with
  | (false, w) => (none, { s with world := w })
  | (true, w) =>
    match h : rehash P cache.levels (P.hashes.leaf leaves.1 leaves.2) w with
    | (none, w) => (none, { s with world := w })
    | (some (_, none), w) => (none, { s with world := w })
    | (some (levels, some top), w) =>
      match hashRoot P { s with world := w } top with
      | (none, s) => (none, s)
      | (some root, s) =>
        (some { cache with
            self := self, levels := levels, root := root
            length_levels := (length_rehash P h).trans cache.length_levels }, s)

def verifyInternal [DecidableEq D] (upper : Level D) : List (Level D) → W → (OpError × Nat) × W
  | [], w => ((.success, 0), w)
  | lower :: rest, w =>
    let children := order lower.ancestorId lower.ancestor lower.brother
    match P.sha256 w with
    | (false, w) => ((.internal, 0), w)
    | (true, w) =>
      if P.hashes.node children.1 children.2 ≠ upper.ancestor then
        ((.invalidVmcDb, upper.ancestorId), w)
      else verifyInternal lower rest w

def verifyLeaf [DecidableEq D] (cache : Path D R) (w : W) : (OpError × Nat) × W :=
  let leaves := order cache.selfId cache.self cache.brother
  match P.sha256 w with
  | (false, w) => ((.internal, 0), w)
  | (true, w) =>
    match cache.levels with
    | [] => ((.internal, 0), w)
    | l :: _ =>
      if P.hashes.leaf leaves.1 leaves.2 ≠ l.ancestor then ((.invalidVmcDb, l.ancestorId), w)
      else ((.success, 0), w)

def verifyRelatedNodesOfLeaf [DecidableEq D] [DecidableEq R] (cache : Path D R) (s : State W D R) :
    (OpError × Nat) × State W D R :=
  match cache.levels.reverse with
  | [] => ((.internal, 0), s)
  | top :: below =>
    match getCachedRoothash s with
    | none => ((.internal, 0), s)
    | some rpdataRoothash =>
      match hashRoot P s (order top.ancestorId top.ancestor top.brother) with
      | (none, s) => ((.internal, 0), s)
      | (some rootHash, s) =>
        if rootHash ≠ rpdataRoothash then ((.invalidVmcDb, 1), s)
        else
          match verifyInternal P top below s.world with
          | ((.success, _), w) =>
            let (result, w) := verifyLeaf P cache w
            (result, { s with world := w })
          | (result, w) => (result, { s with world := w })

end Vmc
