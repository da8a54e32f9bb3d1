import SrasMage.Vmc.Rpdb
import Mathlib.Data.Nat.Pairing

/-!
This module contains an honest database.
-/

namespace Vmc

open Merkle Nat

variable {D R : Type}

@[ext]
structure Db (D : Type) where
  internal : Nat → D
  leaf : Nat → Leaf D

namespace Db

variable (db : Db D)

def levels : Nat → Nat → List (Level D)
  | 0, _ => []
  | n + 1, i => ⟨i, db.internal i, sibling i, db.internal (sibling i)⟩ :: levels n (i / 2)

theorem length_levels (n i : Nat) : (db.levels n i).length = n := by
  induction n generalizing i with
  | zero => rfl
  | succ n ih => simp [levels, ih]

def branch (S : Suite D R) (leafId : Nat) : Path D R :=
  ⟨leafId, db.leaf leafId, sibling leafId, db.leaf (sibling leafId),
    db.levels initInternalNodeNr (leafId / 2), db.length_levels _ _, S.zeroRoot⟩

end Db

def storeInternals : List (Level D) → (Nat → D) → Nat → D
  | [], f => f
  | l :: rest, f =>
    storeInternals rest (Function.update (Function.update f l.ancestorId l.ancestor) l.brotherId l.brother)

def Db.store (db : Db D) (path : Path D R) : Db D where
  internal := storeInternals path.levels db.internal
  leaf := Function.update (Function.update db.leaf path.selfId path.self) path.brotherId path.brother

def Suite.emptyDb (S : Suite D R) : Db D where
  internal i := S.internalNodeHashValueTable (initInternalNodeNr - log2 i)
  leaf _ := S.zeroLeaf

inductive CsmeError where
  | busy | internal | invalidEphSession | sessionLost | capNotAvailable | invalidParameter

def CsmeError.toOpError : CsmeError → OpError
  | .busy => .psdaBusy
  | .internal => .internal
  | .invalidEphSession => .invalidEphSession
  | .sessionLost => .psdaSessionLost
  | .capNotAvailable => .capNotAvailable
  | .invalidParameter => .invalidParameter

def Reply.accepted : Reply := ⟨.success, true⟩

def Reply.refused (e : CsmeError) : Reply := ⟨e.toOpError, false⟩

structure Disk (D R : Type) where
  file : Db D
  backup : Db D
  unconfirmed : Option Nat
  updates : List (Option CsmeError)
  resets : List (Rpdata R)
  offers : List Nat
  nonces : List Nonce

def Disk.offer (w : Disk D R) : OpError × Int :=
  let k := w.offers.headD initLeafNodeIdBase
  if initLeafNodeIdBase ≤ k ∧ k ≤ initMaxLeafNodeId ∧ (w.file.leaf k).isUsed = 0 then (.success, k)
  else (.databaseFull, 0)

def honest (S : Suite D R) : Outside (Disk D R) D R where
  toSuite := S
  sha256 w := (true, w)
  malloc w := (true, w)
  copyGlobalPairingNonce w := (true, w)
  readRand w := (some (w.nonces.headD 0), { w with nonces := w.nonces.tail })
  psdaReadRpdata w := (.success, w)
  psdaUpdateRpdata _ _ w :=
    match w.updates.headD none with
    | none => (.accepted, { w with updates := w.updates.tail, unconfirmed := none })
    | some e => (.refused e, { w with updates := w.updates.tail })
  psdaResetRpdata _ w :=
    ((.accepted, w.resets.headD ⟨S.zeroRoot, 0⟩), { w with resets := w.resets.tail })
  sqliteReadDb leafId w := (some (.success, w.file.branch S leafId), w)
  sqliteWriteDb path _ _ w :=
    (some .success, { w with backup := w.file, file := w.file.store path, unconfirmed := some path.selfId })
  sqliteReadChildrenOfRoot w := (some (.success, w.file.internal 2, w.file.internal 3), w)
  sqliteGetEmptyLeafnode _ w := (some w.offer, { w with offers := w.offers.tail })
  sqliteDbInitHashTreeTable w := (some .success, { w with file := S.emptyDb })
  sqliteRollbackDbFile w := (some .success, { w with file := w.backup })

namespace Toy

def code (a : Leaf Nat) : Nat :=
  pair a.isUsed.toNat (pair a.nonce.toNat (pair a.value.toNat (pair a.ownerPolicy.toNat
    (pair a.ownerMaskFlags.toNat (pair a.ownerMaskXfrm.toNat (pair a.ownerId a.ownerSvn.toNat))))))

def suite : Suite Nat Nat where
  hashes := ⟨fun a b => pair (code a) (code b), pair, fun e l r => pair e.1.toNat (pair e.2.toNat (pair l r))⟩
  ownerHash mr _ _ _ := mr.length
  zeroDigest := 0
  zeroRoot := 0
  pairingNonce := 0

theorem code_injective : Function.Injective code := by
  rintro ⟨u, n, v, p, f, x, i, o⟩ ⟨u', n', v', p', f', x', i', o'⟩ h
  simp only [code, pair_eq_pair, UInt8.toNat_inj, BitVec.toNat_inj, UInt32.toNat_inj,
    UInt16.toNat_inj, UInt64.toNat_inj] at h
  obtain ⟨rfl, rfl, rfl, rfl, rfl, rfl, rfl, rfl⟩ := h
  rfl

theorem collisionFree : CollisionFree suite.hashes where
  leaf_inj h := by
    simp only [suite, pair_eq_pair] at h
    exact ⟨code_injective h.1, code_injective h.2⟩
  node_inj h := by
    simpa only [suite, pair_eq_pair] using h
  root_inj h := by
    simp only [suite, pair_eq_pair] at h
    exact h.2.2

def emptyRpdata : Rpdata Nat :=
  let child := suite.internalNodeHashValueTable (initMaxHashTreeLayer - 3)
  ⟨suite.hashes.root (suite.pairingNonce, 3) child child, 3⟩

def owner : IsvAttributes := ⟨1, 2, 0, 0, 0, 0⟩

def request : Leaf Nat := ⟨0, 0, 0, mcPolicySigner, 0, 0, 0, 0⟩

def disk : Disk Nat Nat :=
  ⟨suite.emptyDb, suite.emptyDb, none, [none, some .busy], [⟨0, 4⟩], [initLeafNodeIdBase], [77]⟩

abbrev fresh : State (Disk Nat Nat) Nat Nat := .loaded (honest suite) disk emptyRpdata

def counterA : Uuid := ⟨0, 77⟩

def counterB : Uuid := ⟨5, 78⟩

end Toy

end Vmc
