import Mathlib.Algebra.Field.Defs
import Mathlib.Algebra.Module.Basic
import Mathlib.Algebra.Order.Ring.Nat

/-!
This module contains the proof that an entry of a revocation list does not revoke a key
(`epid/member/src/nrprove.c`).
-/

namespace Qe

inductive EpidStatus where
  | noErr
  | sigRevokedInSigRl
  | otherErr
deriving DecidableEq

def isIdentity (elem : List UInt8) : Bool := elem.all (· = 0)

structure Epid (F G : Type) [Field F] [AddCommGroup G] [Module F G] where
  readEcPoint : List UInt8 → Option G
  writeEcPoint : G → Vector UInt8 64
  isIdentity_writeEcPoint : ∀ g, isIdentity (writeEcPoint g).toList = true ↔ g = 0
  /-- An exponent other than zero. -/
  mu : Nat → F
  mu_ne_zero : ∀ call, mu call ≠ 0
  signBasic : Nat → F → List UInt8 → List UInt8 → Vector UInt8 352
  /-- The fields of a proof behind `T`, if nothing fails. -/
  respond : Nat → F → List UInt8 → List UInt8 → List UInt8 → List UInt8 → Vector UInt8 64 → Option (Vector UInt8 96)

variable {F G : Type} [Field F] [AddCommGroup G] [Module F G] (epid : Epid F G)

def sizeofG1Elem : Nat := 64
def sizeofNrProof : Nat := 160

def epidNrProve (call : Nat) (f : F) (msg basename sig entry : List UInt8) : EpidStatus × List UInt8 :=
  let failed := (.otherErr, List.replicate sizeofNrProof 0)
  match epid.readEcPoint ((sig.drop sizeofG1Elem).take sizeofG1Elem), epid.readEcPoint (entry.take sizeofG1Elem),
    epid.readEcPoint (entry.drop sizeofG1Elem) with
  | some _, some rlB, some rlK =>
    let d := f • rlB
    let t := epid.writeEcPoint (epid.mu call • rlK + -epid.mu call • d)
    match epid.respond call f msg basename sig entry t with
    | some rest => (if isIdentity t.toList then .sigRevokedInSigRl else .noErr, t.toList ++ rest.toList)
    | none => failed
  | _, _, _ => failed

def Revokes (f : F) (entry : List UInt8) : Prop :=
  ∃ rlB rlK, epid.readEcPoint (entry.take sizeofG1Elem) = some rlB ∧
    epid.readEcPoint (entry.drop sizeofG1Elem) = some rlK ∧ rlK = f • rlB

variable {epid} {call : Nat} {f : F} {msg basename sig entry : List UInt8}

theorem length_epidNrProve : (epidNrProve epid call f msg basename sig entry).2.length = sizeofNrProof := by
  unfold epidNrProve
  dsimp only
  split
  . split
    . rw [List.length_append, Vector.length_toList, Vector.length_toList]
      rfl
    . exact List.length_replicate
  . exact List.length_replicate

theorem epidNrProve_revoked_iff (h : (epidNrProve epid call f msg basename sig entry).1 ≠ .otherErr) :
    (epidNrProve epid call f msg basename sig entry).1 = .sigRevokedInSigRl ↔ Revokes epid f entry := by
  revert h
  unfold epidNrProve
  dsimp only
  split
  . next rlB rlK _ hB hK =>
    have hidentity : isIdentity (epid.writeEcPoint (epid.mu call • rlK + -epid.mu call • f • rlB)).toList = true ↔
        rlK = f • rlB := by
      rw [epid.isIdentity_writeEcPoint, neg_smul, ← sub_eq_add_neg, ← smul_sub,
        (isUnit_iff_ne_zero.2 (epid.mu_ne_zero call)).smul_eq_zero, sub_eq_zero]
    have hrevokes : Revokes epid f entry ↔ rlK = f • rlB := by
      constructor
      . rintro ⟨rlB', rlK', hB', hK', heq⟩
        rw [hB] at hB'
        rw [hK] at hK'
        cases hB'
        cases hK'
        exact heq
      . intro heq
        exact ⟨rlB, rlK, hB, hK, heq⟩
    rw [hrevokes, ← hidentity]
    split
    . intro _
      dsimp only
      split
      . next hid => exact iff_of_true rfl hid
      . next hid => exact iff_of_false nofun hid
    . intro h
      exact absurd rfl h
  . intro h
    exact absurd rfl h

theorem not_revokes_of_noErr (h : (epidNrProve epid call f msg basename sig entry).1 = .noErr) :
    ¬Revokes epid f entry := by
  have hne : (epidNrProve epid call f msg basename sig entry).1 ≠ .otherErr := by
    rw [h]
    decide
  rw [← epidNrProve_revoked_iff hne, h]
  decide

end Qe
