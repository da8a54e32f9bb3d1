import SrasMage.Word
import SrasMage.Sgx

/-!
This module contains the range of an enclave and the checks of `sdk/trts/trts.cpp` whether a buffer is
within it or outside of it.
-/

namespace Trts

open Word

export Sgx (sePageSize trimToPage)

theorem trimToPage_eq (x : Nat) : trimToPage x = x - x % 4096 := rfl

inductive Outcome (α : Type) where
  | abort
  | running
  | done (a : α)
deriving DecidableEq

instance : Monad Outcome where
  pure := .done
  bind
    | .abort, _ => .abort
    | .running, _ => .running
    | .done a, f => f a

theorem Outcome.done_bind {α β : Type} (a : α) (f : α → Outcome β) : (Outcome.done a >>= f) = f a := rfl

theorem Outcome.bind_eq_done {α β : Type} {x : Outcome α} {f : α → Outcome β} {b : β}
    (h : (x >>= f) = .done b) : ∃ a, x = .done a ∧ f a = .done b := by
  cases x with
  | done a => exact ⟨a, rfl, h⟩
  | _ => cases h

def Outcome.loop {σ : Type} (cond : σ → Bool) (body : σ → σ) : Nat → σ → Outcome σ
  | 0, _ => .running
  | fuel + 1, s => if cond s then loop cond body fuel (body s) else .done s

structure Enclave where
  base : Nat
  size : Nat
  pos : 0 < size
  fits : base + size ≤ 2 ^ 64
  base_aligned : sePageSize ∣ base
  size_aligned : sePageSize ∣ size

namespace Enclave

variable (E : Enclave)

def Contains (a : Nat) : Prop := E.base ≤ a ∧ a < E.base + E.size

instance (a : Nat) : Decidable (E.Contains a) := inferInstanceAs (Decidable (_ ∧ _))

def last : Nat := E.base + E.size - 1

def sgxIsWithinEnclave (addr size : Nat) : Bool :=
  let last := lastOf addr size
  addr ≤ last && addr ≥ E.base && last ≤ E.last

def sgxIsOutsideEnclave (addr size : Nat) : Bool :=
  let last := lastOf addr size
  addr ≤ last && (last < E.base || addr > E.last)

variable {E} {addr size : Nat}

theorem sgxIsOutsideEnclave_bounds (h : E.sgxIsOutsideEnclave addr size = true) (haddr : addr < 2 ^ 64)
    (hsize : size < 2 ^ 64) :
    addr + size ≤ 2 ^ 64 ∧ (addr + max size 1 ≤ E.base ∨ E.base + E.size ≤ addr) := by
  unfold sgxIsOutsideEnclave at h
  simp only [Bool.and_eq_true, Bool.or_eq_true, decide_eq_true_eq] at h
  obtain ⟨hle, hside⟩ := h
  obtain ⟨hlast, hfits⟩ := le_lastOf haddr hsize hle
  refine ⟨hfits, ?_⟩
  have hpos := E.pos
  unfold last at hside
  omega

theorem not_contains_of_outside (h : E.sgxIsOutsideEnclave addr size = true) (haddr : addr < 2 ^ 64)
    (hsize : size < 2 ^ 64) {a : Nat} (hle : addr ≤ a) (hlt : a < addr + size) : ¬ E.Contains a := by
  have := sgxIsOutsideEnclave_bounds h haddr hsize
  unfold Contains
  omega

end Enclave

structure EcallInfo where
  ecallAddr : Nat
  isPriv : UInt8

end Trts
