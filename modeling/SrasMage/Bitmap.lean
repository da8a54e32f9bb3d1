import Mathlib.Algebra.Order.Ring.Nat
import Mathlib.Data.Nat.Init
import Mathlib.Logic.Function.Basic
import Mathlib.Tactic.Common

/-!
This module contains bitmaps that are kept in words of 64 bits.
-/

namespace Bitmap

abbrev Words := Nat → BitVec 64

def bit (words : Words) (n : Nat) : Bool := (words (n / 64)).getLsbD (n % 64)

def setBit (word : BitVec 64) (i : Nat) : BitVec 64 := word ||| BitVec.twoPow 64 i

def clearBit (word : BitVec 64) (i : Nat) : BitVec 64 := word &&& ~~~BitVec.twoPow 64 i

theorem getLsbD_setBit (word : BitVec 64) {i : Nat} (hi : i < 64) (j : Nat) :
    (setBit word i).getLsbD j = if j = i then true else word.getLsbD j := by
  unfold setBit
  rw [BitVec.getLsbD_or, BitVec.getLsbD_twoPow]
  by_cases hj : j = i
  . simp [hj, hi]
  . simp [hj, Ne.symm hj]

theorem getLsbD_clearBit (word : BitVec 64) {i : Nat} (hi : i < 64) (j : Nat) :
    (clearBit word i).getLsbD j = if j = i then false else word.getLsbD j := by
  unfold clearBit
  rw [BitVec.getLsbD_and, BitVec.getLsbD_not, BitVec.getLsbD_twoPow]
  by_cases hj : j = i
  . simp [hj, hi]
  by_cases h64 : j < 64
  . simp [hj, Ne.symm hj, h64]
  . simp [hj, BitVec.getLsbD_of_ge word j (by omega)]

theorem bit_update {words : Words} {i j : Nat} (hj : j < 64) {word : BitVec 64} {b : Bool}
    (hword : ∀ k, word.getLsbD k = if k = j then b else (words i).getLsbD k) :
    bit (Function.update words i word) = Function.update (bit words) (64 * i + j) b := by
  funext n
  unfold bit
  by_cases hn : n / 64 = i
  . rw [hn, Function.update_self, hword]
    by_cases hm : n % 64 = j
    . have heq : n = 64 * i + j := by omega
      rw [if_pos hm, heq, Function.update_self]
    have hne : n ≠ 64 * i + j := by omega
    rw [if_neg hm, Function.update_of_ne hne, hn]
  . have hne : n ≠ 64 * i + j := by omega
    rw [Function.update_of_ne hn, Function.update_of_ne hne]

theorem bit_eq (words : Words) (i : Nat) {j : Nat} (hj : j < 64) : bit words (64 * i + j) = (words i).getLsbD j := by
  unfold bit
  rw [show (64 * i + j) / 64 = i by omega, show (64 * i + j) % 64 = j by omega]

theorem lt_of_getLsbD {word : BitVec 64} {i : Nat} (h : word.getLsbD i = true) : i < 64 := by
  by_contra hge
  rw [BitVec.getLsbD_of_ge word i (by omega)] at h
  cases h

end Bitmap
