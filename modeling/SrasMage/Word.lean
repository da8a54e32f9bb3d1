import Mathlib.Algebra.Order.Ring.Nat
import Mathlib.Data.Nat.Bitwise

/-!
This module contains the parts of 64 bit arithmetic that natural numbers do not have.
-/

namespace Word

open Nat

def alignDown (x a : Nat) : Nat := x &&& (2 ^ 64 - a)

theorem testBit_mask {k : Nat} (hk : k ≤ 64) (i : Nat) :
    (2 ^ 64 - 2 ^ k).testBit i = (decide (i < 64) && decide (k ≤ i)) := by
  have hmask : 2 ^ 64 - 2 ^ k = 2 ^ 64 - ((2 ^ k - 1) + 1) := by rw [Nat.sub_add_cancel Nat.one_le_two_pow]
  have hlt : 2 ^ k - 1 < 2 ^ 64 :=
    Nat.lt_of_lt_of_le (Nat.sub_lt Nat.one_le_two_pow Nat.one_pos) (Nat.pow_le_pow_right (by decide) hk)
  rw [hmask, Nat.testBit_two_pow_sub_succ hlt, Nat.testBit_two_pow_sub_one]
  congr 1
  rw [← decide_not, decide_eq_decide]
  omega

theorem alignDown_two_pow {x k : Nat} (hx : x < 2 ^ 64) (hk : k ≤ 64) : alignDown x (2 ^ k) = x - x % 2 ^ k := by
  have hdiv : x - x % 2 ^ k = x / 2 ^ k * 2 ^ k := by
    have := div_add_mod' x (2 ^ k)
    omega
  rw [hdiv]
  apply eq_of_testBit_eq
  intro i
  rw [alignDown, testBit_and, testBit_mask hk, testBit_mul_two_pow, testBit_div_two_pow]
  by_cases hi : k ≤ i
  . rw [Nat.sub_add_cancel hi]
    by_cases h64 : i < 64
    . simp [hi, h64]
    have hzero : x.testBit i = false :=
      Nat.testBit_lt_two_pow (Nat.lt_of_lt_of_le hx (Nat.pow_le_pow_right (by decide) (by omega)))
    simp [hzero]
  . simp [hi]

theorem and_add_and_compl {x mask : Nat} (hx : x < 2 ^ 64) (hmask : mask < 2 ^ 64) :
    (x &&& mask) + (x &&& (2 ^ 64 - 1 - mask)) = x := by
  let a := BitVec.ofNat 64 x
  let b := BitVec.ofNat 64 mask
  have hzero : (a &&& b) &&& (a &&& ~~~b) = 0#64 := by
    ext i hi
    simp only [BitVec.getElem_and, BitVec.getElem_not, BitVec.getElem_zero]
    cases a[i] <;> cases b[i] <;> rfl
  have hor : (a &&& b) ||| (a &&& ~~~b) = a := by
    ext i hi
    simp only [BitVec.getElem_or, BitVec.getElem_and, BitVec.getElem_not]
    cases a[i] <;> cases b[i] <;> rfl
  have hadd := BitVec.toNat_add_of_and_eq_zero hzero
  rw [BitVec.add_eq_or_of_and_eq_zero _ _ hzero, hor] at hadd
  simp only [BitVec.toNat_and, BitVec.toNat_not] at hadd
  have ha : a.toNat = x := mod_eq_of_lt hx
  have hb : b.toNat = mask := mod_eq_of_lt hmask
  rw [ha, hb] at hadd
  exact hadd.symm

def alignMask (align : Nat) : Nat := (align + (2 ^ 64 - 1)) % 2 ^ 64

def roundTo (x align : Nat) : Nat :=
  (x + alignMask align) % 2 ^ 64 &&& (2 ^ 64 - 1 - alignMask align)

theorem alignMask_lt (align : Nat) : alignMask align < 2 ^ 64 := Nat.mod_lt _ (Nat.two_pow_pos 64)

theorem le_roundTo {x align : Nat} (h : x + alignMask align < 2 ^ 64) : x ≤ roundTo x align := by
  have hsplit := and_add_and_compl h (alignMask_lt align)
  have hlow : (x + alignMask align) &&& alignMask align ≤ alignMask align := and_le_right
  unfold roundTo
  rw [mod_eq_of_lt h]
  omega

theorem roundTo_mod {x align k : Nat} (hk : k ≤ 64) (h : 2 ^ k ∣ align) : roundTo x align % 2 ^ k = 0 := by
  have hmask : alignMask align % 2 ^ k = 2 ^ k - 1 := by
    have hle : 2 ^ k ∣ 2 ^ 64 := pow_dvd_pow 2 hk
    have hsum : align + (2 ^ 64 - 1) = align + (2 ^ 64 - 2 ^ k) + (2 ^ k - 1) := by
      have := Nat.le_of_dvd (by decide) hle
      have := Nat.two_pow_pos k
      omega
    have hdvd : 2 ^ k ∣ align + (2 ^ 64 - 2 ^ k) := Nat.dvd_add h (Nat.dvd_sub hle (Nat.dvd_refl _))
    have hlt : 2 ^ k - 1 < 2 ^ k := Nat.sub_lt (Nat.two_pow_pos k) Nat.one_pos
    rw [alignMask, Nat.mod_mod_of_dvd _ hle, hsum, Nat.add_mod, Nat.mod_eq_zero_of_dvd hdvd, Nat.zero_add,
      Nat.mod_mod, Nat.mod_eq_of_lt hlt]
  apply eq_of_testBit_eq
  intro i
  rw [testBit_mod_two_pow, zero_testBit]
  by_cases hi : i < k
  . have hbit : (alignMask align).testBit i = true := by
      have hlow := congrArg (fun n => n.testBit i) hmask
      simpa [testBit_mod_two_pow, testBit_two_pow_sub_one, hi] using hlow
    have hcompl : (2 ^ 64 - 1 - alignMask align).testBit i = false := by
      rw [Nat.sub_sub, Nat.add_comm 1, Nat.testBit_two_pow_sub_succ (alignMask_lt align), hbit]
      simp
    rw [roundTo, Nat.testBit_and, hcompl]
    simp
  . simp [hi]

def lastOf (addr size : Nat) : Nat := if size > 0 then (addr + size - 1) % 2 ^ 64 else addr

theorem le_lastOf {addr size : Nat} (haddr : addr < 2 ^ 64) (hsize : size < 2 ^ 64)
    (hle : addr ≤ lastOf addr size) : lastOf addr size + 1 = addr + max size 1 ∧ addr + size ≤ 2 ^ 64 := by
  unfold lastOf at *
  split at hle
  . next hpos =>
    have hlt : addr + size - 1 < 2 ^ 64 := by
      by_contra hge
      have hmod : (addr + size - 1) % 2 ^ 64 = addr + size - 1 - 2 ^ 64 := by
        rw [mod_eq_sub_mod (by omega), mod_eq_of_lt (by omega)]
      omega
    rw [if_pos hpos, mod_eq_of_lt hlt]
    omega
  . next hzero =>
    rw [if_neg hzero]
    omega

end Word
