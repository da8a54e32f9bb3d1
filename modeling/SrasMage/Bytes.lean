import Mathlib.Algebra.Order.Ring.Nat
import Mathlib.Data.List.Basic

/-!
This module contains sequences given as functions on positions.
-/

namespace Bytes

open List

variable {α : Type}

variable (f : Nat → α)

def tabulate (size : Nat) : List α := (range size).map f

def splice (offset n : Nat) (g : Nat → α) : Nat → α :=
  fun o => if offset ≤ o ∧ o < offset + n then g (o - offset) else f o

def overwrite (xs : List α) (offset : Nat) (ys : List α) : List α :=
  xs.take offset ++ ys ++ xs.drop (offset + ys.length)

@[simp]
theorem length_tabulate (size : Nat) : (tabulate f size).length = size := by simp [tabulate]

@[simp]
theorem tabulate_zero : tabulate f 0 = [] := rfl

theorem getElem_tabulate (size i : Nat) (h : i < (tabulate f size).length) : (tabulate f size)[i] = f i := by
  simp [tabulate]

theorem tabulate_congr {f g : Nat → α} {size : Nat} (h : ∀ i < size, f i = g i) :
    tabulate f size = tabulate g size := by
  apply map_congr_left
  intro i hi
  exact h i (mem_range.1 hi)

theorem tabulate_add (n m : Nat) : tabulate f (n + m) = tabulate f n ++ tabulate (fun i => f (n + i)) m := by
  simp [tabulate, range_add, Function.comp_def]

theorem take_drop_tabulate {size offset n : Nat} (h : offset + n ≤ size) :
    ((tabulate f size).drop offset).take n = tabulate (fun i => f (offset + i)) n := by
  apply ext_getElem
  . simp only [length_take, length_drop, length_tabulate]
    omega
  intro i hi hi'
  simp [getElem_tabulate]

@[simp]
theorem splice_zero (offset : Nat) (g : Nat → α) : splice f offset 0 g = f := by
  funext o
  rw [splice, if_neg]
  omega

theorem splice_of_lt (g : Nat → α) {offset n o : Nat} (h : o < offset) : splice f offset n g o = f o := by
  rw [splice, if_neg]
  omega

theorem splice_splice (offset n m : Nat) (g : Nat → α) :
    splice (splice f offset n g) (offset + n) m (fun i => g (n + i)) = splice f offset (n + m) g := by
  funext o
  simp only [splice]
  by_cases h1 : offset + n ≤ o ∧ o < offset + n + m
  . rw [if_pos h1, if_pos (by omega)]
    congr 1
    omega
  rw [if_neg h1]
  by_cases h2 : offset ≤ o ∧ o < offset + n
  . rw [if_pos h2, if_pos (by omega)]
  . rw [if_neg h2, if_neg (by omega)]

@[simp]
theorem overwrite_nil (xs : List α) (offset : Nat) : overwrite xs offset [] = xs := by simp [overwrite]

theorem length_overwrite {xs : List α} {offset : Nat} (h : offset ≤ xs.length) (ys : List α) :
    (overwrite xs offset ys).length = max xs.length (offset + ys.length) := by
  simp only [overwrite, length_append, length_take, length_drop]
  omega

theorem tabulate_splice (g : Nat → α) {size offset n : Nat} (h : offset ≤ size) :
    tabulate (splice f offset n g) (max size (offset + n)) =
    overwrite (tabulate f size) offset (tabulate g n) := by
  apply ext_getElem
  . rw [length_overwrite (by simpa using h)]
    simp
  intro i hi hi'
  rw [getElem_tabulate, splice]
  simp only [overwrite, getElem_append, length_append, length_take,
    length_tabulate, getElem_drop, getElem_take, getElem_tabulate]
  rw [length_tabulate] at hi
  split
  . rw [dif_pos (by omega), dif_neg (by omega)]
    congr 1
    omega
  split
  . rw [dif_pos (by omega)]
  congr 1
  omega

end Bytes
