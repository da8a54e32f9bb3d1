import SrasMage.Memory
import SrasMage.Trts.Heap
import Mathlib.Data.Set.Basic

/-!
This module contains the initialisation of an enclave (`init_enclave`).
-/

namespace Trts

open List

def sizeofSystemFeatures : Nat := 172

def systemFeatureSetOffset : Nat := 12
def sizeOffset : Nat := 156
def cpuFeaturesExtOffset : Nat := 164

def sysFeatureExtend : Nat := 62

abbrev Copy := Nat → UInt8

def Copy.field (copy : Copy) (offset size : Nat) : Nat := Memory.ofBytes (Memory.load copy offset size)

def Copy.isExtended (copy : Copy) : Bool := (copy.field systemFeatureSetOffset 8).testBit sysFeatureExtend

structure Cleared where
  writes : List Nat
  copy : Copy
  finished : Bool

def clear (reads : Nat → UInt64) : Nat → Nat → Nat → Copy → Cleared
  | 0, _, _, copy => ⟨[], copy, false⟩
  | fuel + 1, i, k, copy =>
    if i < (sizeofSystemFeatures + 2 ^ 64 - (reads k).toNat) % 2 ^ 64 then
      let addr := ((reads (k + 1)).toNat + i) % 2 ^ 64
      let res := clear reads fuel ((i + 1) % 2 ^ 64) (k + 2) (Function.update copy addr 0)
      { res with writes := addr :: res.writes }
    else ⟨[], copy, true⟩

def zeroField (offset size : Nat) (res : Cleared) : Cleared :=
  { res with
    writes := res.writes ++ range' offset size
    copy := Memory.store res.copy offset (replicate size 0) }

def normalise (reads : Nat → UInt64) (fuel : Nat) (copy : Copy) : Option Nat × Cleared :=
  if copy.isExtended then
    if (reads 0).toNat < sizeofSystemFeatures then (some (reads 0).toNat, clear reads fuel 0 1 copy)
    else (some (reads 0).toNat, ⟨[], copy, true⟩)
  else (none, zeroField cpuFeaturesExtOffset 8 (zeroField sizeOffset 8 ⟨[], copy, true⟩))

structure Normal (res : Option Nat × Cleared) : Prop where
  inside : ∀ a ∈ res.2.writes, a < sizeofSystemFeatures
  zero : res.2.finished = true → ∀ size, res.1 = some size →
    ∀ i, size ≤ i → i < sizeofSystemFeatures → res.2.copy i = 0

theorem clear_eq (reads : Nat → UInt64) (fuel : Nat) {bound addr : Nat} (hbound : bound ≤ sizeofSystemFeatures)
    (haddr : addr ≤ sizeofSystemFeatures) {i k : Nat}
    (hreads : ∀ n, (reads (k + 2 * n)).toNat = bound ∧ (reads (k + 2 * n + 1)).toNat = addr)
    (hi : i + bound ≤ sizeofSystemFeatures) (copy : Copy) :
    let n := min fuel (sizeofSystemFeatures - bound - i)
    let res := clear reads fuel i k copy
    res.writes = range' (addr + i) n ∧ (res.finished = true ↔ sizeofSystemFeatures - bound - i < fuel) ∧
      ∀ j, res.copy j = if addr + i ≤ j ∧ j < addr + i + n then 0 else copy j := by
  induction fuel generalizing i k copy with
  | zero =>
    refine ⟨by simp [clear], by simp [clear], fun j => ?_⟩
    rw [if_neg (by omega)]
    rfl
  | succ fuel ih =>
    obtain ⟨hb, ha⟩ := hreads 0
    rw [Nat.mul_zero, Nat.add_zero] at hb ha
    have hlimit : (sizeofSystemFeatures + 2 ^ 64 - bound) % 2 ^ 64 = sizeofSystemFeatures - bound := by
      unfold sizeofSystemFeatures at *
      omega
    have hnext : (i + 1) % 2 ^ 64 = i + 1 := by
      unfold sizeofSystemFeatures at *
      omega
    have hwrite : (addr + i) % 2 ^ 64 = addr + i := by
      unfold sizeofSystemFeatures at *
      omega
    unfold clear
    rw [hb, ha, hlimit, hnext, hwrite]
    by_cases hlt : i < sizeofSystemFeatures - bound
    . rw [if_pos hlt]
      obtain ⟨hwrites, hfinished, hcopy⟩ := ih (i := i + 1) (k := k + 2)
        (fun n => by rw [show k + 2 + 2 * n = k + 2 * (n + 1) by omega]; exact hreads (n + 1)) (by omega)
        (Function.update copy (addr + i) 0)
      obtain ⟨n, hn⟩ : ∃ n, min fuel (sizeofSystemFeatures - bound - (i + 1)) = n := ⟨_, rfl⟩
      have hsucc : min (fuel + 1) (sizeofSystemFeatures - bound - i) = n + 1 := by omega
      rw [hn] at hwrites hcopy
      dsimp only
      rw [hsucc]
      refine ⟨?_, ?_, fun j => ?_⟩
      . rw [hwrites, range'_succ, Nat.add_assoc]
      . rw [hfinished]
        omega
      rw [hcopy j]
      by_cases hj : j = addr + i
      . subst hj
        rw [if_neg (by omega), if_pos (by omega), Function.update_self]
      rw [Function.update_of_ne hj]
      by_cases hin : addr + (i + 1) ≤ j ∧ j < addr + (i + 1) + n
      . rw [if_pos hin, if_pos (by omega)]
      . rw [if_neg hin, if_neg (by omega)]
    . rw [if_neg hlt]
      have hn : min (fuel + 1) (sizeofSystemFeatures - bound - i) = 0 := by omega
      dsimp only
      rw [hn]
      refine ⟨rfl, ⟨fun _ => by omega, fun _ => rfl⟩, fun j => ?_⟩
      rw [if_neg (by omega)]

theorem normalise_of_const {reads : Nat → UInt64}
    (h : (reads 0).toNat < sizeofSystemFeatures → ∀ k, reads k = reads 0) (fuel : Nat) (copy : Copy) :
    Normal (normalise reads fuel copy) ∧ (sizeofSystemFeatures < fuel → (normalise reads fuel copy).2.finished) := by
  unfold normalise
  split
  . split
    next hlt =>
      obtain ⟨hwrites, hfinished, hcopy⟩ := clear_eq reads fuel (k := 1) (i := 0) hlt.le hlt.le
        (fun n => ⟨by rw [h hlt], by rw [h hlt]⟩) (by omega) copy
      refine ⟨⟨fun a ha => ?_, fun hdone size hsize i hi hi' => ?_⟩, fun hfuel => hfinished.2 (by omega)⟩
      . rw [hwrites, mem_range'_1] at ha
        omega
      cases hsize
      have hfuel := hfinished.1 hdone
      rw [hcopy i, if_pos (by omega)]
    next hge =>
      refine ⟨⟨nofun, fun _ size hsize i hi hi' => ?_⟩, fun _ => rfl⟩
      cases hsize
      omega
  . refine ⟨⟨fun a ha => ?_, fun _ size hsize => by cases hsize⟩, fun _ => rfl⟩
    rw [zeroField, zeroField, nil_append, mem_append, mem_range'_1, mem_range'_1] at ha
    unfold sizeOffset cpuFeaturesExtOffset at ha
    unfold sizeofSystemFeatures
    omega

def switching (size addr : UInt64) (k : Nat) : UInt64 := if k ≠ 0 ∧ k % 2 = 0 then addr else size

theorem switching_bound (size addr : UInt64) (n : Nat) :
    switching size addr (1 + 2 * n) = size ∧ switching size addr (1 + 2 * n + 1) = addr := by
  unfold switching
  rw [if_neg (by omega), if_pos (by omega)]
  exact ⟨rfl, rfl⟩

def filled : Copy := fun _ => 255

theorem normalise_switching {size addr : UInt64} (hsize : size.toNat < sizeofSystemFeatures) (fuel : Nat) :
    normalise (switching size addr) fuel filled = (some size.toNat, clear (switching size addr) fuel 0 1 filled) := by
  have hext : filled.isExtended = true := by decide +kernel
  have hzero : switching size addr 0 = size := rfl
  unfold normalise
  rw [if_pos hext, hzero, if_pos hsize]

theorem not_normal_of_outside {size addr : UInt64} (hsize : size.toNat < sizeofSystemFeatures)
    (haddr : sizeofSystemFeatures ≤ addr.toNat) : ¬Normal (normalise (switching size addr) 1 filled) := by
  intro h
  rw [normalise_switching hsize] at h
  have hb := (switching_bound size addr 0).1
  have ha := (switching_bound size addr 0).2
  have hmem : addr.toNat ∈ (clear (switching size addr) 1 0 1 filled).writes := by
    unfold clear
    rw [hb, ha, Nat.add_zero, Nat.mod_eq_of_lt addr.toNat_lt, if_pos]
    . exact mem_cons_self
    unfold sizeofSystemFeatures at *
    omega
  exact absurd (h.inside _ hmem) (by omega)

theorem not_normal_of_ne {size addr : UInt64} (hsize : size.toNat < sizeofSystemFeatures)
    (haddr : addr.toNat < sizeofSystemFeatures) (hne : addr ≠ size) :
    ¬Normal (normalise (switching size addr) (sizeofSystemFeatures + 1) filled) := by
  intro h
  rw [normalise_switching hsize] at h
  obtain ⟨hwrites, hfinished, hcopy⟩ := clear_eq (switching size addr)
    (sizeofSystemFeatures + 1) (k := 1) (i := 0) hsize.le haddr.le
    (fun n => ⟨congrArg _ (switching_bound size addr n).1, congrArg _ (switching_bound size addr n).2⟩)
    (by omega) filled
  rcases Nat.lt_trichotomy size.toNat addr.toNat with hlt | heq | hgt
  . refine absurd (h.inside sizeofSystemFeatures ?_) (Nat.lt_irrefl _)
    rw [hwrites, mem_range'_1]
    omega
  . exact hne (UInt64.toNat_inj.1 heq.symm)
  . have hlast := h.zero (hfinished.2 (by omega)) _ rfl (sizeofSystemFeatures - 1) (by omega) (by omega)
    rw [hcopy, if_neg (by omega)] at hlast
    exact absurd hlast (by decide)

def Unchanging (sizes : Set UInt64) : Prop :=
  ∀ size ∈ sizes, size.toNat < sizeofSystemFeatures → ∀ other ∈ sizes, other = size

/--
The hosts that the normalisation is safe against, by the values that `info->size` takes. Against these it comes to
its end.
-/
theorem normalise_safe_iff (sizes : Set UInt64) :
    ((∀ reads : Nat → UInt64, (∀ k, reads k ∈ sizes) → ∀ fuel copy, Normal (normalise reads fuel copy)) ↔
      Unchanging sizes) ∧
    (Unchanging sizes → ∀ reads : Nat → UInt64, (∀ k, reads k ∈ sizes) → ∀ fuel > sizeofSystemFeatures, ∀ copy,
      (normalise reads fuel copy).2.finished = true) := by
  have hconst : Unchanging sizes → ∀ reads : Nat → UInt64, (∀ k, reads k ∈ sizes) →
      (reads 0).toNat < sizeofSystemFeatures → ∀ k, reads k = reads 0 :=
    fun h reads hreads hlt k => h _ (hreads 0) hlt _ (hreads k)
  refine ⟨⟨?_, ?_⟩, ?_⟩
  . intro h size hmem hsize addr haddr
    have hreads : ∀ k, switching size addr k ∈ sizes := by
      intro k
      unfold switching
      split
      . exact haddr
      . exact hmem
    by_contra hne
    by_cases hlt : addr.toNat < sizeofSystemFeatures
    . exact not_normal_of_ne hsize hlt hne (h _ hreads _ _)
    . exact not_normal_of_outside hsize (by omega) (h _ hreads _ _)
  . intro h reads hreads fuel copy
    exact (normalise_of_const (hconst h reads hreads) fuel copy).1
  . intro h reads hreads fuel hfuel copy
    exact (normalise_of_const (hconst h reads hreads) fuel copy).2 hfuel

theorem normalise_writes_outside :
    (List.range 3).map (switching 100 1000) = [100, 100, 1000] ∧
      (normalise (switching 100 1000) 1 filled).2.writes = [1000] ∧
      ¬ Normal (normalise (switching 100 1000) 1 filled) :=
  ⟨by decide, by decide +kernel, not_normal_of_outside (by decide) (by decide)⟩

end Trts
