import SrasMage.Trts.Enclave

/-!
This module contains how the trusted runtime accepts and gives up pages (`sdk/trts/trts_add_trim.cpp`).
-/

namespace Trts

open Nat Function

abbrev Pages := Nat → Bool

structure Layout where
  heapBase : Nat
  heapSize : Nat
  heapMinSize : Nat
  elsewhere : Nat → Nat → Option Bool
  heapBase_lt : heapBase < 2 ^ 64
  heapSize_lt : heapSize < 2 ^ 64
  heapMinSize_lt : heapMinSize < 2 ^ 64

def doEaccept (accept : Bool) (addr : Nat) (pages : Pages) : Pages := update pages addr accept

def sgxAcceptForward (accept : Bool) (hi fuel lo : Nat) (pages : Pages) : Outcome (Nat × Pages) :=
  Outcome.loop (fun s => s.1 < hi) (fun s => ((s.1 + sePageSize) % 2 ^ 64, doEaccept accept s.1 s.2)) fuel (lo, pages)

def pageBelow (addr : Nat) : Nat := (addr + 2 ^ 64 - sePageSize) % 2 ^ 64

def sgxAcceptBackward (lo fuel hi : Nat) (pages : Pages) : Outcome (Nat × Pages) :=
  Outcome.loop (fun s => lo < s.1) (fun s => (pageBelow s.1, doEaccept true (pageBelow s.1) s.2)) fuel (hi, pages)

def pageBytes (pageCount : Nat) : Nat := pageCount * sePageSize % 2 ^ 64

def checkHeapDynRange (L : Layout) (addr pageCount : Nat) : Bool :=
  let heapDynStart := (L.heapBase + L.heapMinSize) % 2 ^ 64
  let heapDynSize := (L.heapSize + 2 ^ 64 - L.heapMinSize) % 2 ^ 64
  addr ≥ heapDynStart && (addr + pageBytes pageCount) % 2 ^ 64 ≤ (heapDynStart + heapDynSize) % 2 ^ 64

def checkDynamicRange (L : Layout) (addr pageCount : Nat) : Option Bool :=
  if addr > 2 ^ 64 - 1 - pageBytes pageCount then none
  else if checkHeapDynRange L addr pageCount then some false
  else L.elsewhere addr pageCount

def faults (startAddress pageCount : Nat) : Bool := pageBytes pageCount ≠ 0 && startAddress % sePageSize ≠ 0

def applyEpcPages (L : Layout) (startAddress pageCount : Nat) (pages : Pages) : Outcome (Bool × Pages) :=
  if startAddress = 0 then .done (false, pages)
  else
    match checkDynamicRange L startAddress pageCount with
    | none => .done (false, pages)
    | some growDown =>
      if faults startAddress pageCount then .abort
      else do
        let hi := (startAddress + pageBytes pageCount) % 2 ^ 64
        let (_, pages) ← if growDown then sgxAcceptForward true hi (pageCount + 1) startAddress pages
          else sgxAcceptBackward startAddress (pageCount + 1) hi pages
        return (true, pages)

def trimEpcPages (L : Layout) (startAddress pageCount : Nat) (pages : Pages) : Outcome (Bool × Pages) :=
  if startAddress = 0 then .done (false, pages)
  else
    match checkDynamicRange L startAddress pageCount with
    | none => .done (false, pages)
    | some _ =>
      if faults startAddress pageCount then .abort
      else do
        let hi := (startAddress + pageBytes pageCount) % 2 ^ 64
        let (_, pages) ← sgxAcceptForward false hi (pageCount + 1) startAddress pages
        return (true, pages)

def setPages (pages : Pages) (lo hi : Nat) (accept : Bool) : Pages := fun page =>
  if lo ≤ page ∧ page < hi ∧ page % sePageSize = 0 then accept else pages page

theorem setPages_of_le {lo hi : Nat} (h : hi ≤ lo) (pages : Pages) (accept : Bool) :
    setPages pages lo hi accept = pages := by
  funext page
  exact if_neg (by omega)

theorem setPages_update {pages : Pages} {lo hi : Nat} (accept : Bool) (hlo : lo % sePageSize = 0) (hlt : lo < hi) :
    setPages (update pages lo accept) (lo + sePageSize) hi accept = setPages pages lo hi accept := by
  funext page
  unfold setPages sePageSize at *
  by_cases heq : page = lo
  . subst heq
    rw [if_neg (by omega), if_pos (by omega), update_self]
  rw [update_of_ne heq]
  by_cases hin : lo ≤ page ∧ page < hi ∧ page % 0x1000 = 0
  . rw [if_pos hin, if_pos (by omega)]
  . rw [if_neg hin, if_neg (by omega)]

theorem update_setPages {pages : Pages} {lo hi : Nat} (accept : Bool) (hhi : hi % sePageSize = 0) (hle : lo ≤ hi) :
    setPages (update pages hi accept) lo hi accept = setPages pages lo (hi + sePageSize) accept := by
  funext page
  unfold setPages sePageSize at *
  by_cases heq : page = hi
  . subst heq
    rw [if_neg (by omega), if_pos (by omega), update_self]
  rw [update_of_ne heq]
  by_cases hin : lo ≤ page ∧ page < hi + 0x1000 ∧ page % 0x1000 = 0
  . rw [if_pos hin, if_pos (by omega)]
  . rw [if_neg hin, if_neg (by omega)]

theorem sgxAcceptForward_eq {accept : Bool} {lo count : Nat} (hlo : lo % sePageSize = 0)
    (hfits : lo + count * sePageSize < 2 ^ 64) (pages : Pages) :
    sgxAcceptForward accept (lo + count * sePageSize) (count + 1) lo pages
      = .done (lo + count * sePageSize, setPages pages lo (lo + count * sePageSize) accept) := by
  unfold sgxAcceptForward
  induction count generalizing lo pages with
  | zero =>
    simp only [zero_mul, add_zero, setPages_of_le (le_refl lo)]
    rw [Outcome.loop, if_neg (by simp)]
  | succ count ih =>
    have hhi : lo + (count + 1) * sePageSize = lo + sePageSize + count * sePageSize := by
      rw [succ_mul, add_assoc, add_comm sePageSize]
    have hlt : lo < lo + (count + 1) * sePageSize := by
      unfold sePageSize
      omega
    have hlo' : (lo + sePageSize) % sePageSize = 0 := by rw [add_mod_right, hlo]
    rw [Outcome.loop, if_pos (decide_eq_true hlt), mod_eq_of_lt (by omega), ← setPages_update accept hlo hlt, hhi]
    exact ih hlo' (by omega) _

theorem sgxAcceptBackward_eq {lo count : Nat} (hlo : lo % sePageSize = 0)
    (hfits : lo + count * sePageSize < 2 ^ 64) (pages : Pages) :
    sgxAcceptBackward lo (count + 1) (lo + count * sePageSize) pages
      = .done (lo, setPages pages lo (lo + count * sePageSize) true) := by
  unfold sgxAcceptBackward
  induction count generalizing pages with
  | zero =>
    simp only [zero_mul, add_zero, setPages_of_le (le_refl lo)]
    rw [Outcome.loop, if_neg (by simp)]
  | succ count ih =>
    have hhi : lo + (count + 1) * sePageSize = lo + count * sePageSize + sePageSize := by rw [succ_mul, add_assoc]
    have hlt : lo < lo + count * sePageSize + sePageSize := by
      unfold sePageSize
      omega
    have hprev : pageBelow (lo + count * sePageSize + sePageSize) = lo + count * sePageSize := by
      unfold pageBelow sePageSize at *
      omega
    have haligned : (lo + count * sePageSize) % sePageSize = 0 := by rw [add_mul_mod_self_right, hlo]
    rw [hhi] at hfits ⊢
    rw [Outcome.loop, if_pos (decide_eq_true hlt), hprev, ← update_setPages true haligned (le_add_right _ _)]
    exact ih (by omega) _

section

variable {L : Layout} {start count : Nat}

theorem checkDynamicRange_heap (hwrap : L.heapBase + L.heapSize < 2 ^ 64)
    (hlo : L.heapBase + L.heapMinSize ≤ start) (hhi : start + count * sePageSize ≤ L.heapBase + L.heapSize) :
    checkDynamicRange L start count = some false := by
  have hbytes : pageBytes count = count * sePageSize := by
    unfold pageBytes sePageSize at *
    omega
  have hcheck : checkHeapDynRange L start count = true := by
    unfold checkHeapDynRange
    rw [hbytes]
    simp only [Bool.and_eq_true, decide_eq_true_eq]
    omega
  unfold checkDynamicRange
  rw [hbytes, if_neg (by omega), hcheck]
  rfl

theorem not_faults (h : start % sePageSize = 0) : faults start count = false := by simp [faults, h]

theorem applyEpcPages_heap (hwrap : L.heapBase + L.heapSize < 2 ^ 64) (hpos : 0 < start)
    (hstart : start % sePageSize = 0) (hlo : L.heapBase + L.heapMinSize ≤ start)
    (hhi : start + count * sePageSize ≤ L.heapBase + L.heapSize) (pages : Pages) :
    applyEpcPages L start count pages = .done (true, setPages pages start (start + count * sePageSize) true) := by
  have hbytes : (start + pageBytes count) % 2 ^ 64 = start + count * sePageSize := by
    unfold pageBytes sePageSize at *
    omega
  unfold applyEpcPages
  rw [if_neg (by omega), checkDynamicRange_heap hwrap hlo hhi]
  dsimp only
  rw [not_faults hstart, if_neg (by decide), hbytes, if_neg (by decide), sgxAcceptBackward_eq hstart (by omega)]
  rfl

theorem trimEpcPages_heap (hwrap : L.heapBase + L.heapSize < 2 ^ 64) (hpos : 0 < start)
    (hstart : start % sePageSize = 0) (hlo : L.heapBase + L.heapMinSize ≤ start)
    (hhi : start + count * sePageSize ≤ L.heapBase + L.heapSize) (pages : Pages) :
    trimEpcPages L start count pages = .done (true, setPages pages start (start + count * sePageSize) false) := by
  have hbytes : (start + pageBytes count) % 2 ^ 64 = start + count * sePageSize := by
    unfold pageBytes sePageSize at *
    omega
  unfold trimEpcPages
  rw [if_neg (by omega), checkDynamicRange_heap hwrap hlo hhi]
  dsimp only
  rw [not_faults hstart, if_neg (by decide), hbytes, sgxAcceptForward_eq hstart (by omega)]
  rfl

end

end Trts
