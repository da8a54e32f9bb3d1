import SrasMage.Elf
import SrasMage.Loader.Pages
import SrasMage.Word

/-!
This module contains the check of the program headers of an enclave (`validate_segment` of
`psw/urts/parser/elfparser.cpp`) and what it says about the pages of the loadable segments.
-/

namespace ElfParser

open Elf Memory Word List
open CLoader (sePageSize trimToPage roundToPage)

structure Phdr extends Elf.Phdr where
  align : Nat

def phdrAt (m : Mem) (a : Nat) : Phdr := { Elf.phdr m a with align := word m (a + 48) 8 }

def phdrs (m : Mem) (elfHdr : Nat) : List Phdr :=
  (range (ehdr m elfHdr).phnum).map fun idx =>
    phdrAt m ((elfHdr + (ehdr m elfHdr).phoff + sizeofPhdr * idx) % 2 ^ 64)

def isPageAligned (x : Nat) : Bool := x % sePageSize = 0

def isOverlap (p₁ p₂ : Nat × Nat) : Bool := p₁.1 ≤ p₂.2 && p₂.1 ≤ p₁.2

namespace Phdr

variable (p : Phdr)

def stop : Nat := (p.vaddr + p.memsz) % 2 ^ 64

def loadSeg : Nat × Nat := (p.vaddr, (roundTo p.stop p.align + (2 ^ 64 - 1)) % 2 ^ 64)

def isLoad : Bool := p.type = ptLoad

end Phdr

def checkSegments (len : Nat) : List Phdr → List (Nat × Nat) → Bool
  | [], _ => true
  | p :: rest, loadSegs =>
    if len < (p.offset + p.filesz) % 2 ^ 64 then false
    else if p.isLoad then
      if !isPageAligned p.align then false
      else if loadSegs.any (isOverlap p.loadSeg) then false
      else checkSegments len rest (loadSegs ++ [p.loadSeg])
    else checkSegments len rest loadSegs

def validateSegment (m : Mem) (elfHdr len : Nat) : Bool := checkSegments len (phdrs m elfHdr) []

namespace Phdr

variable (p q : Phdr)

def NoWrap : Prop := p.vaddr + p.memsz + (sePageSize - 1) < 2 ^ 64

instance : Decidable p.NoWrap := inferInstanceAs (Decidable (_ < _))

def Extent (a : Nat) : Prop := trimToPage p.vaddr ≤ a ∧ a < roundToPage p.stop

def Disjoint : Prop := ∀ a, ¬(p.Extent a ∧ q.Extent a)

def RoundsUp : Prop := p.align = 0 ∨ p.stop + (p.align - 1) < 2 ^ 64

instance : Decidable p.RoundsUp := inferInstanceAs (Decidable (_ ∨ _))

end Phdr

def loads (m : Mem) (elfHdr : Nat) : List Phdr := (phdrs m elfHdr).filter Phdr.isLoad

def SegmentsApart (m : Mem) (elfHdr : Nat) : Prop :=
  (∀ p ∈ loads m elfHdr, p.NoWrap) ∧ (loads m elfHdr).Pairwise Phdr.Disjoint

theorem checkSegments_spec {len : Nat} {ps : List Phdr} {loadSegs : List (Nat × Nat)}
    (h : checkSegments len ps loadSegs = true) :
    (∀ p ∈ ps.filter Phdr.isLoad, isPageAligned p.align = true ∧ ∀ seg ∈ loadSegs, isOverlap p.loadSeg seg = false)
      ∧ (ps.filter Phdr.isLoad).Pairwise fun p q => isOverlap q.loadSeg p.loadSeg = false := by
  induction ps generalizing loadSegs with
  | nil => simp
  | cons p rest ih =>
    unfold checkSegments at h
    split at h
    . cases h
    split at h
    . next hload =>
      split at h
      . cases h
      next haligned =>
      split at h
      . cases h
      next hany =>
      obtain ⟨hall, hpairs⟩ := ih h
      rw [Bool.not_eq_true, any_eq_false] at hany
      rw [filter_cons_of_pos hload, pairwise_cons, forall_mem_cons]
      refine ⟨⟨⟨by simpa using haligned, ?_⟩, ?_⟩, ?_, hpairs⟩
      . intro seg hseg
        exact Bool.not_eq_true _ ▸ hany seg hseg
      . intro q hq
        exact ⟨(hall q hq).1, fun seg hseg => (hall q hq).2 seg (mem_append_left _ hseg)⟩
      . intro q hq
        exact (hall q hq).2 _ (mem_append_right _ (mem_singleton_self _))
    . next hload =>
      rw [filter_cons_of_neg hload]
      exact ih h

section

variable {p q : Phdr} {a : Nat}

theorem stop_eq (hwrap : p.NoWrap) : p.stop = p.vaddr + p.memsz := by
  unfold Phdr.NoWrap sePageSize at hwrap
  exact Nat.mod_eq_of_lt (by omega)

theorem roundToPage_le_roundTo (hwrap : p.NoWrap) (halign : isPageAligned p.align = true)
    (hrounds : p.RoundsUp) (hzero : p.align ≠ 0) : roundToPage p.stop ≤ roundTo p.stop p.align := by
  have hfits : p.stop + (p.align - 1) < 2 ^ 64 := hrounds.resolve_left hzero
  have hmask : alignMask p.align = p.align - 1 := by
    unfold alignMask
    omega
  have hle := le_roundTo (hmask ▸ hfits)
  have hmod : roundTo p.stop p.align % 2 ^ 12 = 0 := by
    apply roundTo_mod (by decide)
    apply Nat.dvd_of_mod_eq_zero
    simpa [isPageAligned] using halign
  have hstop := stop_eq hwrap
  unfold Phdr.NoWrap at hwrap
  unfold roundToPage trimToPage sePageSize at *
  omega

theorem extent_le_loadSeg (hwrap : p.NoWrap) (halign : isPageAligned p.align = true) (hrounds : p.RoundsUp)
    (h : p.Extent a) : trimToPage a + (sePageSize - 1) ≤ p.loadSeg.2 := by
  have hstop := stop_eq hwrap
  unfold Phdr.Extent at h
  by_cases hzero : p.align = 0
  . -- without an alignment the segment counts as ending at the last address
    have hlast : p.loadSeg.2 = 2 ^ 64 - 1 := by
      unfold Phdr.loadSeg roundTo alignMask
      rw [hzero]
      simp
    rw [hlast]
    unfold Phdr.NoWrap at hwrap
    unfold roundToPage trimToPage sePageSize at *
    omega
  . have hle := roundToPage_le_roundTo hwrap halign hrounds hzero
    have hlt : roundTo p.stop p.align < 2 ^ 64 := by
      apply Nat.lt_of_le_of_lt Nat.and_le_left
      exact Nat.mod_lt _ (Nat.two_pow_pos 64)
    unfold Phdr.loadSeg
    unfold Phdr.NoWrap at hwrap
    unfold roundToPage trimToPage sePageSize at *
    omega

theorem disjoint_of_not_isOverlap (hp : p.NoWrap) (hq : q.NoWrap) (hap : isPageAligned p.align = true)
    (haq : isPageAligned q.align = true) (hrp : p.RoundsUp) (hrq : q.RoundsUp)
    (h : isOverlap q.loadSeg p.loadSeg = false) : p.Disjoint q := by
  rintro a ⟨hpa, hqa⟩
  have hple := extent_le_loadSeg hp hap hrp hpa
  have hqle := extent_le_loadSeg hq haq hrq hqa
  have hoverlap : isOverlap q.loadSeg p.loadSeg = true := by
    unfold Phdr.Extent at hpa hqa
    simp only [isOverlap, Bool.and_eq_true, decide_eq_true_eq]
    unfold Phdr.loadSeg trimToPage sePageSize at *
    constructor <;> omega
  rw [hoverlap] at h
  cases h

end

/--
A file whose segments pass the check has segments that neither wrap around nor share pages exactly if none
of them ends beyond the last page, and segments whose alignment makes the rounding wrap around share no
page with another one.
-/
theorem validateSegment_apart_iff (m : Mem) (elfHdr len : Nat) (h : validateSegment m elfHdr len = true) :
    SegmentsApart m elfHdr ↔ (∀ p ∈ loads m elfHdr, p.NoWrap)
      ∧ (loads m elfHdr).Pairwise fun p q => ¬(p.RoundsUp ∧ q.RoundsUp) → p.Disjoint q := by
  obtain ⟨hall, hpairs⟩ := checkSegments_spec h
  unfold SegmentsApart
  apply and_congr_right
  intro hwrap
  constructor
  . intro hdisjoint
    apply hdisjoint.imp
    intro p q h _
    exact h
  intro hexcept
  apply List.Pairwise.imp_of_mem _ (hpairs.and hexcept)
  intro p q hp hq ⟨hoverlap, hmeets⟩
  by_cases hrounds : p.RoundsUp ∧ q.RoundsUp
  . exact disjoint_of_not_isOverlap (hwrap p hp) (hwrap q hq) (hall p hp).1 (hall q hq).1 hrounds.1 hrounds.2
      hoverlap
  . exact hmeets hrounds

def fileOf (ps : List Phdr) : Mem := fun a =>
  let header := elfmag ++ replicate 28 0 ++ toBytes 8 sizeofEhdr ++ replicate 16 0
    ++ toBytes 2 ps.length ++ replicate 6 0
  let table := ps.flatMap fun p => toBytes 4 p.type ++ toBytes 4 p.flags ++ toBytes 8 p.offset
    ++ toBytes 8 p.vaddr ++ toBytes 8 p.vaddr ++ toBytes 8 p.filesz ++ toBytes 8 p.memsz ++ toBytes 8 p.align
  (header ++ table).getD a 0

def loadOf (vaddr memsz align : Nat) : Phdr := ⟨⟨ptLoad, pfR, 0, vaddr, 0, memsz⟩, align⟩

theorem validateSegment_apart_text_data :
    validateSegment (fileOf [loadOf 0 0x1800 0x200000, loadOf 0x400e10 0x300 0x200000]) 0 176 = true
      ∧ SegmentsApart (fileOf [loadOf 0 0x1800 0x200000, loadOf 0x400e10 0x300 0x200000]) 0 := by
  have hvalid : validateSegment (fileOf [loadOf 0 0x1800 0x200000, loadOf 0x400e10 0x300 0x200000]) 0 176
      = true := by
    decide +kernel
  have hrounds : ∀ p ∈ loads (fileOf [loadOf 0 0x1800 0x200000, loadOf 0x400e10 0x300 0x200000]) 0,
      p.RoundsUp := by
    decide +kernel
  refine ⟨hvalid, (validateSegment_apart_iff _ _ _ hvalid).mpr ⟨by decide +kernel, ?_⟩⟩
  apply pairwise_of_forall_mem_list
  intro p hp q hq hnot
  exact absurd ⟨hrounds p hp, hrounds q hq⟩ hnot

theorem not_segmentsApart_wrap :
    validateSegment (fileOf [loadOf 0x1000 (2 ^ 64 - 1) 0x1000]) 0 120 = true
      ∧ ¬SegmentsApart (fileOf [loadOf 0x1000 (2 ^ 64 - 1) 0x1000]) 0 := by
  refine ⟨by decide +kernel, ?_⟩
  intro h
  exact absurd h.1 (by decide +kernel)

-- with an alignment near 2 ^ 64 the check does not even see that two segments are the same
example : validateSegment (fileOf [loadOf 0x4000 0x1000 (2 ^ 64 - 0x1000), loadOf 0x4000 0x1000 (2 ^ 64 - 0x1000)])
    0 176 = true := by
  decide +kernel

end ElfParser
