import SrasMage.Loader.Metadata

/-!
This module contains the proof that the validation of the layout table covers what is loaded.
-/

namespace Loader

open List

theorem load_lt (m : Memory) (n : Nat) : ∀ addr, load m addr n < 256 ^ n := by
  induction n with
  | zero =>
    intro addr
    exact Nat.one_pos
  | succ n ih =>
    intro addr
    have hbyte := (m addr).toNat_lt
    have hrest := ih (addr + 1)
    rw [load, Nat.pow_succ]
    omega

section Walk

variable {status : List Region → Bool} {m : Memory} {table : List Layout}

def follow (status : List Region → Bool) : List Region → List Region → List Region × Bool
  | log, [] => (log, true)
  | log, r :: rest => if status log then follow status (log ++ [r]) rest else (log ++ [r], false)

theorem follow_append (xs ys : List Region) : ∀ log, follow status log (xs ++ ys)
      = if (follow status log xs).2 then follow status (follow status log xs).1 ys
        else ((follow status log xs).1, false) := by
  induction xs with
  | nil =>
    intro log
    rfl
  | cons r xs ih =>
    intro log
    simp only [cons_append, follow]
    split
    . exact ih _
    . rfl

theorem follow_spec (regions : List Region) : ∀ log, (follow status log regions).1 <+: log ++ regions
      ∧ ((follow status log regions).2 = true → (follow status log regions).1 = log ++ regions) := by
  induction regions with
  | nil =>
    intro log
    simp [follow]
  | cons r regions ih =>
    intro log
    have happend : log ++ r :: regions = log ++ [r] ++ regions := by simp
    rw [follow, happend]
    split
    . exact ih (log ++ [r])
    . exact ⟨prefix_append _ _, fun h => nomatch h⟩

theorem follow_succeeds (h : ∀ log, status log = true) (regions : List Region) :
    ∀ log, follow status log regions = (log ++ regions, true) := by
  induction regions with
  | nil => simp [follow]
  | cons r regions ih =>
    intro log
    rw [follow, if_pos (h log), ih, append_assoc]
    rfl

def shifted (delta : Nat) (l : Layout) : Region := ((delta + l.rva) % 2 ^ 64, l.pageCount * sePageSize)

theorem groupRegions_succ {enclaveSize times step : Nat} {group : Layout} {entries : List Layout}
    {regions : List Region} (h : groupRegions enclaveSize group entries (times + 1) step = some regions) :
    entries.any (·.isGroup) = false ∧ ∃ rest,
      groupRegions enclaveSize group entries times ((step + group.loadStep) % 2 ^ 64) = some rest
      ∧ regions = entries.map (shifted ((step + group.loadStep) % 2 ^ 64)) ++ rest := by
  rw [groupRegions] at h
  split at h
  . cases h
  split at h
  . cases h
  next hgroups =>
  obtain ⟨rest, hrest, heq⟩ := Option.bind_eq_some_iff.1 h
  cases heq
  refine ⟨Bool.eq_false_iff.2 hgroups, rest, hrest, ?_⟩
  simp only [Nat.add_comm]
  rfl

theorem collectRegions_succ {n : Nat} {regions : List Region} (h : collectRegions m table (n + 1) = some regions) :
    ∃ before l last, collectRegions m table n = some before ∧ table[n]? = some l
      ∧ layoutRegions m table n l = some last ∧ regions = before ++ last := by
  rw [collectRegions] at h
  obtain ⟨before, hbefore, h⟩ := Option.bind_eq_some_iff.1 h
  obtain ⟨l, hget, h⟩ := Option.bind_eq_some_iff.1 h
  obtain ⟨last, hlast, h⟩ := Option.bind_eq_some_iff.1 h
  cases h
  exact ⟨before, l, last, hbefore, hget, hlast, rfl⟩

theorem buildContext_eq (delta : Nat) (l : Layout) (log : List Region) :
    buildContext status delta l log = follow status log [shifted delta l] := by
  simp only [buildContext, follow, shifted]
  split
  . next h => rw [h]
  . next h => rw [Bool.eq_false_iff.2 h]

theorem take_succ_drop {start finish : Nat} (hfinish : finish < table.length) (hstart : start ≤ finish) :
    (table.take (finish + 1)).drop start = (table.take finish).drop start ++ [table[finish]] := by
  have hget : table[finish]? = some table[finish] := List.getElem?_eq_getElem hfinish
  rw [take_add_one, hget, drop_append_of_le_length]
  . rfl
  rw [length_take]
  omega

theorem buildContexts_entries (delta start : Nat) : ∀ (finish : Nat) (log : List Region), finish ≤ table.length →
      ((table.take finish).drop start).any (·.isGroup) = false →
      buildContexts status table finish start delta log
        = follow status log (((table.take finish).drop start).map (shifted delta)) := by
  intro finish
  induction finish with
  | zero =>
    intro log _ _
    simp [buildContexts, follow]
  | succ finish ih =>
    intro log hlength hgroups
    rw [buildContexts]
    split
    . next hlt =>
      have hnil : (table.take (finish + 1)).drop start = [] := by
        apply drop_eq_nil_of_le
        rw [length_take]
        omega
      rw [hnil]
      rfl
    next hle =>
    have hget : table[finish]? = some table[finish] := List.getElem?_eq_getElem hlength
    have hsnoc := take_succ_drop hlength (Nat.le_of_not_lt hle)
    rw [hsnoc, any_append, Bool.or_eq_false_iff] at hgroups
    have hlast : table[finish].isGroup = false := by simpa using hgroups.2
    rw [ih log (by omega) hgroups.1, hsnoc, map_append, follow_append]
    simp only [hget, hlast, Bool.not_false, if_true, buildContext_eq, map_cons, map_nil]
    cases (follow status log (((table.take finish).drop start).map (shifted delta))).2 <;> rfl

theorem buildGroup_eq {enclaveSize start finish : Nat} {group : Layout} (hlength : finish ≤ table.length)
    (times : Nat) :
    ∀ (step : Nat) (regions log : List Region),
      groupRegions enclaveSize group ((table.take finish).drop start) times step = some regions →
      buildGroup (fun step log => buildContexts status table finish start step log) group.loadStep times step log
        = follow status log regions := by
  induction times with
  | zero =>
    intro step regions log h
    cases h
    rfl
  | succ times ih =>
    intro step regions log h
    obtain ⟨hgroups, rest, hrest, rfl⟩ := groupRegions_succ h
    rw [buildGroup, follow_append]
    dsimp only
    rw [buildContexts_entries _ _ _ _ hlength hgroups]
    generalize follow status log _ = res
    rcases res with ⟨log', ok⟩
    cases ok
    . rfl
    . exact ih _ _ _ hrest

theorem buildContexts_collect (hrva : ∀ l ∈ table, l.rva < 2 ^ 64) :
    ∀ (n : Nat) (regions log : List Region), n ≤ table.length → collectRegions m table n = some regions →
      buildContexts status table n 0 0 log = follow status log regions := by
  intro n
  induction n with
  | zero =>
    intro regions log _ h
    cases h
    rfl
  | succ n ih =>
    intro regions log hlength h
    obtain ⟨before, l, last, hbefore, hget, hlast, rfl⟩ := collectRegions_succ h
    rw [buildContexts, if_neg (by omega), ih before log (by omega) hbefore, follow_append]
    generalize follow status log before = res
    rcases res with ⟨log', ok⟩
    cases ok
    . rfl
    simp only [hget, Bool.not_true, Bool.false_eq_true, if_false, if_true]
    rw [layoutRegions] at hlast
    split at hlast
    . next hentry =>
      rw [if_pos hentry, buildContext_eq]
      split at hlast
      . cases hlast
      cases hlast
      rw [shifted, Nat.zero_add, Nat.mod_eq_of_lt (hrva l (mem_of_getElem? hget))]
    . next hgroup =>
      rw [if_neg hgroup]
      split at hlast
      . cases hlast
      . exact buildGroup_eq (by omega) _ _ _ _ hlast

end Walk

section Check

variable {enclaveSize : Nat}

def Separate (a b : Region) : Prop := a.1 + a.2 ≤ b.1 ∨ b.1 + b.2 ≤ a.1

theorem Separate.symm {a b : Region} (h : Separate a b) : Separate b a := Or.symm h

structure Inside (enclaveSize : Nat) (r : Region) : Prop where
  aligned : r.1 % sePageSize = 0
  start : r.1 < enclaveSize
  finish : r.1 + r.2 ≤ enclaveSize

theorem isEnclaveBuffer_spec {offset size : Nat} (hoffset : offset < 2 ^ 64) (hsize : size < 2 ^ 64)
    (h : isEnclaveBuffer enclaveSize offset size = true) :
    offset < enclaveSize ∧ offset + size ≤ enclaveSize ∧ (offset + size) % 2 ^ 64 = offset + size := by
  rw [isEnclaveBuffer] at h
  split at h
  . cases h
  next hstart =>
  simp only [Bool.not_eq_true', Bool.or_eq_false_iff, decide_eq_false_iff_not, Nat.not_lt] at h
  omega

instance : IsTrans Region RegionLe where
  trans a b c hab hbc := by
    simp only [RegionLe] at *
    omega

instance : Std.Total RegionLe where
  total a b := by
    simp only [RegionLe]
    omega

theorem checkRegions_spec (regions : List Region) (hbounds : ∀ r ∈ regions, r.1 < 2 ^ 64 ∧ r.2 < 2 ^ 64)
    (hsorted : regions.Pairwise RegionLe)
    (h : checkRegions enclaveSize regions = true) :
    regions.Pairwise Separate ∧ ∀ r ∈ regions, Inside enclaveSize r := by
  induction regions with
  | nil => simp
  | cons r rest ih =>
    rw [checkRegions] at h
    simp only [Bool.and_eq_true, beq_iff_eq] at h
    rcases h with ⟨⟨⟨haligned, hinside⟩, hnext⟩, hcheck⟩
    rw [forall_mem_cons] at hbounds
    rw [pairwise_cons] at hsorted
    rcases isEnclaveBuffer_spec hbounds.1.1 hbounds.1.2 hinside with ⟨hstart, hfinish, hwrap⟩
    rcases ih hbounds.2 hsorted.2 hcheck with ⟨hseparate, hall⟩
    refine ⟨pairwise_cons.2 ⟨?_, hseparate⟩, ?_⟩
    . intro b hb
      cases rest with
      | nil => cases hb
      | cons next rest =>
        left
        have hends : r.1 + r.2 ≤ next.1 := by
          rw [hwrap, List.head?_cons, Option.all_some, Bool.not_eq_true', decide_eq_false_iff_not] at hnext
          exact Nat.le_of_not_lt hnext
        have hmono : next.1 ≤ b.1 := by
          rcases mem_cons.1 hb with rfl | hb
          . exact Nat.le_refl _
          have hle := (pairwise_cons.1 hsorted.2).1 b hb
          simp only [RegionLe] at hle
          omega
        omega
    . rw [forall_mem_cons]
      exact ⟨⟨haligned, hstart, hfinish⟩, hall⟩

end Check

section Bounds

variable {m : Memory} {table : List Layout}

structure Layout.InRange (l : Layout) : Prop where
  word : l.word < 2 ^ 32
  long : l.long < 2 ^ 64

theorem inRange_layoutTable (m : Memory) : ∀ l ∈ layoutTable m, l.InRange := by
  intro l hl
  rcases mem_map.1 hl with ⟨addr, -, rfl⟩
  exact ⟨load_lt m 4 _, load_lt m 8 _⟩

theorem groupRegions_bounds {enclaveSize : Nat} {group : Layout} {entries : List Layout}
    (hentries : ∀ l ∈ entries, l.InRange) (times : Nat) :
    ∀ (step : Nat) (regions : List Region), groupRegions enclaveSize group entries times step = some regions →
      ∀ r ∈ regions, r.1 < 2 ^ 64 ∧ r.2 < 2 ^ 64 := by
  induction times with
  | zero =>
    intro step regions h r hr
    cases h
    cases hr
  | succ times ih =>
    intro step regions h r hr
    obtain ⟨_, rest, hrest, rfl⟩ := groupRegions_succ h
    rcases mem_append.1 hr with hr | hr
    . rcases mem_map.1 hr with ⟨e, he, rfl⟩
      have := (hentries e he).word
      simp only [shifted, Layout.pageCount, sePageSize]
      omega
    . exact ih _ _ hrest r hr

theorem layoutRegions_bounds (htable : ∀ l ∈ table, l.InRange) {i : Nat} {l : Layout}
    (hl : l.InRange) {regions : List Region} (h : layoutRegions m table i l = some regions) :
    ∀ r ∈ regions, r.1 < 2 ^ 64 ∧ r.2 < 2 ^ 64 := by
  rw [layoutRegions] at h
  split at h
  . split at h
    . cases h
    cases h
    intro r hr
    cases mem_singleton.1 hr
    have := hl.word
    have := hl.long
    simp only [Layout.pageCount, Layout.rva, sePageSize]
    omega
  . split at h
    . cases h
    apply groupRegions_bounds _ _ _ _ h
    intro l hl
    exact htable l (mem_of_mem_take (mem_of_mem_drop hl))

theorem collectRegions_bounds (htable : ∀ l ∈ table, l.InRange) :
    ∀ (n : Nat) (regions : List Region), collectRegions m table n = some regions →
      ∀ r ∈ regions, r.1 < 2 ^ 64 ∧ r.2 < 2 ^ 64 := by
  intro n
  induction n with
  | zero =>
    intro regions h r hr
    cases h
    cases hr
  | succ n ih =>
    intro regions h r hr
    obtain ⟨before, l, last, hbefore, hget, hlast, rfl⟩ := collectRegions_succ h
    rcases mem_append.1 hr with hr | hr
    . exact ih before hbefore r hr
    . exact layoutRegions_bounds htable (htable l (mem_of_getElem? hget)) hlast r hr

end Bounds

theorem validateMetadata_spec {is64 : Bool} {m : Memory} (h : validateMetadata is64 (some m) = sgxSuccess) :
    List.all [Metadata.dirPatch, Metadata.dirLayout]
      (fun i => isMetadataBuffer m (Metadata.dirOffset m i) (Metadata.dirSize m i)) = true
    ∧ validateLayoutTable m = sgxSuccess ∧ validatePatchTable m = sgxSuccess := by
  rw [validateMetadata] at h
  split at h
  . cases h
  split at h
  . cases h
  split at h
  . cases h
  split at h
  . cases h
  split at h
  . cases h
  split at h
  . cases h
  next hdirs =>
  split at h
  . next hlayout => exact absurd h hlayout
  . next hlayout => exact ⟨by simpa using hdirs, not_not.1 hlayout, h⟩

/--
Validation covers what is loaded. If the metadata are valid and no construction of a region fails, the walk ends and
the regions that are visited are those in the vector that was checked, otherwise they are the first of them.
They are apart from each other and start and end within the enclave.
-/
theorem validateMetadata_covers (is64 : Bool) (m : Memory)
    (h : validateMetadata is64 (some m) = sgxSuccess) :
    ∃ checked, rvaVector m = some checked
      ∧ (∀ status, (buildLayout status m).1 <+: checked
        ∧ ((buildLayout status m).2 = true → (buildLayout status m).1 = checked)
        ∧ ((∀ log, status log = true) → buildLayout status m = (checked, true)))
      ∧ checked.Pairwise Separate
      ∧ ∀ r ∈ checked, Inside (Metadata.enclaveSize m) r := by
  have hlayout := (validateMetadata_spec h).2.1
  have htable := inRange_layoutTable m
  rw [validateLayoutTable] at hlayout
  rcases hvector : rvaVector m with _ | checked
  . rw [hvector] at hlayout
    cases hlayout
  rw [hvector] at hlayout
  dsimp only at hlayout
  split at hlayout
  . next hcheck =>
    have hperm := perm_insertionSort RegionLe checked
    have hbounds := collectRegions_bounds htable _ _ hvector
    rcases checkRegions_spec _ (fun r hr => hbounds r (hperm.mem_iff.mp hr))
      (pairwise_insertionSort RegionLe checked) hcheck
      with ⟨hseparate, hinside⟩
    refine ⟨checked, rfl, ?_, ?_, ?_⟩
    . intro status
      rw [buildLayout, buildContexts_collect (fun l hl => (htable l hl).long) _ _ _ (Nat.le_refl _) hvector]
      have hspec := @follow_spec status checked []
      exact ⟨hspec.1, hspec.2, fun h => follow_succeeds h checked []⟩
    . exact (hperm.pairwise_iff (fun h => h.symm)).mp hseparate
    . exact fun r hr => hinside r (hperm.mem_iff.mpr hr)
  . cases hlayout

def ofFields (fields : List (Nat × Nat × Nat)) : Memory := fun a =>
  ((fields.find? (fun (addr, n, _) => addr ≤ a ∧ a < addr + n)).map
    (fun (addr, _, v) => UInt8.ofNat (v / 256 ^ (a - addr)))).getD 0

def groupMetadata : Memory :=
  ofFields [(16, 4, 0x5000), (24, 4, 1), (40, 8, 0x10000), (1872, 4, 1888), (1880, 4, 1888),
    (1884, 4, 64), (1888 + 4, 4, 2), (1888 + 8, 8, 0x1000), (1920, 2, 0x1009), (1920 + 2, 2, 1),
    (1920 + 4, 4, 2), (1920 + 8, 8, 0x3000)]

theorem validateMetadata_covers_group :
    ∃ checked, rvaVector groupMetadata = some checked
      ∧ (∀ status, (buildLayout status groupMetadata).1 <+: checked
        ∧ ((buildLayout status groupMetadata).2 = true → (buildLayout status groupMetadata).1 = checked)
        ∧ ((∀ log, status log = true) → buildLayout status groupMetadata = (checked, true)))
      ∧ checked.Pairwise Separate
      ∧ ∀ r ∈ checked, Inside (Metadata.enclaveSize groupMetadata) r :=
  validateMetadata_covers true groupMetadata (by decide +kernel)

example : rvaVector groupMetadata = some [(0x1000, 0x2000), (0x4000, 0x2000), (0x7000, 0x2000)] := by
  decide +kernel

end Loader
