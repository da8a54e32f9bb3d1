import SrasMage.Loader.Pages

/-!
This module contains the proof that the loader adds a section page by page.
-/

namespace CLoader

open Memory Bytes Hoare Nat List

def imageByte (sec : SectionInfo) (a : Nat) : UInt8 :=
  if sec.rva ≤ a ∧ a < sec.rva + sec.rawDataSize then sec.rawData (a - sec.rva) else 0

def imagePage (sec : SectionInfo) (a : Nat) : List UInt8 := load (imageByte sec) a sePageSize

def Meets (mage : Option MageSection) (a : Nat) : Prop :=
  ∃ x, a ≤ x ∧ x < a + sePageSize ∧ (skipRange mage).1 ≤ x ∧ x < (skipRange mage).1 + (skipRange mage).2

structure Faithful (sec : SectionInfo) (mage : Option MageSection) (added : List Page) : Prop where
  sorted : (added.map Page.offset).Pairwise (· < ·)
  covers : ∀ a, a ∈ added.map Page.offset ↔
    sePageSize ∣ a ∧ trimToPage sec.rva ≤ a ∧ a < roundToPage (sec.rva + sec.virtualSize) ∧ ¬Meets mage a
  content : ∀ page ∈ added, page.content = imagePage sec page.offset

structure Fits (sec : SectionInfo) (mage : Option MageSection) : Prop where
  raw : sec.rawDataSize ≤ sec.virtualSize
  finish : sec.rva + sec.virtualSize + (sePageSize - 1) < 2 ^ 64
  nonempty : 0 < sec.virtualSize ∨ sePageSize ∣ sec.rva
  aligned : sePageSize ∣ (skipRange mage).1 ∧ sePageSize ∣ (skipRange mage).2
  skip : (skipRange mage).1 + (skipRange mage).2 < 2 ^ 64

variable (sec : SectionInfo)

def offsetOf (k : Nat) : Nat := sePageSize * k - pageOffset sec.rva

def rvaOf (k : Nat) : Nat := trimToPage sec.rva + sePageSize * k

def pagesOf (size : Nat) : Nat := if size = 0 then 0 else (pageOffset sec.rva + size + (sePageSize - 1)) / sePageSize

variable {sec} {mage : Option MageSection} {k : Nat}

theorem offsetOf_lt_iff {size : Nat} : offsetOf sec k < size ↔ k < pagesOf sec size := by
  unfold offsetOf pagesOf pageOffset sePageSize
  split <;> omega

theorem pagesOf_le (sec : SectionInfo) {size size' : Nat} (h : size ≤ size') :
    pagesOf sec size ≤ pagesOf sec size' := by
  unfold pagesOf pageOffset sePageSize
  split <;> split <;> omega

theorem roundToPage_eq (h : Fits sec mage) :
    roundToPage (sec.rva + sec.virtualSize) = rvaOf sec (pagesOf sec sec.virtualSize) := by
  have hfinish := h.finish
  have hnonempty := h.nonempty
  unfold roundToPage rvaOf pagesOf trimToPage pageOffset sePageSize at *
  rw [mod_eq_of_lt hfinish]
  split <;> omega

theorem pagesOf_sub (h : Fits sec mage) (hk : k < pagesOf sec sec.virtualSize) :
    (roundToPage ((sec.virtualSize - offsetOf sec k + pageOffset (sec.rva + offsetOf sec k)) % 2 ^ 64)
        + (sePageSize - 1)) / sePageSize
      =
    pagesOf sec sec.virtualSize - k := by
  have hfinish := h.finish
  have hoffset := offsetOf_lt_iff.2 hk
  have hle : sec.virtualSize - offsetOf sec k + pageOffset (sec.rva + offsetOf sec k) + (sePageSize - 1) < 2 ^ 64 := by
    unfold offsetOf pageOffset sePageSize at *
    omega
  have hpos : sec.virtualSize ≠ 0 := by omega
  unfold roundToPage trimToPage pagesOf at *
  rw [if_neg hpos] at *
  rw [mod_eq_of_lt (lt_of_le_of_lt (le_add_right _ _) hle), mod_eq_of_lt hle]
  unfold offsetOf pageOffset sePageSize at *
  omega

theorem rva_add_offsetOf : trimToPage (sec.rva + offsetOf sec k) = rvaOf sec k := by
  unfold offsetOf rvaOf trimToPage pageOffset sePageSize
  omega

theorem rvaOf_add_pageOffset (sec : SectionInfo) (k : Nat) :
    rvaOf sec k + pageOffset (sec.rva + offsetOf sec k) = sec.rva + offsetOf sec k := by
  rw [← rva_add_offsetOf]
  exact Nat.sub_add_cancel (Nat.mod_le _ _)

theorem offsetOf_eq_zero_or (sec : SectionInfo) (k : Nat) :
    offsetOf sec k = 0 ∨ pageOffset (sec.rva + offsetOf sec k) = 0 := by
  unfold offsetOf pageOffset sePageSize
  omega

theorem pagesOf_lt (h : Fits sec mage) : rvaOf sec (pagesOf sec sec.virtualSize) < 2 ^ 64 := by
  have hround := roundToPage_eq h
  have hfinish := h.finish
  unfold roundToPage trimToPage at hround
  rw [mod_eq_of_lt hfinish] at hround
  omega

theorem rvaOf_lt (h : Fits sec mage) (hk : k < pagesOf sec sec.virtualSize) : rvaOf sec k + sePageSize < 2 ^ 64 := by
  have hlt := pagesOf_lt h
  unfold rvaOf sePageSize at *
  omega

theorem isAdded_iff (h : Fits sec mage) (hk : k < pagesOf sec sec.virtualSize) :
    isAdded mage (rvaOf sec k) = true ↔ ¬Meets mage (rvaOf sec k) := by
  have hlt := rvaOf_lt h hk
  obtain ⟨⟨s, hs⟩, z, hz⟩ := h.aligned
  have hskip := h.skip
  have hrva : rvaOf sec k = sePageSize * (sec.rva / sePageSize + k) := by
    unfold rvaOf trimToPage sePageSize
    omega
  unfold isAdded Meets
  rw [mod_eq_of_lt hskip, mod_eq_of_lt hlt, Bool.or_eq_true, decide_eq_true_eq, decide_eq_true_eq]
  rw [hs, hz] at *
  generalize rvaOf sec k = a at *
  generalize sec.rva / sePageSize + k = b at *
  unfold sePageSize at *
  constructor
  . rintro hadded ⟨x, hx⟩
    omega
  intro hmeets
  by_contra hnot
  refine hmeets ⟨max a (4096 * s), ?_⟩
  omega

section Loops

variable {σ : Type} (creator : Creator σ)

def addPage (mage : Option MageSection) (page : Page) : EStateM Status σ Unit :=
  if isAdded mage page.offset then creator.addEnclavePage page else pure ()

theorem buildPages_page (mage : Option MageSection) {a : Nat} (ha : a < 2 ^ 64) (source : Option Mem) (sinfo : SecInfo)
    (attr : UInt32) :
    buildPages creator mage a sePageSize source sinfo attr = addPage creator mage ⟨source, a, sinfo, attr⟩ := by
  have hrange : List.range ((sePageSize + (sePageSize - 1)) / sePageSize) = [0] := by decide
  unfold buildPages addPage
  rw [hrange, forM_eq_forM, forM_cons, mul_zero, add_zero, mod_eq_of_lt ha]
  exact bind_pure _

theorem offsetOf_succ (h : Fits sec mage) (hk : k < pagesOf sec sec.rawDataSize) :
    (offsetOf sec k + (sePageSize - pageOffset ((sec.rva + offsetOf sec k) % 2 ^ 64))) % 2 ^ 64 =
    offsetOf sec (k + 1) := by
  have hfinish := h.finish
  have hraw := h.raw
  have hoffset := offsetOf_lt_iff.2 hk
  have hmod : (sec.rva + offsetOf sec k) % 2 ^ 64 = sec.rva + offsetOf sec k := mod_eq_of_lt (by omega)
  have hnext : offsetOf sec k + (sePageSize - pageOffset (sec.rva + offsetOf sec k)) = offsetOf sec (k + 1) := by
    unfold offsetOf pageOffset sePageSize
    omega
  have hle : sePageSize - pageOffset (sec.rva + offsetOf sec k) ≤ sePageSize := sub_le _ _
  rw [hmod, ← hnext, mod_eq_of_lt]
  unfold sePageSize at *
  omega

theorem buildRawPages_eq (h : Fits sec mage) (fuel : Nat) :
    ∀ k ≤ pagesOf sec sec.rawDataSize, pagesOf sec sec.rawDataSize < fuel + k →
      buildRawPages creator mage sec fuel (offsetOf sec k) = (do
        (List.range' k (pagesOf sec sec.rawDataSize - k)).forM fun k => buildRawPage creator mage sec (offsetOf sec k)
        pure (offsetOf sec (pagesOf sec sec.rawDataSize))) := by
  induction fuel with
  | zero =>
    intro k hle hlt
    omega
  | succ fuel ih =>
    intro k hle hlt
    unfold buildRawPages
    split
    . next hoffset =>
      have hk := offsetOf_lt_iff.1 hoffset
      have hrange : List.range' k (pagesOf sec sec.rawDataSize - k) =
          k :: List.range' (k + 1) (pagesOf sec sec.rawDataSize - (k + 1)) := by
        rw [← List.range'_succ]
        congr 1
        omega
      rw [offsetOf_succ h hk, ih (k + 1) hk (by omega), hrange, forM_eq_forM, forM_cons, bind_assoc]
    . next hoffset =>
      have hk : k = pagesOf sec sec.rawDataSize := Nat.le_antisymm hle (Nat.le_of_not_lt fun hk =>
        hoffset (offsetOf_lt_iff.2 hk))
      rw [← hk, Nat.sub_self]
      exact (pure_bind _ _).symm

theorem buildZeroPages_eq (h : Fits sec mage) :
    buildZeroPages creator mage sec (offsetOf sec (pagesOf sec sec.rawDataSize)) =
      (List.range (pagesOf sec sec.virtualSize - pagesOf sec sec.rawDataSize)).forM fun j =>
        addPage creator mage ⟨none, rvaOf sec (pagesOf sec sec.rawDataSize + j), .ofFlags sec.flag, addExtendPage⟩ := by
  have hfinish := h.finish
  have hraw := pagesOf_le sec h.raw
  unfold buildZeroPages
  split
  . next hoffset =>
    have hk := offsetOf_lt_iff.1 hoffset
    have hrva : (sec.rva + offsetOf sec (pagesOf sec sec.rawDataSize)) % 2 ^ 64 =
        sec.rva + offsetOf sec (pagesOf sec sec.rawDataSize) := mod_eq_of_lt (by omega)
    simp only [hrva, rva_add_offsetOf]
    unfold buildPages addPage
    rw [pagesOf_sub h hk]
    apply forM_congr
    intro j hj
    have hj := mem_range.1 hj
    have hlt := rvaOf_lt (k := pagesOf sec sec.rawDataSize + j) h (by omega)
    have hadd : rvaOf sec (pagesOf sec sec.rawDataSize) + sePageSize * j =
        rvaOf sec (pagesOf sec sec.rawDataSize + j) := by
      unfold rvaOf
      rw [mul_add, add_assoc]
    simp only [hadd, mod_eq_of_lt (lt_of_le_of_lt (le_add_right _ _) hlt)]
  . next hoffset =>
    have hk : pagesOf sec sec.virtualSize ≤ pagesOf sec sec.rawDataSize :=
      Nat.le_of_not_lt fun hk => hoffset (offsetOf_lt_iff.2 hk)
    rw [Nat.sub_eq_zero_of_le hk]
    rfl

def buildRegionPage (mage : Option MageSection) (sec : SectionInfo) (k : Nat) : EStateM Status σ Unit :=
  if k < pagesOf sec sec.rawDataSize then buildRawPage creator mage sec (offsetOf sec k)
  else addPage creator mage ⟨none, rvaOf sec k, .ofFlags sec.flag, addExtendPage⟩

theorem buildMemRegion_eq (h : Fits sec mage) : buildMemRegion creator mage sec =
      (List.range (pagesOf sec sec.virtualSize)).forM (buildRegionPage creator mage sec) := by
  have hle := pagesOf_le sec h.raw
  have hrange : List.range (pagesOf sec sec.virtualSize) = List.range (pagesOf sec sec.rawDataSize) ++
      (List.range (pagesOf sec sec.virtualSize - pagesOf sec sec.rawDataSize)).map
        (pagesOf sec sec.rawDataSize + ·) := by
    rw [← range_add, Nat.add_sub_cancel' hle]
  have hfuel : pagesOf sec sec.rawDataSize < sec.rawDataSize + 1 + 0 := by
    unfold pagesOf pageOffset sePageSize
    split <;> omega
  have hraw : (List.range (pagesOf sec sec.rawDataSize)).forM (buildRegionPage creator mage sec) =
      (List.range (pagesOf sec sec.rawDataSize)).forM fun k => buildRawPage creator mage sec (offsetOf sec k) := by
    apply forM_congr
    intro k hk
    exact if_pos (mem_range.1 hk)
  have hzero : (fun j => buildRegionPage creator mage sec (pagesOf sec sec.rawDataSize + j)) = fun j =>
      addPage creator mage ⟨none, rvaOf sec (pagesOf sec sec.rawDataSize + j), .ofFlags sec.flag, addExtendPage⟩ := by
    funext j
    exact if_neg (by omega)
  have hloop := buildRawPages_eq creator h (sec.rawDataSize + 1) 0 (Nat.zero_le _) hfuel
  rw [show offsetOf sec 0 = 0 from Nat.zero_sub _, Nat.sub_zero, ← range_eq_range', ← hraw] at hloop
  unfold buildMemRegion
  rw [hloop, bind_assoc, hrange, forM_eq_forM, forM_append, forM_map, hzero]
  congr 1
  funext _
  rw [pure_bind, buildZeroPages_eq creator h, forM_eq_forM]

end Loops

section Recorder

variable {useSeHw : Bool} {mprotect : List Page → Nat → Bool} {status : List Page → Page → Status}

def Accepting (mprotect : List Page → Nat → Bool) (status : List Page → Page → Status) : Prop :=
  (∀ log page, status log page = 0) ∧ ∀ log rva, mprotect log rva = true

theorem runs_addPage (page : Page) (log : List Page) : Runs (addPage (recorder useSeHw mprotect status) mage page) log
      (fun _ log' => log' = log ++ if isAdded mage page.offset then [page] else [])
      fun _ _ => ¬Accepting mprotect status := by
  unfold addPage
  apply Runs.ite
  . intro hadded
    rw [if_pos hadded]
    apply Runs.bind
    apply Runs.get
    apply Runs.ite
    . intro _
      exact rfl
    intro hstatus
    exact .throw fun haccepts => hstatus (haccepts.1 log page)
  . intro hadded
    rw [if_neg hadded, append_nil]
    exact .pure rfl

theorem runs_protectPage (rva : Nat) (log : List Page) :
    Runs (protectPage (recorder useSeHw mprotect status) sec rva) log (fun _ log' => log' = log)
      fun _ _ => ¬Accepting mprotect status := by
  unfold protectPage
  apply Runs.ite
  . intro _
    apply Runs.bind
    apply Runs.get
    apply Runs.ite
    . intro _
      exact .pure rfl
    intro hprotect
    exact .throw fun haccepts => hprotect (haccepts.2 log _)
  . intro _
    exact .pure rfl

theorem splice_rawData (hk : k < pagesOf sec sec.rawDataSize) {i : Nat} (hi : i < sePageSize) :
    splice (fun _ => 0) (pageOffset (sec.rva + offsetOf sec k))
        (min (sePageSize - pageOffset (sec.rva + offsetOf sec k)) (sec.rawDataSize - offsetOf sec k))
        (fun i => sec.rawData (offsetOf sec k + i)) i
      =
    imageByte sec (rvaOf sec k + i) := by
  have hoffset := offsetOf_lt_iff.2 hk
  have hrva := rvaOf_add_pageOffset sec k
  -- Only the first page may start before its data.
  have hfirst := offsetOf_eq_zero_or sec k
  have hlt : pageOffset (sec.rva + offsetOf sec k) < sePageSize := mod_lt _ (by decide)
  generalize pageOffset (sec.rva + offsetOf sec k) = p at *
  unfold splice imageByte
  split
  . rw [if_pos (by omega)]
    show sec.rawData _ = sec.rawData _
    congr 1
    omega
  . rw [if_neg (by omega)]

theorem imageByte_of_le (hk : ¬k < pagesOf sec sec.rawDataSize) (i : Nat) : imageByte sec (rvaOf sec k + i) = 0 := by
  rw [← offsetOf_lt_iff] at hk
  have hrva := rvaOf_add_pageOffset sec k
  have hfirst := offsetOf_eq_zero_or sec k
  unfold imageByte
  rw [if_neg (by omega)]

theorem content_eq_imagePage {page : Page} {a : Nat} (h : ∀ i < sePageSize, page.memory i = imageByte sec (a + i)) :
    page.content = imagePage sec a := by
  unfold Page.content imagePage load
  apply tabulate_congr
  intro i hi
  rw [zero_add]
  exact h i hi

theorem runs_buildRegionPage (h : Fits sec mage) (hk : k < pagesOf sec sec.virtualSize) (log : List Page) :
    Runs (buildRegionPage (recorder useSeHw mprotect status) mage sec k) log
      (fun _ log' => ∃ page, page.offset = rvaOf sec k ∧ page.content = imagePage sec (rvaOf sec k) ∧
        log' = log ++ if isAdded mage page.offset then [page] else [])
      fun _ _ => ¬Accepting mprotect status := by
  have hlt := lt_of_le_of_lt (le_add_right _ _) (rvaOf_lt h hk)
  unfold buildRegionPage
  apply Runs.ite
  . intro hraw
    have hoffset := offsetOf_lt_iff.2 hraw
    have hfinish := h.finish
    have hsize := h.raw
    have hrva : (sec.rva + offsetOf sec k) % 2 ^ 64 = sec.rva + offsetOf sec k := mod_eq_of_lt (by omega)
    unfold buildRawPage
    simp only [hrva]
    apply Runs.bind
    apply (runs_protectPage _ _).mono
    . rintro _ _ rfl
      apply Runs.ite
      . intro hfull
        -- A full page starts where its data starts.
        have hpage : pageOffset (sec.rva + offsetOf sec k) = 0 := by
          unfold pageOffset sePageSize at *
          omega
        have hstart := rvaOf_add_pageOffset sec k
        rw [hpage, add_zero] at hstart
        rw [hfull, ← hstart, buildPages_page _ _ hlt]
        refine (runs_addPage _ _).mono (fun _ _ h' => ⟨_, rfl, content_eq_imagePage ?_, h'⟩) fun _ _ h' => h'
        intro i hi
        rw [← splice_rawData hraw hi, hfull, hpage]
        exact (if_pos ⟨zero_le _, by rwa [zero_add]⟩).symm
      . intro _
        unfold buildPartialPage
        rw [rva_add_offsetOf, buildPages_page _ _ hlt]
        refine (runs_addPage _ _).mono (fun _ _ h' => ⟨_, rfl, content_eq_imagePage ?_, h'⟩) fun _ _ h' => h'
        intro i hi
        exact splice_rawData hraw hi
    . intro _ _ h'
      exact h'
  . intro hraw
    refine (runs_addPage _ _).mono (fun _ _ h' => ⟨_, rfl, content_eq_imagePage ?_, h'⟩) fun _ _ h' => h'
    intro i _
    exact (imageByte_of_le hraw i).symm

def regionPages (sec : SectionInfo) (mage : Option MageSection) (ks : List Nat) : List (Nat × List UInt8) :=
  (ks.filter fun k => isAdded mage (rvaOf sec k)).map fun k => (rvaOf sec k, imagePage sec (rvaOf sec k))

theorem runs_buildMemRegion (h : Fits sec mage) (log : List Page) :
    Runs (buildMemRegion (recorder useSeHw mprotect status) mage sec) log
      (fun _ log' => ∃ added, log' = log ++ added ∧ added.map (fun page => (page.offset, page.content)) =
        regionPages sec mage (List.range (pagesOf sec sec.virtualSize)))
      fun _ _ => ¬Accepting mprotect status := by
  rw [buildMemRegion_eq _ h]
  apply Runs.forM fun ks log' => ∃ added, log' = log ++ added ∧
    added.map (fun page => (page.offset, page.content)) = regionPages sec mage ks
  . exact ⟨[], (append_nil _).symm, rfl⟩
  rintro done k rest _ heq ⟨added, rfl, hadded⟩
  have hk : k < pagesOf sec sec.virtualSize := by
    rw [← mem_range, heq]
    simp
  refine (runs_buildRegionPage h hk _).mono (fun _ log' h' => ?_) fun _ _ h' => h'
  obtain ⟨page, hoffset, hcontent, rfl⟩ := h'
  refine ⟨_, append_assoc _ _ _, ?_⟩
  have hlast : (if isAdded mage page.offset then [page] else []).map (fun page => (page.offset, page.content)) =
      regionPages sec mage [k] := by
    unfold regionPages
    rw [hoffset, filter_singleton]
    by_cases hskip : isAdded mage (rvaOf sec k) = true
    . rw [if_pos hskip, hskip, cond_true, map_singleton, map_singleton, hoffset, hcontent]
    . rw [if_neg hskip, Bool.eq_false_iff.2 hskip, cond_false, map_nil, map_nil]
  rw [map_append, hadded, hlast]
  unfold regionPages
  rw [filter_append, map_append]

theorem faithful_of_map_eq {added : List Page} (h : Fits sec mage)
    (hadded : added.map (fun page => (page.offset, page.content)) =
      regionPages sec mage (List.range (pagesOf sec sec.virtualSize))) : Faithful sec mage added := by
  have hoffsets : added.map Page.offset =
      ((List.range (pagesOf sec sec.virtualSize)).filter fun k => isAdded mage (rvaOf sec k)).map (rvaOf sec) := by
    have hfst := congrArg (List.map Prod.fst) hadded
    rw [map_map, regionPages, map_map] at hfst
    exact hfst
  constructor
  . rw [hoffsets, pairwise_map]
    apply List.Pairwise.filter
    refine pairwise_lt_range.imp fun hlt => ?_
    unfold rvaOf
    exact Nat.add_lt_add_left (Nat.mul_lt_mul_of_pos_left hlt (by decide)) _
  . intro a
    rw [hoffsets, mem_map, roundToPage_eq h]
    constructor
    . rintro ⟨k, hk, rfl⟩
      obtain ⟨hmem, hskip⟩ := mem_filter.1 hk
      have hlt := mem_range.1 hmem
      refine ⟨?_, le_add_right _ _, ?_, (isAdded_iff h hlt).1 hskip⟩
      . unfold rvaOf trimToPage sePageSize
        omega
      unfold rvaOf sePageSize
      omega
    rintro ⟨⟨b, rfl⟩, hle, hlt, hmeets⟩
    have hrva : rvaOf sec (b - sec.rva / sePageSize) = sePageSize * b := by
      unfold rvaOf trimToPage sePageSize at *
      omega
    have hk : b - sec.rva / sePageSize < pagesOf sec sec.virtualSize := by
      unfold rvaOf trimToPage sePageSize at *
      omega
    rw [← hrva] at hmeets
    exact ⟨_, mem_filter.2 ⟨mem_range.2 hk, (isAdded_iff h hk).2 hmeets⟩, hrva⟩
  . intro page hpage
    have hmem : (page.offset, page.content) ∈ regionPages sec mage (List.range (pagesOf sec sec.virtualSize)) := by
      rw [← hadded]
      exact mem_map_of_mem hpage
    obtain ⟨k, -, hk⟩ := mem_map.1 hmem
    obtain ⟨hoffset, hcontent⟩ := Prod.mk.inj hk
    rw [← hoffset, ← hcontent]

/--
Every page of a section that does not meet the range of the section for measurements is added once, in order and with
the bytes of the section on that page. Nothing else is added.
-/
theorem buildMemRegion_faithful (h : Fits sec mage) (log : List Page) :
    (∀ log', buildMemRegion (recorder useSeHw mprotect status) mage sec log = .ok () log' →
      ∃ added, log' = log ++ added ∧ Faithful sec mage added) ∧
    (Accepting mprotect status →
      ∃ log', buildMemRegion (recorder useSeHw mprotect status) mage sec log = .ok () log') := by
  have hruns : Runs (buildMemRegion (recorder useSeHw mprotect status) mage sec) log _ _ := runs_buildMemRegion h log
  constructor
  . intro log' hok
    obtain ⟨added, hlog, hadded⟩ := hruns.ok hok
    exact ⟨added, hlog, faithful_of_map_eq h hadded⟩
  intro haccepts
  cases hresult : buildMemRegion (recorder useSeHw mprotect status) mage sec log with
  | ok a log' => exact ⟨log', rfl⟩
  | error e log' => exact absurd haccepts (hruns.error hresult)

end Recorder

def accepting : Creator (List Page) := recorder false (fun _ _ => true) fun _ _ => 0

section Creators

theorem addPage_eq_forM {σ : Type} (creator : Creator σ) (mage : Option MageSection) (page : Page) :
    addPage creator mage page = (if isAdded mage page.offset then [page] else []).forM creator.addEnclavePage := by
  unfold addPage
  split
  . exact (bind_pure _).symm
  . rfl

theorem buildPages_eq_forM (mage : Option MageSection) (startRva size : Nat) (source : Option Mem) (sinfo : SecInfo)
    (attr : UInt32) : ∃ pages : List Page, ∀ {σ : Type} (creator : Creator σ),
      buildPages creator mage startRva size source sinfo attr = pages.forM creator.addEnclavePage := by
  let page (k : Nat) : Page := ⟨source, (startRva + sePageSize * k) % 2 ^ 64, sinfo, attr⟩
  refine ⟨(List.range ((size + (sePageSize - 1)) / sePageSize)).flatMap fun k =>
    if isAdded mage (page k).offset then [page k] else [], fun creator => ?_⟩
  rw [forM_flatMap]
  exact forM_congr fun k _ => addPage_eq_forM creator mage (page k)

theorem buildRegionPage_eq_forM (sec : SectionInfo) (mage : Option MageSection) (k : Nat) :
    ∃ pages : List Page, ∀ {σ : Type} (creator : Creator σ), creator.useSeHw = false →
      buildRegionPage creator mage sec k = pages.forM creator.addEnclavePage := by
  unfold buildRegionPage buildRawPage buildPartialPage
  by_cases hraw : k < pagesOf sec sec.rawDataSize
  . simp only [if_pos hraw]
    split
    all_goals
      obtain ⟨pages, hpages⟩ := buildPages_eq_forM mage _ _ _ _ _
      refine ⟨pages, fun creator hsim => ?_⟩
      rw [protectPage, hsim, Bool.and_false]
      exact hpages creator
  let page : Page := ⟨none, rvaOf sec k, .ofFlags sec.flag, addExtendPage⟩
  refine ⟨if isAdded mage page.offset then [page] else [], fun creator _ => ?_⟩
  rw [if_neg hraw]
  exact addPage_eq_forM creator mage page

/--
Every creator that simulates is given the same pages of a section, and they are faithful.
-/
theorem buildMemRegion_eq_forM {sec : SectionInfo} {mage : Option MageSection} (h : Fits sec mage) :
    ∃ pages, Faithful sec mage pages ∧ ∀ {σ : Type} (creator : Creator σ), creator.useSeHw = false →
      buildMemRegion creator mage sec = pages.forM creator.addEnclavePage := by
  choose pages hpages using buildRegionPage_eq_forM sec mage
  have heq {σ : Type} (creator : Creator σ) (hsim : creator.useSeHw = false) : buildMemRegion creator mage sec =
      ((List.range (pagesOf sec sec.virtualSize)).flatMap pages).forM creator.addEnclavePage := by
    rw [buildMemRegion_eq creator h, forM_flatMap]
    exact forM_congr fun k _ => hpages k creator hsim
  refine ⟨_, ?_, heq⟩
  -- The pages are what a creator that accepts everything records.
  obtain ⟨log, hok⟩ : ∃ log, buildMemRegion accepting mage sec [] = .ok () log :=
    (buildMemRegion_faithful h []).2 ⟨fun _ _ => rfl, fun _ _ => rfl⟩
  obtain ⟨added, rfl, hfaithful⟩ := (buildMemRegion_faithful h []).1 log hok
  rw [heq accepting rfl] at hok
  have hlog := (runs_forM_recorder _ []).ok hok
  rw [nil_append] at hlog
  exact hlog ▸ hfaithful

end Creators

def zeroSection (rva virtualSize : Nat) : SectionInfo := ⟨fun _ => 0, 0, rva, virtualSize, 0x201, none⟩

def dataSection : SectionInfo := ⟨fun a => UInt8.ofNat (a + 1), 0x1200, 0x1800, 0x2000, 0x201, none⟩

theorem fits_dataSection : Fits dataSection none where
  raw := by decide
  finish := by decide
  nonempty := by decide
  aligned := by decide
  skip := by decide

theorem buildMemRegion_faithful_dataSection :
    ∃ added, buildMemRegion accepting none dataSection [] = .ok () added ∧ Faithful dataSection none added := by
  obtain ⟨log', hok⟩ : ∃ log', buildMemRegion accepting none dataSection [] = .ok () log' :=
    (buildMemRegion_faithful fits_dataSection []).2 ⟨fun _ _ => rfl, fun _ _ => rfl⟩
  obtain ⟨added, rfl, h⟩ := (buildMemRegion_faithful fits_dataSection []).1 log' hok
  exact ⟨_, hok, h⟩

theorem not_faithful_empty : ¬Faithful (zeroSection 0x1800 0) none [] := by
  intro h
  have hmem := (h.covers 0x1000).2 ⟨by decide, by decide, by decide, ?_⟩
  . cases hmem
  rintro ⟨x, -, -, -, hx⟩
  exact not_lt_zero x hx

def mageToEnd : MageSection := ⟨fun _ => 0, 0x1000, 2 ^ 64 - 0x1000⟩

theorem buildMemRegion_not_faithful :
    (buildMemRegion accepting none (zeroSection 0x1800 0) [] = .ok () [] ∧
      ¬Faithful (zeroSection 0x1800 0) none []) ∧
    (∃ added, buildMemRegion accepting none (zeroSection (2 ^ 64 - 0x1000) 0x2000) [] = .ok () added ∧
      added.map Page.offset = [2 ^ 64 - 0x1000, 0] ∧
      ¬Faithful (zeroSection (2 ^ 64 - 0x1000) 0x2000) none added) ∧
    (∃ added, buildMemRegion accepting (some mageToEnd) (zeroSection 0x2000 0x1000) [] = .ok () added ∧
      added.map Page.offset = [0x2000] ∧ ¬Faithful (zeroSection 0x2000 0x1000) (some mageToEnd) added) := by
  refine ⟨⟨rfl, not_faithful_empty⟩, ⟨_, rfl, by decide, fun h => ?_⟩, ⟨_, rfl, by decide, fun h => ?_⟩⟩
  . exact absurd h.sorted (by decide)
  . have hcovers := (h.covers 0x2000).1 (by decide)
    exact hcovers.2.2.2 ⟨0x2000, by decide⟩

end CLoader
