import SrasMage.Trts.Epc

/-!
This module contains the heap of an enclave (`sdk/tlibc/gen/sbrk.c`).
-/

namespace Trts

open Nat

structure Heap where
  heapBase : Nat
  heapSize : Nat
  isEdmmSupported : Bool
  heapMinSize : Nat
  heapUsed : Nat
  gPeakHeapUsed : Nat
  pages : Pages

def Heap.unset : Heap := ⟨0, 0, false, 0, 0, 0, fun _ => false⟩

def heapInit (base size minSize : Nat) (edmm : Bool) (s : Heap) : Option Heap :=
  if s.heapBase ≠ 0 then none
  else if base = 0 ∨ base % sePageSize ≠ 0 then none
  else if size % sePageSize ≠ 0 then none
  else if minSize % sePageSize ≠ 0 then none
  -- the base that is read here is the old one, NULL
  else if size > 2 ^ 64 - 1 - s.heapBase then none
  else some { s with heapBase := base, heapSize := size, heapMinSize := minSize, isEdmmSupported := edmm }

def shrink (L : Layout) (n : Nat) (s : Heap) : Outcome (Option Nat × Heap) :=
  if s.heapUsed < n then .done (none, s)
  else
    let heapUsed := s.heapUsed - n
    let heapPtr := (s.heapBase + heapUsed) % 2 ^ 64
    if s.isEdmmSupported && s.heapUsed > s.heapMinSize then
      if n % sePageSize ≠ 0 then .abort
      else
        let start := if heapUsed > s.heapMinSize then heapPtr else (s.heapBase + s.heapMinSize) % 2 ^ 64
        let size := if heapUsed > s.heapMinSize then n else s.heapUsed - s.heapMinSize
        match trimEpcPages L start (size / sePageSize) s.pages with
        | .done (true, pages) => .done (some heapPtr, { s with heapUsed := heapUsed, pages := pages })
        | .done (false, _) => .done (none, s)
        | .abort => .abort
        | .running => .running
    else .done (some heapPtr, { s with heapUsed := heapUsed })

def extend (L : Layout) (n : Nat) (s : Heap) : Outcome (Option Nat × Heap) :=
  if s.heapUsed > 2 ^ 64 - 1 - n ∨ (s.heapUsed + n) % 2 ^ 64 > s.heapSize then .done (none, s)
  else
    let heapPtr := (s.heapBase + s.heapUsed) % 2 ^ 64
    let heapUsed := (s.heapUsed + n) % 2 ^ 64
    let peak := if s.gPeakHeapUsed < heapUsed then heapUsed else s.gPeakHeapUsed
    if s.isEdmmSupported && heapUsed > s.heapMinSize then
      if n % sePageSize ≠ 0 then .abort
      else
        let start := if s.heapUsed > s.heapMinSize then heapPtr else (s.heapBase + s.heapMinSize) % 2 ^ 64
        let size := if s.heapUsed > s.heapMinSize then n else heapUsed - s.heapMinSize
        match applyEpcPages L start (size / sePageSize) s.pages with
        | .done (true, pages) =>
          .done (some heapPtr, { s with heapUsed := heapUsed, gPeakHeapUsed := peak, pages := pages })
        | .done (false, _) => .done (none, { s with gPeakHeapUsed := peak })
        | .abort => .abort
        | .running => .running
    else .done (some heapPtr, { s with heapUsed := heapUsed, gPeakHeapUsed := peak })

def sbrk (L : Layout) (n : Int64) (s : Heap) : Outcome (Option Nat × Heap) :=
  if s.heapBase = 0 then .done (none, s)
  else if n.toInt < 0 then shrink L n.toInt.natAbs s
  else extend L n.toInt.natAbs s

structure Area where
  start : Nat
  size : Nat

def Area.cut (brk : Nat) (a : Area) : Area := { a with size := min a.size (brk - a.start) }

def release (brk : Nat) (live : List Area) : List Area := (live.filter (·.start < brk)).map (Area.cut brk)

def liveAfter (n : Int64) (result : Option Nat) (live : List Area) : List Area :=
  match result with
  | none => live
  | some ptr => if n.toInt < 0 then release ptr live else ⟨ptr, n.toInt.natAbs⟩ :: live

structure Record where
  before : Heap
  arg : Int64
  result : Option Nat
  after : Heap
  live : List Area

def run (L : Layout) : List Int64 → Heap → List Area → List Record
  | [], _, _ => []
  | n :: rest, s, live =>
    match sbrk L n s with
    | .done (result, s') =>
      let live' := liveAfter n result live
      ⟨s, n, result, s', live'⟩ :: run L rest s' live'
    | _ => []

def Steady (L : Layout) : List Int64 → Heap → Prop
  | [], _ => True
  | n :: rest, s =>
    (s.isEdmmSupported = true → 0 ≤ n.toInt → s.heapMinSize < s.heapUsed + n.toInt.natAbs →
      s.heapUsed + n.toInt.natAbs ≤ s.heapSize → s.heapUsed % sePageSize = 0) ∧
    match sbrk L n s with
    | .done (_, s') => Steady L rest s'
    | _ => True

instance decidableSteady (L : Layout) : (args : List Int64) → (s : Heap) → Decidable (Steady L args s)
  | [], _ => .isTrue trivial
  | n :: rest, s =>
    have : Decidable (match sbrk L n s with
        | .done (_, s') => Steady L rest s'
        | _ => True) :=
      match sbrk L n s with
      | .done (_, s') => decidableSteady L rest s'
      | .abort => .isTrue trivial
      | .running => .isTrue trivial
    inferInstanceAs (Decidable (_ ∧ _))

structure Record.Good (L : Layout) (r : Record) : Prop where
  used_le : r.after.heapUsed ≤ L.heapSize
  fits : L.heapBase + L.heapSize < 2 ^ 64
  extends_break : 0 ≤ r.arg.toInt → r.result = some (L.heapBase + r.before.heapUsed) ∧
    r.after.heapUsed = r.before.heapUsed + r.arg.toInt.natAbs
  disjoint : r.live.Pairwise fun newer older => older.start + older.size ≤ newer.start
  inside : ∀ a ∈ r.live, L.heapBase ≤ a.start ∧ a.start + a.size ≤ L.heapBase + r.after.heapUsed
  committed : r.after.isEdmmSupported = true → ∀ a, L.heapBase + L.heapMinSize ≤ a →
    a < L.heapBase + r.after.heapUsed → r.after.pages (trimToPage a) = true
  released : r.after.isEdmmSupported = true → ∀ page, page % sePageSize = 0 →
    L.heapBase + r.after.heapUsed ≤ page → r.after.pages page = false

structure Heap.Sound (L : Layout) (edmm : Bool) (s : Heap) : Prop where
  base : s.heapBase = L.heapBase
  size : s.heapSize = L.heapSize
  minSize : s.heapMinSize = L.heapMinSize
  supported : s.isEdmmSupported = edmm
  base_pos : 0 < L.heapBase
  base_aligned : L.heapBase % sePageSize = 0
  minSize_aligned : L.heapMinSize % sePageSize = 0
  used_le : s.heapUsed ≤ L.heapSize
  used_aligned : edmm = true → L.heapMinSize < s.heapUsed → s.heapUsed % sePageSize = 0
  pages : edmm = true → s.pages = setPages (fun _ => false) (L.heapBase + L.heapMinSize)
    (L.heapBase + s.heapUsed) true

theorem heapInit_sound {L : Layout} {edmm : Bool} {s : Heap}
    (h : heapInit L.heapBase L.heapSize L.heapMinSize edmm Heap.unset = some s) :
    s.Sound L edmm ∧ s.heapUsed = 0 := by
  unfold heapInit at h
  split at h
  . cases h
  split at h
  . cases h
  next hbase =>
  split at h
  . cases h
  split at h
  . cases h
  next hmin =>
  split at h
  . cases h
  obtain rfl := Option.some.inj h
  refine ⟨⟨rfl, rfl, rfl, rfl, by omega, by omega, by omega, zero_le _, fun _ h => ?_, fun _ => ?_⟩, rfl⟩
  . cases h
  . exact (setPages_of_le (le_add_right _ _) _ _).symm

section

variable {L : Layout} {edmm : Bool} {s : Heap}

theorem setPages_append {pages : Pages} {lo mid hi : Nat} {accept : Bool} (hlo : lo ≤ mid) (hhi : mid ≤ hi) :
    setPages (setPages pages lo mid accept) mid hi accept = setPages pages lo hi accept := by
  funext page
  unfold setPages
  by_cases hin : lo ≤ page ∧ page < hi ∧ page % sePageSize = 0
  . rw [if_pos hin]
    by_cases hmid : mid ≤ page
    . rw [if_pos ⟨hmid, hin.2⟩]
    . rw [if_neg (by omega), if_pos (by omega)]
  . rw [if_neg (by omega), if_neg (by omega), if_neg hin]

theorem setPages_remove {lo mid hi : Nat} (hhi : mid ≤ hi) :
    setPages (setPages (fun _ => false) lo hi true) mid hi false = setPages (fun _ => false) lo mid true := by
  funext page
  unfold setPages
  by_cases hin : lo ≤ page ∧ page < mid ∧ page % sePageSize = 0
  . rw [if_pos hin, if_neg (by omega), if_pos (by omega)]
  rw [if_neg hin]
  split
  . rfl
  . rw [if_neg (by omega)]

structure Moved (L : Layout) (edmm : Bool) (s : Heap) (used : Nat) (result : Option Nat) (s' : Heap) :
    Prop where
  sound : s'.Sound L edmm
  failure : result = none → s'.heapUsed = s.heapUsed
  success : result ≠ none → s'.heapUsed = used ∧ result = some (L.heapBase + min s.heapUsed used)

variable {n : Nat}

theorem Heap.Sound.shrink (hs : s.Sound L edmm) (hwrap : L.heapBase + L.heapSize < 2 ^ 64)
    {res : Option Nat × Heap} (h : shrink L n s = .done res) :
    Moved L edmm s (s.heapUsed - n) res.1 res.2 ∧ (res.1 ≠ none → n ≤ s.heapUsed) := by
  have hused := hs.used_le
  have hmin := hs.minSize_aligned
  have hbase := hs.base_aligned
  have hpos := hs.base_pos
  unfold sePageSize at hmin hbase
  unfold Trts.shrink at h
  rw [hs.base, hs.minSize, hs.supported] at h
  split at h
  . cases h
    exact ⟨⟨hs, fun _ => rfl, fun h => absurd rfl h⟩, fun h => absurd rfl h⟩
  next hle =>
  dsimp only at h
  have hptr : (L.heapBase + (s.heapUsed - n)) % 2 ^ 64 = L.heapBase + (s.heapUsed - n) := by omega
  have hmoved : min s.heapUsed (s.heapUsed - n) = s.heapUsed - n := by omega
  rw [hptr] at h
  split at h
  . next hedmm =>
    simp only [Bool.and_eq_true, decide_eq_true_eq] at hedmm
    obtain ⟨hedmm, hgt⟩ := hedmm
    have haligned := hs.used_aligned hedmm hgt
    unfold sePageSize at haligned
    split at h
    . cases h
    next hn =>
    have hn : n % 4096 = 0 := not_not.1 hn
    have hdyn : (L.heapBase + L.heapMinSize) % 2 ^ 64 = L.heapBase + L.heapMinSize := by omega
    rw [hdyn] at h
    -- the pages between the new break, or the minimal size, and the old break are trimmed
    obtain ⟨start, count, hstart, hcount, hlo, hhi, haddr, htrim⟩ : ∃ start count,
        (if s.heapUsed - n > L.heapMinSize then L.heapBase + (s.heapUsed - n) else L.heapBase + L.heapMinSize) = start ∧
        (if s.heapUsed - n > L.heapMinSize then n else s.heapUsed - L.heapMinSize) / sePageSize = count ∧
        start = L.heapBase + max (s.heapUsed - n) L.heapMinSize ∧
        start + count * sePageSize = L.heapBase + s.heapUsed ∧ start % sePageSize = 0 ∧
        L.heapBase + L.heapMinSize ≤ start := by
      refine ⟨_, _, rfl, rfl, ?_⟩
      unfold sePageSize
      split <;> omega
    rw [hstart, hcount, trimEpcPages_heap hwrap (by omega) haddr htrim (by omega), hhi] at h
    cases h
    refine ⟨⟨⟨rfl, hs.size, rfl, rfl, hs.base_pos, hs.base_aligned, hs.minSize_aligned, ?_, fun _ _ => ?_,
      fun _ => ?_⟩, fun h => (by cases h), fun _ => ?_⟩, fun _ => by omega⟩
    . show s.heapUsed - n ≤ L.heapSize
      omega
    . show (s.heapUsed - n) % 4096 = 0
      omega
    . show setPages s.pages start (L.heapBase + s.heapUsed) false = setPages _ _ (L.heapBase + (s.heapUsed - n)) true
      rw [hs.pages hedmm, setPages_remove (by omega), hlo]
      obtain hle' | hgt' := le_total (s.heapUsed - n) L.heapMinSize
      . rw [max_eq_right hle', setPages_of_le (le_refl _), setPages_of_le (by omega)]
      . rw [max_eq_left hgt']
    . rw [hmoved]
      exact ⟨rfl, rfl⟩
  . next hstatic =>
    cases h
    refine ⟨⟨⟨rfl, hs.size, rfl, rfl, hs.base_pos, hs.base_aligned, hs.minSize_aligned, ?_,
      fun hedmm hgt => ?_, fun hedmm => ?_⟩, fun h => (by cases h), fun _ => ?_⟩, fun _ => by omega⟩
    . show s.heapUsed - n ≤ L.heapSize
      omega
    . change L.heapMinSize < s.heapUsed - n at hgt
      simp only [hedmm, Bool.true_and, decide_eq_true_eq] at hstatic
      omega
    . simp only [hedmm, Bool.true_and, decide_eq_true_eq] at hstatic
      show s.pages = setPages _ _ (L.heapBase + (s.heapUsed - n)) true
      rw [hs.pages hedmm, setPages_of_le (by omega), setPages_of_le (by omega)]
    . rw [hmoved]
      exact ⟨rfl, rfl⟩

theorem Heap.Sound.extend (hs : s.Sound L edmm) (hwrap : L.heapBase + L.heapSize < 2 ^ 64) (hn : n < 2 ^ 64)
    (hsteady : edmm = true → L.heapMinSize < s.heapUsed + n → s.heapUsed + n ≤ L.heapSize →
      s.heapUsed % sePageSize = 0)
    {res : Option Nat × Heap} (h : extend L n s = .done res) :
    Moved L edmm s (s.heapUsed + n) res.1 res.2 := by
  have hused := hs.used_le
  have hmin := hs.minSize_aligned
  have hbase := hs.base_aligned
  have hpos := hs.base_pos
  unfold sePageSize at hmin hbase
  unfold Trts.extend at h
  rw [hs.base, hs.minSize, hs.supported, hs.size] at h
  split at h
  . cases h
    exact ⟨hs, fun _ => rfl, fun h => absurd rfl h⟩
  next hroom =>
  dsimp only at h
  have hptr : (L.heapBase + s.heapUsed) % 2 ^ 64 = L.heapBase + s.heapUsed := by omega
  have hsum : (s.heapUsed + n) % 2 ^ 64 = s.heapUsed + n := by omega
  have hmoved : min s.heapUsed (s.heapUsed + n) = s.heapUsed := by omega
  rw [hptr, hsum] at h
  rw [hsum] at hroom
  split at h
  . next hedmm =>
    simp only [Bool.and_eq_true, decide_eq_true_eq] at hedmm
    obtain ⟨hedmm, hgt⟩ := hedmm
    have haligned := hsteady hedmm hgt (by omega)
    unfold sePageSize at haligned
    split at h
    . cases h
    next hpage =>
    have hpage : n % 4096 = 0 := not_not.1 hpage
    have hdyn : (L.heapBase + L.heapMinSize) % 2 ^ 64 = L.heapBase + L.heapMinSize := by omega
    rw [hdyn] at h
    -- the pages between the old break, or the minimal size, and the new break are accepted
    obtain ⟨start, count, hstart, hcount, hlo, hhi, haddr, happly⟩ : ∃ start count,
        (if s.heapUsed > L.heapMinSize then L.heapBase + s.heapUsed else L.heapBase + L.heapMinSize) = start ∧
        (if s.heapUsed > L.heapMinSize then n else s.heapUsed + n - L.heapMinSize) / sePageSize = count ∧
        start = L.heapBase + max s.heapUsed L.heapMinSize ∧
        start + count * sePageSize = L.heapBase + (s.heapUsed + n) ∧ start % sePageSize = 0 ∧
        L.heapBase + L.heapMinSize ≤ start := by
      refine ⟨_, _, rfl, rfl, ?_⟩
      unfold sePageSize
      split <;> omega
    rw [hstart, hcount, applyEpcPages_heap hwrap (by omega) haddr happly (by omega), hhi] at h
    cases h
    refine ⟨⟨rfl, rfl, rfl, rfl, hs.base_pos, hs.base_aligned, hs.minSize_aligned, ?_, fun _ _ => ?_,
      fun _ => ?_⟩, fun h => (by cases h), fun _ => ?_⟩
    . show s.heapUsed + n ≤ L.heapSize
      omega
    . show (s.heapUsed + n) % 4096 = 0
      omega
    . show setPages s.pages start (L.heapBase + (s.heapUsed + n)) true = _
      rw [hs.pages hedmm, hlo]
      obtain hle | hge := le_total s.heapUsed L.heapMinSize
      . have hnone : setPages (fun _ => false) (L.heapBase + L.heapMinSize) (L.heapBase + s.heapUsed) true
            = fun _ => false :=
          setPages_of_le (by omega) _ _
        rw [max_eq_right hle, hnone]
      . rw [max_eq_left hge, setPages_append (by omega) (by omega)]
    . rw [hmoved]
      exact ⟨rfl, rfl⟩
  . next hstatic =>
    cases h
    refine ⟨⟨rfl, rfl, rfl, rfl, hs.base_pos, hs.base_aligned, hs.minSize_aligned, ?_, fun hedmm hgt => ?_,
      fun hedmm => ?_⟩, fun h => (by cases h), fun _ => ?_⟩
    . show s.heapUsed + n ≤ L.heapSize
      omega
    . change L.heapMinSize < s.heapUsed + n at hgt
      simp only [hedmm, Bool.true_and, decide_eq_true_eq] at hstatic
      omega
    . simp only [hedmm, Bool.true_and, decide_eq_true_eq] at hstatic
      show s.pages = setPages _ _ (L.heapBase + (s.heapUsed + n)) true
      rw [hs.pages hedmm, setPages_of_le (by omega), setPages_of_le (by omega)]
    . rw [hmoved]
      exact ⟨rfl, rfl⟩

structure Live (L : Layout) (used : Nat) (live : List Area) : Prop where
  disjoint : live.Pairwise fun newer older => older.start + older.size ≤ newer.start
  inside : ∀ a ∈ live, L.heapBase ≤ a.start ∧ a.start + a.size ≤ L.heapBase + used

theorem Live.push {live : List Area} {used : Nat} (h : Live L used live) (n : Nat) :
    Live L (used + n) (⟨L.heapBase + used, n⟩ :: live) where
  disjoint := List.pairwise_cons.2 ⟨fun a ha => (h.inside a ha).2, h.disjoint⟩
  inside a ha := by
    obtain rfl | ha := List.mem_cons.1 ha
    . exact ⟨le_add_right _ _, le_of_eq (add_assoc _ _ _)⟩
    have := h.inside a ha
    omega

theorem Live.release {live : List Area} {used used' : Nat} (h : Live L used live) :
    Live L used' (release (L.heapBase + used') live) where
  disjoint := by
    refine List.Pairwise.map _ (fun newer older hle => ?_) (h.disjoint.filter _)
    exact (Nat.add_le_add_left (Nat.min_le_left _ _) _).trans hle
  inside a ha := by
    obtain ⟨b, hb, rfl⟩ := List.mem_map.1 ha
    obtain ⟨hmem, hlt⟩ := List.mem_filter.1 hb
    have hstart := (h.inside b hmem).1
    have hbelow := of_decide_eq_true hlt
    refine ⟨hstart, ?_⟩
    show b.start + min b.size (L.heapBase + used' - b.start) ≤ L.heapBase + used'
    omega

theorem Heap.Sound.sbrk {n : Int64} {result : Option Nat} {s' : Heap} (hs : s.Sound L edmm)
    (hwrap : L.heapBase + L.heapSize < 2 ^ 64)
    (hsteady : edmm = true → 0 ≤ n.toInt → L.heapMinSize < s.heapUsed + n.toInt.natAbs →
      s.heapUsed + n.toInt.natAbs ≤ L.heapSize → s.heapUsed % sePageSize = 0) (h : sbrk L n s = .done (result, s')) :
    s'.Sound L edmm ∧ (result = none → s'.heapUsed = s.heapUsed) ∧
      (result ≠ none → (0 ≤ n.toInt → s'.heapUsed = s.heapUsed + n.toInt.natAbs) ∧
        result = some (L.heapBase + if n.toInt < 0 then s'.heapUsed else s.heapUsed)) := by
  have hpos := hs.base_pos
  unfold Trts.sbrk at h
  rw [hs.base, if_neg (by omega)] at h
  by_cases hneg : n.toInt < 0
  . rw [if_pos hneg] at h
    obtain ⟨hmoved, hle⟩ := hs.shrink hwrap h
    refine ⟨hmoved.sound, hmoved.failure, fun hne => ⟨fun hge => by omega, ?_⟩⟩
    obtain ⟨hused, hres⟩ := hmoved.success hne
    rw [if_pos hneg, hused]
    rw [min_eq_right (sub_le _ _)] at hres
    exact hres
  rw [if_neg hneg] at h
  have hlt := n.toInt_lt
  have hmoved := hs.extend hwrap (by omega) (fun hedmm => hsteady hedmm (by omega)) h
  refine ⟨hmoved.sound, hmoved.failure, fun hne => ?_⟩
  obtain ⟨hused, hres⟩ := hmoved.success hne
  rw [if_neg hneg]
  rw [min_eq_left (le_add_right _ _)] at hres
  exact ⟨fun _ => hused, hres⟩

theorem Live.after {live : List Area} {n : Int64} {result : Option Nat} {s' : Heap} (h : Live L s.heapUsed live)
    (hres : (0 ≤ n.toInt → s'.heapUsed = s.heapUsed + n.toInt.natAbs) ∧
      result = some (L.heapBase + if n.toInt < 0 then s'.heapUsed else s.heapUsed)) :
    Live L s'.heapUsed (liveAfter n result live) := by
  obtain ⟨hused, rfl⟩ := hres
  unfold liveAfter
  dsimp only
  by_cases hneg : n.toInt < 0
  . rw [if_pos hneg, if_pos hneg]
    exact h.release
  rw [if_neg hneg, if_neg hneg, hused (by omega)]
  exact h.push _

theorem Heap.Sound.good {n : Int64} {result : Option Nat} {s' : Heap} {live : List Area}
    (hs : s'.Sound L edmm) (hwrap : L.heapBase + L.heapSize < 2 ^ 64) (hlive : Live L s'.heapUsed live)
    (hres : (0 ≤ n.toInt → s'.heapUsed = s.heapUsed + n.toInt.natAbs) ∧
      result = some (L.heapBase + if n.toInt < 0 then s'.heapUsed else s.heapUsed)) :
    Record.Good L ⟨s, n, result, s', live⟩ where
  used_le := hs.used_le
  fits := hwrap
  extends_break hge := ⟨by rw [hres.2, if_neg (Int.not_lt.2 hge)], hres.1 hge⟩
  disjoint := hlive.disjoint
  inside := hlive.inside
  committed hedmm a hlo hhi := by
    have hsupported := hs.supported.symm.trans hedmm
    have hused := hs.used_le
    have hbase := hs.base_aligned
    have hmin := hs.minSize_aligned
    dsimp only at hlo hhi ⊢
    rw [hs.pages hsupported, trimToPage_eq]
    refine if_pos ?_
    unfold sePageSize at *
    omega
  released hedmm page hpage hge := by
    dsimp only at hge ⊢
    rw [hs.pages (hs.supported.symm.trans hedmm)]
    exact if_neg (by omega)

/--
From `heap_init` on, every successful call leaves the heap in order if the heap does not wrap around and
every call that raises the break above the minimal size finds it at the start of a page.
-/
theorem run_good {args : List Int64} (hwrap : L.heapBase + L.heapSize < 2 ^ 64)
    (hinit : heapInit L.heapBase L.heapSize L.heapMinSize edmm Heap.unset = some s)
    (hsteady : Steady L args s) : ∀ r ∈ run L args s [], r.result ≠ none → r.Good L := by
  obtain ⟨hs, hzero⟩ := heapInit_sound hinit
  have hlive : Live L s.heapUsed [] := ⟨.nil, fun _ h => by cases h⟩
  clear hinit hzero
  generalize ([] : List Area) = live at hlive
  induction args generalizing s live with
  | nil => exact fun r hr => by cases hr
  | cons n rest ih =>
    intro r hr hne
    unfold run at hr
    obtain ⟨hstep, hrest⟩ := hsteady
    rw [hs.supported, hs.minSize, hs.size] at hstep
    cases hsbrk : sbrk L n s with
    | abort => rw [hsbrk] at hr; cases hr
    | running => rw [hsbrk] at hr; cases hr
    | done res =>
      obtain ⟨result, s'⟩ := res
      rw [hsbrk] at hr hrest
      dsimp only at hr hrest
      obtain ⟨hs', hfailure, hres⟩ := hs.sbrk hwrap hstep hsbrk
      have hlive' : Live L s'.heapUsed (liveAfter n result live) := by
        cases result with
        | none =>
          rw [hfailure rfl]
          exact hlive
        | some ptr => exact hlive.after (hres (by simp))
      obtain rfl | hr := List.mem_cons.1 hr
      . exact hs'.good hwrap hlive' (hres hne)
      . exact ih hrest hs' _ hlive' r hr hne

end

def smallHeap : Layout := ⟨0x10000, 0x4000, 0x1000, fun _ _ => none, by decide, by decide, by decide⟩

def smallHeap.start : Heap := { Heap.unset with
  heapBase := 0x10000, heapSize := 0x4000, heapMinSize := 0x1000, isEdmmSupported := true }

theorem run_good_smallHeap :
    (run smallHeap [0x1000, 0x2000, -0x1000] smallHeap.start []).map (fun r => (r.result, r.after.heapUsed))
        = [(some 0x10000, 0x1000), (some 0x11000, 0x3000), (some 0x12000, 0x2000)] ∧
      ∀ r ∈ run smallHeap [0x1000, 0x2000, -0x1000] smallHeap.start [], r.result ≠ none → r.Good smallHeap :=
  ⟨by decide +kernel, run_good (by decide) rfl (by decide +kernel)⟩

theorem raised_break_uncommitted :
    heapInit 0x10000 0x4000 0x1000 true Heap.unset = some smallHeap.start ∧
      (∃ r ∈ run smallHeap [1, 0x1000] smallHeap.start [], r.before.heapUsed = 1 ∧ r.result = some 0x10001 ∧
        r.after.heapUsed = 0x1001 ∧ r.after.pages (trimToPage 0x11000) = false ∧ ¬ r.Good smallHeap) ∧
      (heapInit 0xfffffffffffff000 0x2000 0x1000 true Heap.unset).isSome = true := by
  refine ⟨rfl, ?_, by decide +kernel⟩
  have hlast : ((run smallHeap [1, 0x1000] smallHeap.start [])[1]?).map (fun r => (r.before.heapUsed, r.result,
      r.after.heapUsed, r.after.pages (trimToPage 0x11000), r.after.isEdmmSupported))
        = some (1, some 0x10001, 0x1001, false, true) := by decide +kernel
  obtain ⟨r, hr, heq⟩ := Option.map_eq_some_iff.1 hlast
  simp only [Prod.mk.injEq] at heq
  obtain ⟨hbefore, hresult, hused, hpage, hedmm⟩ := heq
  refine ⟨r, List.mem_of_getElem? hr, hbefore, hresult, hused, hpage, fun hgood => ?_⟩
  have hcommitted := hgood.committed hedmm 0x11000 (by decide) (by rw [hused]; decide)
  rw [hpage] at hcommitted
  cases hcommitted

end Trts
