import SrasMage.Loader.Coverage
import SrasMage.Trts.AddTrim

/-!
This module contains the pages that are removed after an enclave is initialised.
-/

namespace Loader

open Trts (Outcome pageBytes)
open List
open Trts.AddTrim (pagesFrom)

def Layout.postRemove (l : Layout) : Bool := l.half.testBit 4

section Walk

variable {m : Type → Type} [Monad m]

def repeatRemoved (body : Nat → List Nat → m (List Nat)) (loadStep : Nat) : Nat → Nat → List Nat → m (List Nat)
  | 0, _, log => pure log
  | times + 1, step, log => do
    let step := (step + loadStep) % 2 ^ 64
    let log ← body step log
    repeatRemoved body loadStep times step log

def walkRemoved (visit : Nat → Layout → List Nat → m (List Nat)) (table : List Layout) :
    Nat → Nat → Nat → List Nat → m (List Nat)
  | 0, _, _, log => pure log
  | finish + 1, start, delta, log =>
    if finish < start then pure log
    else do
      let log ← walkRemoved visit table finish start delta log
      match table[finish]? with
      | none => pure log
      | some l =>
        if !l.isGroup then if l.postRemove then visit delta l log else pure log
        else
          repeatRemoved (fun step log => walkRemoved visit table finish (finish - l.entryCount) step log)
            l.loadStep l.loadTimes 0 log

end Walk

def startAddr (base delta : Nat) (l : Layout) : Nat := (l.rva + delta + base) % 2 ^ 64

def acceptPostRemove (env : Trts.AddTrim.Surroundings) (base : Nat) (table : List Layout) : Outcome (List Nat) :=
  walkRemoved (fun offset l log =>
      let start := startAddr base offset l
      Trts.AddTrim.sgxAcceptForward env ((start + pageBytes l.pageCount) % 2 ^ 64) (l.pageCount + 1) start log)
    table table.length 0 0 []

structure Driver where
  trim : List Nat → Nat
  accept : List Nat → Nat

def trimRange (driver : Driver) (fromaddr toaddr : Nat) (log : List Nat) : Except Nat (List Nat) :=
  let nrPages := (toaddr + 2 ^ 64 - fromaddr) % 2 ^ 64 / sePageSize % 2 ^ 32
  if driver.trim log = sgxSuccess then .ok (log ++ pagesFrom fromaddr nrPages) else .error (driver.trim log)

def trimAccept (driver : Driver) (log : List Nat) (addr : Nat) : Except Nat (List Nat) :=
  if driver.accept log = sgxSuccess then .ok (log ++ [addr]) else .error (driver.accept log)

def postInitAction (driver : Driver) (base : Nat) (table : List Layout) : Except Nat (List Nat) :=
  walkRemoved (fun delta l log =>
      let start := startAddr base delta l
      trimRange driver start ((start + pageBytes l.pageCount) % 2 ^ 64) log)
    table table.length 0 0 []

def postInitActionCommit (driver : Driver) (base : Nat) (table : List Layout) : Except Nat (List Nat) :=
  walkRemoved (fun delta l log =>
      let start := startAddr base delta l
      (List.range l.pageCount).foldlM (fun log i => trimAccept driver log ((start + i * sePageSize) % 2 ^ 64)) log)
    table table.length 0 0 []

def visits (table : List Layout) : Nat → List (Nat × Layout)
  | 0 => []
  | i + 1 =>
    visits table i ++ match table[i]? with
      | none => []
      | some l =>
        if !l.isGroup then [(0, l)]
        else
          (List.range l.loadTimes).flatMap fun j =>
            ((table.take i).drop (i - l.entryCount)).map fun e => ((j + 1) * l.loadStep % 2 ^ 64, e)

theorem mem_of_visits {table : List Layout} {n : Nat} {v : Nat × Layout} (h : v ∈ visits table n) : v.2 ∈ table := by
  induction n with
  | zero => cases h
  | succ n ih =>
    rw [visits] at h
    rcases mem_append.1 h with h | h
    . exact ih h
    split at h
    . cases h
    next l hget =>
    split at h
    . cases mem_singleton.1 h
      exact mem_of_getElem? hget
    obtain ⟨j, -, h⟩ := mem_flatMap.1 h
    obtain ⟨e, he, rfl⟩ := mem_map.1 h
    exact mem_of_mem_take (mem_of_mem_drop he)

section Walk

variable {m : Type → Type} [Monad m] [LawfulMonad m] (visit : Nat → Layout → List Nat → m (List Nat))
variable {metadata : Memory} {table : List Layout}

def visitRemoved (visit : Nat → Layout → List Nat → m (List Nat)) (log : List Nat) (v : Nat × Layout) : m (List Nat) :=
  if v.2.postRemove then visit v.1 v.2 log else pure log

theorem walkRemoved_entries (delta start : Nat) : ∀ (finish : Nat) (log : List Nat), finish ≤ table.length →
      ((table.take finish).drop start).any (·.isGroup) = false →
      walkRemoved visit table finish start delta log
        = (((table.take finish).drop start).map (delta, ·)).foldlM (visitRemoved visit) log := by
  intro finish
  induction finish with
  | zero =>
    intro log _ _
    simp [walkRemoved]
  | succ finish ih =>
    intro log hlength hgroups
    rw [walkRemoved]
    split
    . next hlt =>
      have hnil : (table.take (finish + 1)).drop start = [] := by
        apply drop_eq_nil_of_le
        rw [length_take]
        omega
      rw [hnil]
      rfl
    next hle =>
    have hget : table[finish]? = some table[finish] := List.getElem?_eq_getElem hlength
    have hsnoc := take_succ_drop hlength (Nat.le_of_not_lt hle)
    rw [hsnoc, any_append, Bool.or_eq_false_iff] at hgroups
    have hlast : table[finish].isGroup = false := by simpa using hgroups.2
    rw [ih log (by omega) hgroups.1, hsnoc, map_append, foldlM_append]
    simp only [hget, hlast, Bool.not_false, if_true, map_cons, map_nil, foldlM_cons, foldlM_nil,
      bind_pure, visitRemoved]

theorem mul_succ_mod (j step : Nat) : (j * step % 2 ^ 64 + step) % 2 ^ 64 = (j + 1) * step % 2 ^ 64 := by
  rw [Nat.mod_add_mod, Nat.succ_mul]

theorem repeatRemoved_eq {enclaveSize start finish : Nat} {group : Layout} (hlength : finish ≤ table.length)
    (times : Nat) :
    ∀ (first : Nat) (regions : List Region) (log : List Nat),
      groupRegions enclaveSize group ((table.take finish).drop start) times (first * group.loadStep % 2 ^ 64)
        = some regions →
      regions = ((List.range' first times).flatMap fun j =>
          ((table.take finish).drop start).map fun e => ((j + 1) * group.loadStep % 2 ^ 64, e)).map
            (fun v => shifted v.1 v.2)
      ∧ repeatRemoved (fun step log => walkRemoved visit table finish start step log) group.loadStep times
          (first * group.loadStep % 2 ^ 64) log
        = ((List.range' first times).flatMap fun j =>
            ((table.take finish).drop start).map fun e => ((j + 1) * group.loadStep % 2 ^ 64, e)).foldlM
              (visitRemoved visit) log := by
  induction times with
  | zero =>
    intro first regions log h
    cases h
    exact ⟨rfl, rfl⟩
  | succ times ih =>
    intro first regions log h
    obtain ⟨hgroups, rest, hrest, rfl⟩ := groupRegions_succ h
    rw [mul_succ_mod] at hrest ⊢
    have hih := fun log => ih (first + 1) rest log hrest
    rw [List.range'_succ, flatMap_cons, map_append, foldlM_append, repeatRemoved, mul_succ_mod]
    constructor
    . rw [← (hih log).1, map_map]
      rfl
    rw [walkRemoved_entries visit _ _ _ _ hlength hgroups]
    apply bind_congr
    intro log
    exact (hih log).2

theorem walkRemoved_collect (hrva : ∀ l ∈ table, l.rva < 2 ^ 64) :
    ∀ (n : Nat) (regions : List Region) (log : List Nat), n ≤ table.length →
      collectRegions metadata table n = some regions →
      regions = (visits table n).map (fun v => shifted v.1 v.2)
      ∧ walkRemoved visit table n 0 0 log = (visits table n).foldlM (visitRemoved visit) log := by
  intro n
  induction n with
  | zero =>
    intro regions log _ h
    cases h
    exact ⟨rfl, rfl⟩
  | succ n ih =>
    intro regions log hlength h
    obtain ⟨before, l, last, hbefore, hget, hlast, rfl⟩ := collectRegions_succ h
    obtain ⟨hregions, hwalk⟩ := ih before log (by omega) hbefore
    rw [visits, walkRemoved, if_neg (Nat.not_lt_zero _), hwalk, map_append, foldlM_append, ← hregions]
    simp only [hget]
    rw [layoutRegions] at hlast
    split at hlast
    . next hentry =>
      rw [if_pos hentry]
      split at hlast
      . cases hlast
      cases hlast
      constructor
      . rw [map_cons, shifted, Nat.zero_add, Nat.mod_eq_of_lt (hrva l (mem_of_getElem? hget))]
        rfl
      apply bind_congr
      intro log
      rw [if_pos hentry, foldlM_cons]
      simp only [foldlM_nil, bind_pure, visitRemoved]
    next hgroup =>
    rw [if_neg hgroup]
    split at hlast
    . cases hlast
    have hzero : 0 * l.loadStep % 2 ^ 64 = 0 := by simp
    rw [← hzero] at hlast
    have hrepeat := fun log => repeatRemoved_eq visit (Nat.le_of_lt hlength) _ 0 last log hlast
    rw [hzero] at hrepeat
    rw [range_eq_range']
    constructor
    . rw [← (hrepeat log).1]
    apply bind_congr
    intro log
    rw [if_neg hgroup]
    exact (hrepeat log).2

structure EndsInOrder (m : Type → Type) [Monad m] : Prop where
  pure_inj : ∀ {α : Type} {a b : α}, (pure a : m α) = pure b → a = b
  bind_eq_pure : ∀ {α β : Type} {x : m α} {f : α → m β} {b : β}, x >>= f = pure b → ∃ a, x = pure a ∧ f a = pure b

section Fold

variable {α : Type} {step : List Nat → α → m (List Nat)} {pages : α → List Nat} {l : List α} {log log' : List Nat}

omit [LawfulMonad m] in
theorem foldlM_eq_pure (hm : EndsInOrder m)
    (hstep : ∀ a ∈ l, ∀ log log', step log a = pure log' → log' = log ++ pages a)
    (h : l.foldlM step log = pure log') : log' = log ++ l.flatMap pages := by
  induction l generalizing log with
  | nil =>
    rw [foldlM_nil] at h
    rw [flatMap_nil, append_nil, hm.pure_inj h]
  | cons a rest ih =>
    rw [foldlM_cons] at h
    obtain ⟨log1, hfirst, hrest⟩ := hm.bind_eq_pure h
    rw [hstep a (mem_cons_self ..) log log1 hfirst] at hrest
    rw [ih (fun a ha => hstep a (mem_cons_of_mem _ ha)) hrest, flatMap_cons, append_assoc]

theorem foldlM_of_pure (hstep : ∀ a ∈ l, ∀ log, step log a = pure (log ++ pages a)) :
    l.foldlM step log = pure (log ++ l.flatMap pages) := by
  induction l generalizing log with
  | nil => rw [flatMap_nil, append_nil, foldlM_nil]
  | cons a rest ih =>
    rw [foldlM_cons, hstep a (mem_cons_self ..), pure_bind,
      ih (fun a ha => hstep a (mem_cons_of_mem _ ha)), flatMap_cons, append_assoc]

end Fold

end Walk

instance : LawfulMonad Outcome := LawfulMonad.mk' Outcome
  (by
    intro α x
    cases x <;> rfl)
  (by
    intro α β a f
    rfl)
  (by
    intro α β γ x f g
    cases x <;> rfl)

theorem endsInOrder_outcome : EndsInOrder Outcome where
  pure_inj h := by
    cases h
    rfl
  bind_eq_pure := Outcome.bind_eq_done

theorem endsInOrder_except : EndsInOrder (Except Nat) where
  pure_inj h := by
    cases h
    rfl
  bind_eq_pure {_ _ x _ _} h := by
    cases x with
    | error _ => cases h
    | ok a => exact ⟨a, rfl, h⟩

def removedOf (base : Nat) (v : Nat × Layout) : List Nat :=
  if v.2.postRemove then pagesFrom (base + (shifted v.1 v.2).1) v.2.pageCount else []

def removedPages (base : Nat) (table : List Layout) : List Nat :=
  (visits table table.length).flatMap (removedOf base)

structure Placement (m : Memory) where
  base : Nat
  aligned : base % sePageSize = 0
  fits : base + Metadata.enclaveSize m < 2 ^ 64

section Visit

variable {m : Memory} {P : Placement m} {delta : Nat} {l : Layout} {log log' : List Nat}

structure EntryFits (m : Memory) (delta : Nat) (l : Layout) : Prop where
  inside : Inside (Metadata.enclaveSize m) (shifted delta l)
  pageCount_lt : l.pageCount < 2 ^ 32

section

variable (h : EntryFits m delta l)
include h

theorem EntryFits.startAddr_eq : startAddr P.base delta l = P.base + (shifted delta l).1 := by
  have hstart := h.inside.start
  have hfits := P.fits
  unfold startAddr
  unfold shifted at *
  dsimp only at *
  omega

theorem EntryFits.end_lt : P.base + (shifted delta l).1 + l.pageCount * sePageSize < 2 ^ 64 := by
  have hfinish := h.inside.finish
  have hfits := P.fits
  unfold shifted at *
  dsimp only at *
  omega

theorem EntryFits.end_eq : (startAddr P.base delta l + pageBytes l.pageCount) % 2 ^ 64
      = P.base + (shifted delta l).1 + l.pageCount * sePageSize := by
  have hend := h.end_lt (P := P)
  have hcount := h.pageCount_lt
  have hbytes : pageBytes l.pageCount = l.pageCount * sePageSize := by
    unfold pageBytes sePageSize
    omega
  rw [h.startAddr_eq, hbytes, Nat.mod_eq_of_lt hend]

theorem EntryFits.aligned : (P.base + (shifted delta l).1) % sePageSize = 0 := by
  have hbase := P.aligned
  have hrva := h.inside.aligned
  unfold sePageSize at *
  omega

theorem accept_eq_done {env : Trts.AddTrim.Surroundings} {fuel : Nat}
    (hdone : Trts.AddTrim.sgxAcceptForward env ((startAddr P.base delta l + pageBytes l.pageCount) % 2 ^ 64) fuel
      (startAddr P.base delta l) log = .done log') :
    log' = log ++ pagesFrom (P.base + (shifted delta l).1) l.pageCount := by
  rw [h.end_eq, h.startAddr_eq] at hdone
  exact (Trts.AddTrim.sgxAcceptForward_eq_done h.end_lt hdone).1

theorem accept_granted :
    Trts.AddTrim.sgxAcceptForward .granted ((startAddr P.base delta l + pageBytes l.pageCount) % 2 ^ 64)
        (l.pageCount + 1) (startAddr P.base delta l) log
      = .done (log ++ pagesFrom (P.base + (shifted delta l).1) l.pageCount) := by
  obtain ⟨log', hdone⟩ := Trts.AddTrim.sgxAcceptForward_granted log (fun _ => h.aligned (P := P)) h.end_lt
    (Nat.lt_succ_self _)
  rw [h.end_eq, h.startAddr_eq]
  exact hdone.trans (congrArg _ (Trts.AddTrim.sgxAcceptForward_eq_done h.end_lt hdone).1)

theorem trimRange_eq (driver : Driver) :
    trimRange driver (startAddr P.base delta l) ((startAddr P.base delta l + pageBytes l.pageCount) % 2 ^ 64) log
      = if driver.trim log = sgxSuccess then
          .ok (log ++ pagesFrom (P.base + (shifted delta l).1) l.pageCount)
        else .error (driver.trim log) := by
  have hend := h.end_lt (P := P)
  have hcount := h.pageCount_lt
  rw [h.end_eq, h.startAddr_eq]
  unfold trimRange
  have hpages : (P.base + (shifted delta l).1 + l.pageCount * sePageSize + 2 ^ 64 - (P.base + (shifted delta l).1))
      % 2 ^ 64 / sePageSize % 2 ^ 32 = l.pageCount := by
    generalize P.base + (shifted delta l).1 = lo at hend ⊢
    unfold sePageSize at hend ⊢
    omega
  dsimp only
  rw [hpages]

theorem flatMap_pages :
    ((List.range l.pageCount).flatMap fun i => [(startAddr P.base delta l + i * sePageSize) % 2 ^ 64])
      = pagesFrom (P.base + (shifted delta l).1) l.pageCount := by
  have hend := h.end_lt (P := P)
  rw [h.startAddr_eq, ← map_eq_flatMap]
  apply map_congr_left
  intro i hi
  have hlt : i * sePageSize < l.pageCount * sePageSize :=
    Nat.mul_lt_mul_of_pos_right (mem_range.1 hi) (by decide)
  exact Nat.mod_eq_of_lt (Nat.lt_trans (Nat.add_lt_add_left hlt _) hend)

theorem commit_eq_ok {driver : Driver} (hok : (List.range l.pageCount).foldlM
      (fun log i => trimAccept driver log ((startAddr P.base delta l + i * sePageSize) % 2 ^ 64)) log = .ok log') :
    log' = log ++ pagesFrom (P.base + (shifted delta l).1) l.pageCount := by
  rw [← flatMap_pages h]
  apply foldlM_eq_pure endsInOrder_except _ hok
  intro i _ log log' hstep
  unfold trimAccept at hstep
  split at hstep
  . cases hstep
    rfl
  . cases hstep

end

def Driver.granted : Driver := ⟨fun _ => sgxSuccess, fun _ => sgxSuccess⟩

theorem commit_granted (h : EntryFits m delta l) : (List.range l.pageCount).foldlM
        (fun log i => trimAccept .granted log ((startAddr P.base delta l + i * sePageSize) % 2 ^ 64)) log
      = .ok (log ++ pagesFrom (P.base + (shifted delta l).1) l.pageCount) := by
  rw [← flatMap_pages h]
  apply foldlM_of_pure
  intro i _ log
  rfl

end Visit

section Agreement

variable {m : Memory} {P : Placement m}

structure Accepted (m : Memory) : Prop where
  fits : ∀ v ∈ visits (layoutTable m) (layoutTable m).length, EntryFits m v.1 v.2
  walk : ∀ {n : Type → Type} [Monad n] [LawfulMonad n] (visit : Nat → Layout → List Nat → n (List Nat)),
    walkRemoved visit (layoutTable m) (layoutTable m).length 0 0 []
      = (visits (layoutTable m) (layoutTable m).length).foldlM (visitRemoved visit) []

theorem accepted_of_validateMetadata {is64 : Bool} (h : validateMetadata is64 (some m) = sgxSuccess) : Accepted m := by
  obtain ⟨regions, hvector, -, -, hinside⟩ := validateMetadata_covers is64 m h
  have htable := inRange_layoutTable m
  have hrva : ∀ l ∈ layoutTable m, l.rva < 2 ^ 64 := fun l hl => (htable l hl).long
  refine ⟨?_, ?_⟩
  . obtain ⟨hregions, -⟩ := walkRemoved_collect (m := Option) (fun _ _ log => some log) hrva _ regions []
      (Nat.le_refl _) hvector
    intro v hv
    refine ⟨?_, (htable _ (mem_of_visits hv)).word⟩
    apply hinside
    rw [hregions]
    exact mem_map_of_mem (f := fun v : Nat × Layout => shifted v.1 v.2) hv
  . intro n _ _ visit
    exact (walkRemoved_collect visit hrva _ regions [] (Nat.le_refl _) hvector).2

theorem Accepted.pages_of_pure (h : Accepted m) {n : Type → Type} [Monad n] [LawfulMonad n] (hn : EndsInOrder n)
    {visit : Nat → Layout → List Nat → n (List Nat)}
    (hvisit : ∀ delta l, EntryFits m delta l → ∀ log log', visit delta l log = pure log' →
      log' = log ++ pagesFrom (P.base + (shifted delta l).1) l.pageCount) {log : List Nat}
    (hwalk : walkRemoved visit (layoutTable m) (layoutTable m).length 0 0 [] = pure log) :
    log = removedPages P.base (layoutTable m) := by
  rw [h.walk] at hwalk
  apply foldlM_eq_pure hn _ hwalk
  intro v hv log log' hstep
  unfold visitRemoved at hstep
  unfold removedOf
  split at hstep
  . next hremove =>
    rw [if_pos hremove]
    exact hvisit _ _ (h.fits v hv) log log' hstep
  next hremove =>
  rw [if_neg hremove, append_nil]
  exact (hn.pure_inj hstep).symm

theorem Accepted.walk_pure (h : Accepted m) {n : Type → Type} [Monad n] [LawfulMonad n]
    {visit : Nat → Layout → List Nat → n (List Nat)}
    (hvisit : ∀ delta l, EntryFits m delta l → ∀ log,
      visit delta l log = pure (log ++ pagesFrom (P.base + (shifted delta l).1) l.pageCount)) :
    walkRemoved visit (layoutTable m) (layoutTable m).length 0 0 [] = pure (removedPages P.base (layoutTable m)) := by
  rw [h.walk]
  apply foldlM_of_pure
  intro v hv log
  unfold visitRemoved removedOf
  split
  . exact hvisit _ _ (h.fits v hv) log
  . rw [append_nil]

def Flagged (P : Placement m) (a : Nat) : Prop :=
  a + sePageSize < 2 ^ 64 ∧ ∃ v ∈ visits (layoutTable m) (layoutTable m).length, v.2.postRemove = true
      ∧ P.base + (shifted v.1 v.2).1 ≤ a ∧ a + sePageSize ≤ P.base + (shifted v.1 v.2).1 + v.2.pageCount * sePageSize

theorem Accepted.flagged (h : Accepted m) {a : Nat} (ha : a ∈ removedPages P.base (layoutTable m)) : Flagged P a := by
  obtain ⟨v, hv, ha⟩ := mem_flatMap.1 ha
  unfold removedOf at ha
  split at ha
  . next hremove =>
    have hend := (h.fits v hv).end_lt (P := P)
    obtain ⟨k, hk, rfl⟩ := mem_map.1 ha
    have hmul : (k + 1) * sePageSize ≤ v.2.pageCount * sePageSize :=
      Nat.mul_le_mul_right _ (mem_range.1 hk)
    rw [Nat.succ_mul] at hmul
    have hle := Nat.add_le_add_left hmul (P.base + (shifted v.1 v.2).1)
    rw [← Nat.add_assoc] at hle
    exact ⟨Nat.lt_of_le_of_lt hle hend, v, hv, hremove, Nat.le_add_right _ _, hle⟩
  . cases ha

/--
For metadata that the loader accepts, the runtime accepts the pages that the loader trims and commits, whatever fails
on the way; without a failure all three walks come to their end. The pages do not wrap around, and their regions are
flagged.
-/
theorem postRemove_agree (is64 : Bool) (m : Memory) (h : validateMetadata is64 (some m) = sgxSuccess)
    (P : Placement m) :
    ∃ pages : List Nat,
      (∀ env log, acceptPostRemove env P.base (layoutTable m) = .done log → log = pages)
      ∧ (∀ driver log, postInitAction driver P.base (layoutTable m) = .ok log → log = pages)
      ∧ (∀ driver log, postInitActionCommit driver P.base (layoutTable m) = .ok log → log = pages)
      ∧ acceptPostRemove .granted P.base (layoutTable m) = .done pages
      ∧ postInitAction .granted P.base (layoutTable m) = .ok pages
      ∧ postInitActionCommit .granted P.base (layoutTable m) = .ok pages
      ∧ ∀ a ∈ pages, Flagged P a := by
  have haccepted := accepted_of_validateMetadata h
  refine ⟨removedPages P.base (layoutTable m), ?_, ?_, ?_, ?_, ?_, ?_, fun a ha => haccepted.flagged ha⟩
  . intro env log hlog
    apply haccepted.pages_of_pure endsInOrder_outcome _ hlog
    intro delta l hfits log log' hdone
    exact accept_eq_done hfits hdone
  . intro driver log hlog
    apply haccepted.pages_of_pure endsInOrder_except _ hlog
    intro delta l hfits log log' hok
    dsimp only at hok
    rw [trimRange_eq hfits] at hok
    split at hok
    . cases hok
      rfl
    . cases hok
  . intro driver log hlog
    apply haccepted.pages_of_pure endsInOrder_except _ hlog
    intro delta l hfits log log' hok
    exact commit_eq_ok hfits hok
  . apply haccepted.walk_pure
    intro delta l hfits log
    exact accept_granted hfits
  . apply haccepted.walk_pure
    intro delta l hfits log
    dsimp only
    rw [trimRange_eq hfits]
    rfl
  . apply haccepted.walk_pure
    intro delta l hfits log
    exact commit_granted hfits

end Agreement

def removedMetadata : Memory :=
  ofFields [(16, 4, 0x5000), (24, 4, 1), (40, 8, 0x10000), (1872, 4, 1888), (1880, 4, 1888),
    (1884, 4, 64), (1888 + 2, 2, 0x10), (1888 + 4, 4, 2), (1888 + 8, 8, 0x1000), (1920, 2, 0x1009), (1920 + 2, 2, 1),
    (1920 + 4, 4, 2), (1920 + 8, 8, 0x3000)]

theorem postRemove_agree_group :
    ∃ pages : List Nat,
      (∀ env log, acceptPostRemove env 0x7000000 (layoutTable removedMetadata) = .done log → log = pages)
      ∧ (∀ driver log, postInitAction driver 0x7000000 (layoutTable removedMetadata) = .ok log → log = pages)
      ∧ (∀ driver log, postInitActionCommit driver 0x7000000 (layoutTable removedMetadata) = .ok log → log = pages)
      ∧ acceptPostRemove .granted 0x7000000 (layoutTable removedMetadata) = .done pages
      ∧ postInitAction .granted 0x7000000 (layoutTable removedMetadata) = .ok pages
      ∧ postInitActionCommit .granted 0x7000000 (layoutTable removedMetadata) = .ok pages
      ∧ ∀ a ∈ pages, Flagged (⟨0x7000000, by decide, by decide +kernel⟩ : Placement removedMetadata) a :=
  postRemove_agree true removedMetadata (by decide +kernel) ⟨0x7000000, by decide, by decide +kernel⟩

example : removedPages 0x7000000 (layoutTable removedMetadata)
    = [0x7001000, 0x7002000, 0x7004000, 0x7005000, 0x7007000, 0x7008000] := by
  decide +kernel

end Loader
