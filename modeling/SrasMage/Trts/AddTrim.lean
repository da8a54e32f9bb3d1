import SrasMage.Trts.Epc
import SrasMage.Loader.Metadata
import Mathlib.Data.List.Perm.Basic

/-!
This module contains the requests of the trusted runtime for dynamic pages (`sdk/trts/trts_add_trim.cpp`),
with the layout table that decides about them.
-/

namespace Trts

open List Nat

namespace AddTrim

def layoutIdHeapMin : Nat := 1
def layoutIdHeapMax : Nat := 3
def layoutIdStackMax : Nat := 7
def layoutIdTcsDyn : Nat := 14
def layoutIdStackDynMin : Nat := 18
def layoutIdThreadGroupDyn : Nat := 0x1013

def growsDown (l : Loader.Layout) : Bool := l.half.testBit 6

structure GlobalData where
  enclaveBase : Nat
  heapOffset : Nat
  heapSize : Nat
  layoutTable : List Loader.Layout
  edmmSupported : Bool

namespace GlobalData

variable (g : GlobalData)

def getHeapBase : Nat := (g.enclaveBase + g.heapOffset) % 2 ^ 64

def getHeapSize : Nat :=
  if g.edmmSupported then
    g.layoutTable.foldl (fun size l => if l.id = layoutIdHeapMax then (size + pageBytes l.pageCount) % 2 ^ 64 else size)
      (g.heapSize % 2 ^ 64)
  else g.heapSize % 2 ^ 64

def getDynamicLayoutById (id : Nat) : Option Loader.Layout := g.layoutTable.find? (·.id = id)

def getHeapMinSize : Nat :=
  match g.getDynamicLayoutById layoutIdHeapMin with
  | some l => pageBytes l.pageCount
  | none => 0

def entryStart (l : Loader.Layout) (entryOffset : Nat) : Nat := (g.enclaveBase + l.rva + entryOffset) % 2 ^ 64

def checkDynamicEntryRange (addr pageCount entryId entryOffset : Nat) : Option Loader.Layout :=
  if entryId < layoutIdHeapMin ∨ entryId > layoutIdStackDynMin then none
  else
    match g.getDynamicLayoutById entryId with
    | none => none
    | some l =>
      let entryStartAddr := g.entryStart l entryOffset
      if addr ≥ entryStartAddr ∧ (addr + pageBytes pageCount) % 2 ^ 64
          ≤ (entryStartAddr + pageBytes l.pageCount) % 2 ^ 64 then some l
      else none

def checkUtilityThreadDynamicStack (addr pageCount : Nat) : Option Loader.Layout :=
  g.checkDynamicEntryRange addr pageCount layoutIdStackMax 0

def dynamicThreadIds : List Nat := [14, 15, 16, 17, 18]

def checkDynamicThreads (addr pageCount : Nat) : Option Loader.Layout :=
  match g.getDynamicLayoutById layoutIdThreadGroupDyn with
  | some group =>
    dynamicThreadIds.findSome? fun id =>
      (range ((group.loadTimes + 1) % 2 ^ 32)).findSome? fun i =>
        g.checkDynamicEntryRange addr pageCount id (i * group.loadStep % 2 ^ 64)
  | none => dynamicThreadIds.findSome? fun id => g.checkDynamicEntryRange addr pageCount id 0

def checkEntries (addr pageCount : Nat) : Option Loader.Layout :=
  match g.checkUtilityThreadDynamicStack addr pageCount with
  | some l => some l
  | none => g.checkDynamicThreads addr pageCount

theorem getHeapSize_lt : g.getHeapSize < 2 ^ 64 := by
  have hfold : ∀ (table : List Loader.Layout) (size : Nat), size < 2 ^ 64 →
      table.foldl (fun size l => if l.id = layoutIdHeapMax then (size + pageBytes l.pageCount) % 2 ^ 64 else size)
        size < 2 ^ 64 := by
    intro table
    induction table with
    | nil =>
      intro size hsize
      exact hsize
    | cons l rest ih =>
      intro size hsize
      apply ih
      dsimp only
      split
      . exact mod_lt _ (by decide)
      . exact hsize
  unfold getHeapSize
  split
  . exact hfold _ _ (mod_lt _ (by decide))
  . exact mod_lt _ (by decide)

theorem getHeapMinSize_lt : g.getHeapMinSize < 2 ^ 64 := by
  unfold getHeapMinSize
  split
  . exact mod_lt _ (by decide)
  . decide

def layout : Layout where
  heapBase := g.getHeapBase
  heapSize := g.getHeapSize
  heapMinSize := g.getHeapMinSize
  elsewhere addr pageCount := (g.checkEntries addr pageCount).map growsDown
  heapBase_lt := mod_lt _ (by decide)
  heapSize_lt := g.getHeapSize_lt
  heapMinSize_lt := g.getHeapMinSize_lt

end GlobalData

structure Surroundings where
  accepts : List Nat → Nat → Bool
  trimRange : Int
  trimCommit : Nat → Int
  asserts : Bool

variable (env : Surroundings)

def doEaccept (addr : Nat) (log : List Nat) : Outcome (List Nat) :=
  if addr % sePageSize = 0 ∧ env.accepts log addr then .done (log ++ [addr]) else .abort

def acceptLoop (cond : Nat → Bool) (page next : Nat → Nat) : Nat → Nat → List Nat → Outcome (List Nat)
  | 0, _, _ => .running
  | fuel + 1, addr, log =>
    if cond addr then do
      let log ← doEaccept env (page addr) log
      acceptLoop cond page next fuel (next addr) log
    else .done log

def pageAbove (addr : Nat) : Nat := (addr + sePageSize) % 2 ^ 64

def sgxAcceptForward (hi fuel lo : Nat) (log : List Nat) : Outcome (List Nat) :=
  acceptLoop env (fun addr => addr < hi) (fun addr => addr) pageAbove fuel lo log

def sgxAcceptBackward (lo fuel hi : Nat) (log : List Nat) : Outcome (List Nat) :=
  acceptLoop env (fun addr => lo < addr) pageBelow pageBelow fuel hi log

def assertZero (rc : Int) : Outcome Unit := if env.asserts ∧ rc ≠ 0 then .abort else .done ()

def commitPages (hi : Nat) : Nat → Nat → Int → Outcome Int
  | 0, _, _ => .running
  | fuel + 1, addr, rc =>
    if addr < hi then do
      assertZero env (env.trimCommit addr)
      commitPages hi fuel (pageAbove addr) (env.trimCommit addr)
    else .done rc

variable (g : GlobalData)

def applyEpcPages (startAddress pageCount : Nat) : Outcome (Int × List Nat) :=
  if startAddress = 0 then .done (-1, [])
  else
    match checkDynamicRange g.layout startAddress pageCount with
    | none => .done (-1, [])
    | some growDown => do
      let hi := (startAddress + pageBytes pageCount) % 2 ^ 64
      let log ← if growDown then sgxAcceptForward env hi (pageCount + 1) startAddress []
        else sgxAcceptBackward env startAddress (pageCount + 1) hi []
      return (0, log)

def trimEpcPages (startAddress pageCount : Nat) : Outcome (Int × List Nat) :=
  if startAddress = 0 then .done (-1, [])
  else
    match checkDynamicRange g.layout startAddress pageCount with
    | none => .done (-1, [])
    | some _ => do
      let hi := (startAddress + pageBytes pageCount) % 2 ^ 64
      assertZero env env.trimRange
      let log ← sgxAcceptForward env hi (pageCount + 1) startAddress []
      let rc ← commitPages env hi (pageCount + 1) startAddress 0
      return (rc, log)

section Loops

variable {env} {lo hi count fuel : Nat} {log log' : List Nat}

def pagesFrom (lo count : Nat) : List Nat := (range count).map fun k => lo + k * sePageSize

theorem pagesFrom_succ (lo count : Nat) : pagesFrom lo (count + 1) = lo :: pagesFrom (lo + sePageSize) count := by
  unfold pagesFrom
  rw [range_succ_eq_map, map_cons, map_map, zero_mul, add_zero]
  congr 1
  apply map_congr_left
  intro k _
  simp only [Function.comp_apply, succ_mul]
  omega

theorem pagesFrom_concat (lo count : Nat) :
    pagesFrom lo (count + 1) = pagesFrom lo count ++ [lo + count * sePageSize] := by
  unfold pagesFrom
  rw [range_succ, map_append]
  rfl

theorem length_pagesFrom (lo count : Nat) : (pagesFrom lo count).length = count := by simp [pagesFrom]

theorem mem_pagesFrom {a : Nat} (hlo : lo % sePageSize = 0) :
    a ∈ pagesFrom lo count ↔ lo ≤ a ∧ a < lo + count * sePageSize ∧ a % sePageSize = 0 := by
  unfold pagesFrom
  rw [mem_map]
  constructor
  . rintro ⟨k, hk, rfl⟩
    rw [mem_range] at hk
    refine ⟨Nat.le_add_right _ _, ?_, ?_⟩
    . exact Nat.add_lt_add_left (Nat.mul_lt_mul_of_pos_right hk (by decide)) lo
    . rw [Nat.add_mul_mod_self_right, hlo]
  rintro ⟨hle, hlt, ha⟩
  refine ⟨(a - lo) / sePageSize, ?_, ?_⟩
  . rw [mem_range]
    unfold sePageSize at *
    omega
  . unfold sePageSize at *
    omega

theorem doEaccept_eq_done {addr : Nat} (h : doEaccept env addr log = .done log') :
    addr % sePageSize = 0 ∧ log' = log ++ [addr] := by
  unfold doEaccept at h
  split at h
  . next hok =>
    cases h
    exact ⟨hok.1, rfl⟩
  . cases h

variable {cond : Nat → Bool} {page next : Nat → Nat} {addr : Nat}

theorem acceptLoop_of_not (hfuel : 0 < fuel) (hcond : cond addr = false) :
    acceptLoop env cond page next fuel addr log = .done log := by
  obtain ⟨fuel, rfl⟩ := exists_eq_succ_of_ne_zero (pos_iff_ne_zero.1 hfuel)
  rw [acceptLoop, hcond, if_neg (by decide)]

theorem acceptLoop_of_cond (hcond : cond addr = true) : acceptLoop env cond page next (fuel + 1) addr log
      = doEaccept env (page addr) log >>= acceptLoop env cond page next fuel (next addr) := by
  rw [acceptLoop, hcond, if_pos rfl]

theorem pos_of_acceptLoop (h : acceptLoop env cond page next fuel addr log = .done log') : 0 < fuel := by
  cases fuel with
  | zero => cases h
  | succ fuel => exact succ_pos fuel

theorem acceptLoop_eq_done (h : acceptLoop env cond page next (fuel + 1) addr log = .done log')
    (hcond : cond addr = true) :
    page addr % sePageSize = 0 ∧ acceptLoop env cond page next fuel (next addr) (log ++ [page addr]) = .done log' := by
  rw [acceptLoop_of_cond hcond] at h
  obtain ⟨log1, hfirst, hrest⟩ := Outcome.bind_eq_done h
  obtain ⟨haligned, rfl⟩ := doEaccept_eq_done hfirst
  exact ⟨haligned, hrest⟩

theorem add_succ_mul (lo count : Nat) : lo + (count + 1) * sePageSize = lo + sePageSize + count * sePageSize
      ∧ lo + (count + 1) * sePageSize = lo + count * sePageSize + sePageSize := by
  rw [succ_mul]
  omega

theorem pageAbove_eq {addr : Nat} (h : addr + sePageSize < 2 ^ 64) : pageAbove addr = addr + sePageSize :=
  mod_eq_of_lt h

theorem pageBelow_add {addr : Nat} (h : addr + sePageSize < 2 ^ 64) : pageBelow (addr + sePageSize) = addr := by
  unfold pageBelow sePageSize at *
  omega

theorem sgxAcceptForward_eq_done (hfits : lo + count * sePageSize < 2 ^ 64)
    (h : sgxAcceptForward env (lo + count * sePageSize) fuel lo log = .done log') :
    log' = log ++ pagesFrom lo count ∧ (0 < count → lo % sePageSize = 0) := by
  unfold sgxAcceptForward at h
  induction count generalizing lo log fuel with
  | zero =>
    rw [acceptLoop_of_not (pos_of_acceptLoop h) (by simp)] at h
    cases h
    simp [pagesFrom]
  | succ count ih =>
    obtain ⟨fuel, rfl⟩ := exists_eq_succ_of_ne_zero (pos_iff_ne_zero.1 (pos_of_acceptLoop h))
    have hlt : lo < lo + (count + 1) * sePageSize := by
      unfold sePageSize
      omega
    obtain ⟨haligned, hrest⟩ := acceptLoop_eq_done h (decide_eq_true hlt)
    rw [(add_succ_mul lo count).1] at hfits hrest
    rw [pageAbove_eq (by omega)] at hrest
    obtain ⟨rfl, -⟩ := ih hfits hrest
    rw [pagesFrom_succ, append_assoc]
    exact ⟨rfl, fun _ => haligned⟩

theorem sgxAcceptBackward_eq_done (hfits : lo + count * sePageSize < 2 ^ 64)
    (h : sgxAcceptBackward env lo fuel (lo + count * sePageSize) log = .done log') :
    log' = log ++ (pagesFrom lo count).reverse ∧ (0 < count → lo % sePageSize = 0) := by
  unfold sgxAcceptBackward at h
  induction count generalizing log fuel with
  | zero =>
    rw [acceptLoop_of_not (pos_of_acceptLoop h) (by simp)] at h
    cases h
    simp [pagesFrom]
  | succ count ih =>
    obtain ⟨fuel, rfl⟩ := exists_eq_succ_of_ne_zero (pos_iff_ne_zero.1 (pos_of_acceptLoop h))
    rw [(add_succ_mul lo count).2] at hfits h
    have hlt : lo < lo + count * sePageSize + sePageSize := by
      unfold sePageSize
      omega
    obtain ⟨haligned, hrest⟩ := acceptLoop_eq_done h (decide_eq_true hlt)
    rw [pageBelow_add hfits] at haligned hrest
    obtain ⟨rfl, -⟩ := ih (by omega) hrest
    rw [pagesFrom_concat, reverse_append, append_assoc]
    refine ⟨rfl, fun _ => ?_⟩
    rwa [add_mul_mod_self_right] at haligned

theorem sgxAcceptForward_cases (env : Surroundings) (log : List Nat) (hlo : 0 < count → lo % sePageSize = 0)
    (hfits : lo + count * sePageSize < 2 ^ 64) (hfuel : count < fuel) :
    (sgxAcceptForward env (lo + count * sePageSize) fuel lo log = .abort ∧ ∃ log addr, env.accepts log addr = false)
      ∨ ∃ log', sgxAcceptForward env (lo + count * sePageSize) fuel lo log = .done log' := by
  unfold sgxAcceptForward
  induction count generalizing lo log fuel with
  | zero => exact .inr ⟨log, acceptLoop_of_not hfuel (by simp)⟩
  | succ count ih =>
    obtain ⟨fuel, rfl⟩ := exists_eq_succ_of_ne_zero (pos_iff_ne_zero.1 (zero_lt_of_lt hfuel))
    have haligned := hlo (succ_pos count)
    have hlt : lo < lo + (count + 1) * sePageSize := by
      unfold sePageSize
      omega
    rw [acceptLoop_of_cond (decide_eq_true hlt)]
    cases haccepts : env.accepts log lo with
    | false =>
      have habort : doEaccept env lo log = .abort := by
        unfold doEaccept
        rw [if_neg (by simp [haccepts])]
      rw [habort]
      exact .inl ⟨rfl, log, lo, haccepts⟩
    | true =>
      have hdone : doEaccept env lo log = .done (log ++ [lo]) := if_pos ⟨haligned, haccepts⟩
      rw [hdone, Outcome.done_bind, (add_succ_mul lo count).1]
      rw [(add_succ_mul lo count).1] at hfits
      rw [pageAbove_eq (by omega)]
      apply ih _ _ hfits (by omega)
      intro _
      rw [add_mod_right, haligned]

end Loops

def Surroundings.granted : Surroundings := ⟨fun _ _ => true, 0, fun _ => 0, true⟩

section Granted

variable {lo count fuel : Nat} {log : List Nat}

theorem doEaccept_granted {addr : Nat} (h : addr % sePageSize = 0) :
    doEaccept .granted addr log = .done (log ++ [addr]) := if_pos ⟨h, rfl⟩

theorem sgxAcceptForward_granted (log : List Nat) (hlo : 0 < count → lo % sePageSize = 0)
    (hfits : lo + count * sePageSize < 2 ^ 64) (hfuel : count < fuel) :
    ∃ log', sgxAcceptForward .granted (lo + count * sePageSize) fuel lo log = .done log' := by
  rcases sgxAcceptForward_cases .granted log hlo hfits hfuel with ⟨-, log', addr, hfalse⟩ | hdone
  . cases hfalse
  . exact hdone

theorem sgxAcceptBackward_granted (log : List Nat) (hlo : 0 < count → lo % sePageSize = 0)
    (hfits : lo + count * sePageSize < 2 ^ 64) (hfuel : count < fuel) :
    ∃ log', sgxAcceptBackward .granted lo fuel (lo + count * sePageSize) log = .done log' := by
  unfold sgxAcceptBackward
  induction count generalizing log fuel with
  | zero => exact ⟨log, acceptLoop_of_not hfuel (by simp)⟩
  | succ count ih =>
    obtain ⟨fuel, rfl⟩ := exists_eq_succ_of_ne_zero (pos_iff_ne_zero.1 (zero_lt_of_lt hfuel))
    have haligned := hlo (succ_pos count)
    have hpage : (lo + count * sePageSize) % sePageSize = 0 := by rw [add_mul_mod_self_right, haligned]
    rw [(add_succ_mul lo count).2] at hfits ⊢
    have hlt : lo < lo + count * sePageSize + sePageSize := by
      unfold sePageSize
      omega
    rw [acceptLoop_of_cond (decide_eq_true hlt), pageBelow_add hfits, doEaccept_granted hpage, Outcome.done_bind]
    exact ih _ (fun _ => haligned) (by omega) (by omega)

theorem commitPages_granted (hfits : lo + count * sePageSize < 2 ^ 64) (hfuel : count < fuel) :
    commitPages .granted (lo + count * sePageSize) fuel lo 0 = .done 0 := by
  induction count generalizing lo fuel with
  | zero =>
    obtain ⟨fuel, rfl⟩ := exists_eq_succ_of_ne_zero (pos_iff_ne_zero.1 hfuel)
    rw [commitPages, if_neg (by omega)]
  | succ count ih =>
    obtain ⟨fuel, rfl⟩ := exists_eq_succ_of_ne_zero (pos_iff_ne_zero.1 (zero_lt_of_lt hfuel))
    have hlt : lo < lo + (count + 1) * sePageSize := by
      unfold sePageSize
      omega
    have hassert : assertZero .granted (Surroundings.granted.trimCommit lo) = .done () := rfl
    rw [commitPages, if_pos hlt, hassert, Outcome.done_bind, (add_succ_mul lo count).1]
    rw [(add_succ_mul lo count).1] at hfits
    rw [pageAbove_eq (by omega)]
    exact ih hfits (by omega)

end Granted

namespace GlobalData

inductive Dynamic : Nat → Nat → Prop
  | heap :
    Dynamic ((g.getHeapBase + g.getHeapMinSize) % 2 ^ 64) ((g.getHeapSize + 2 ^ 64 - g.getHeapMinSize) % 2 ^ 64)
  | stack {l : Loader.Layout} (hl : l ∈ g.layoutTable) (hid : l.id = layoutIdStackMax) :
    Dynamic (g.entryStart l 0) (pageBytes l.pageCount)
  | thread {l : Loader.Layout} (hl : l ∈ g.layoutTable) (hid : layoutIdTcsDyn ≤ l.id ∧ l.id ≤ layoutIdStackDynMin) :
    Dynamic (g.entryStart l 0) (pageBytes l.pageCount)
  | copy {l group : Loader.Layout} {i : Nat} (hl : l ∈ g.layoutTable)
    (hid : layoutIdTcsDyn ≤ l.id ∧ l.id ≤ layoutIdStackDynMin) (hgroup : group ∈ g.layoutTable)
    (hgroupId : group.id = layoutIdThreadGroupDyn) (hi : i ≤ group.loadTimes) :
    Dynamic (g.entryStart l (i * group.loadStep % 2 ^ 64)) (pageBytes l.pageCount)

variable {g} {start n : Nat}

theorem getDynamicLayoutById_eq_some {id : Nat} {l : Loader.Layout} (h : g.getDynamicLayoutById id = some l) :
    l ∈ g.layoutTable ∧ l.id = id := by
  unfold getDynamicLayoutById at h
  exact ⟨mem_of_find?_eq_some h, by simpa using find?_some h⟩

def Lies (start n lo size : Nat) : Prop := lo ≤ start ∧ start + pageBytes n ≤ lo + size

theorem checkDynamicEntryRange_eq_some (hfits : start + pageBytes n < 2 ^ 64) {id offset : Nat} {l : Loader.Layout}
    (h : g.checkDynamicEntryRange start n id offset = some l) :
    l ∈ g.layoutTable ∧ l.id = id ∧ Lies start n (g.entryStart l offset) (pageBytes l.pageCount) := by
  unfold checkDynamicEntryRange at h
  split at h
  . cases h
  split at h
  . cases h
  next l' hget =>
  dsimp only at h
  split at h
  . next hrange =>
    cases h
    obtain ⟨hl, hid⟩ := getDynamicLayoutById_eq_some hget
    refine ⟨hl, hid, hrange.1, ?_⟩
    rw [mod_eq_of_lt hfits] at hrange
    exact le_trans hrange.2 (mod_le _ _)
  . cases h

theorem mem_dynamicThreadIds {id : Nat} (h : id ∈ dynamicThreadIds) :
    layoutIdTcsDyn ≤ id ∧ id ≤ layoutIdStackDynMin := by
  unfold layoutIdTcsDyn layoutIdStackDynMin
  simp only [dynamicThreadIds, mem_cons, not_mem_nil, or_false] at h
  omega

theorem dynamic_of_checkDynamicThreads (hfits : start + pageBytes n < 2 ^ 64) {l : Loader.Layout}
    (h : g.checkDynamicThreads start n = some l) : ∃ lo size, g.Dynamic lo size ∧ Lies start n lo size := by
  unfold checkDynamicThreads at h
  split at h
  . next group hgroup =>
    obtain ⟨hmem, hgroupId⟩ := getDynamicLayoutById_eq_some hgroup
    obtain ⟨id, hid, h⟩ := exists_of_findSome?_eq_some h
    obtain ⟨i, hi, h⟩ := exists_of_findSome?_eq_some h
    obtain ⟨hl, rfl, hlies⟩ := checkDynamicEntryRange_eq_some hfits h
    have hle : i ≤ group.loadTimes := by
      have := mod_le (group.loadTimes + 1) (2 ^ 32)
      rw [mem_range] at hi
      omega
    exact ⟨_, _, .copy hl (mem_dynamicThreadIds hid) hmem hgroupId hle, hlies⟩
  . obtain ⟨id, hid, h⟩ := exists_of_findSome?_eq_some h
    obtain ⟨hl, rfl, hlies⟩ := checkDynamicEntryRange_eq_some hfits h
    exact ⟨_, _, .thread hl (mem_dynamicThreadIds hid), hlies⟩

theorem dynamic_of_checkDynamicRange (hfits : start + pageBytes n < 2 ^ 64) {growDown : Bool}
    (h : checkDynamicRange g.layout start n = some growDown) :
    ∃ lo size, g.Dynamic lo size ∧ Lies start n lo size := by
  unfold checkDynamicRange at h
  split at h
  . cases h
  split at h
  . next hheap =>
    unfold checkHeapDynRange at hheap
    simp only [Bool.and_eq_true, decide_eq_true_eq] at hheap
    rw [mod_eq_of_lt hfits] at hheap
    exact ⟨_, _, .heap, hheap.1, le_trans hheap.2 (mod_le _ _)⟩
  obtain ⟨l, hl, -⟩ := Option.map_eq_some_iff.1 h
  unfold checkEntries at hl
  split at hl
  . next l' hstack =>
    obtain ⟨hl, hid, hlies⟩ := checkDynamicEntryRange_eq_some hfits hstack
    exact ⟨_, _, .stack hl hid, hlies⟩
  . exact dynamic_of_checkDynamicThreads hfits hl

end GlobalData

inductive Request where
  | apply
  | trim

def Request.exec (r : Request) (startAddress pageCount : Nat) : Outcome (Int × List Nat) :=
  match r with
  | .apply => applyEpcPages env g startAddress pageCount
  | .trim => trimEpcPages env g startAddress pageCount

structure Exact (start n : Nat) (log : List Nat) : Prop where
  pages : log.Perm (pagesFrom start n)
  fits : start + n * sePageSize ≤ 2 ^ 64
  dynamic : ∃ lo size, g.Dynamic lo size ∧ ∀ a ∈ log, lo ≤ a ∧ a + sePageSize ≤ lo + size

def Meets (r : Request) (start n : Nat) : Prop :=
  ∀ rc log, r.exec env g start n = .done (rc, log) → (rc = 0 → Exact g start n log)
      ∧ (start = 0 ∨ checkDynamicRange g.layout start n = none → rc = -1 ∧ log = [])

section

variable {env g} {r : Request} {start n : Nat} {growDown : Bool}

theorem pageBytes_eq (n : Nat) : pageBytes n = n % 2 ^ 52 * sePageSize := by
  have hsplit : 2 ^ 64 = 2 ^ 52 * sePageSize := rfl
  unfold pageBytes
  rw [hsplit, mul_mod_mul_right]

theorem fits_of_check (h : checkDynamicRange g.layout start n = some growDown) :
    start + n % 2 ^ 52 * sePageSize < 2 ^ 64 := by
  have hlt : pageBytes n < 2 ^ 64 := mod_lt _ (by decide)
  unfold checkDynamicRange at h
  split at h
  . cases h
  rw [← pageBytes_eq]
  omega

theorem end_of_check (h : checkDynamicRange g.layout start n = some growDown) :
    (start + pageBytes n) % 2 ^ 64 = start + n % 2 ^ 52 * sePageSize := by
  rw [pageBytes_eq, mod_eq_of_lt (fits_of_check h)]

theorem exec_of_failed (h : start = 0 ∨ checkDynamicRange g.layout start n = none) :
    r.exec env g start n = .done (-1, []) := by
  unfold Request.exec
  rcases eq_or_ne start 0 with hzero | hne
  . cases r with
    | apply => exact if_pos hzero
    | trim => exact if_pos hzero
  have hcheck := h.resolve_left hne
  cases r with
  | apply =>
    dsimp only
    unfold applyEpcPages
    rw [if_neg hne, hcheck]
  | trim =>
    dsimp only
    unfold trimEpcPages
    rw [if_neg hne, hcheck]

theorem pages_of_exec (hne : start ≠ 0)
    (hcheck : checkDynamicRange g.layout start n = some growDown) {rc : Int} {log : List Nat}
    (h : r.exec env g start n = .done (rc, log)) :
    log.Perm (pagesFrom start (n % 2 ^ 52)) ∧ (0 < n % 2 ^ 52 → start % sePageSize = 0) := by
  have hfits := fits_of_check hcheck
  have hend := end_of_check hcheck
  unfold Request.exec at h
  cases r with
  | apply =>
    dsimp only at h
    unfold applyEpcPages at h
    rw [if_neg hne, hcheck] at h
    dsimp only at h
    rw [hend] at h
    split at h
    . obtain ⟨log', hloop, hret⟩ := Outcome.bind_eq_done h
      cases hret
      obtain ⟨rfl, haligned⟩ := sgxAcceptForward_eq_done hfits hloop
      exact ⟨List.Perm.refl _, haligned⟩
    obtain ⟨log', hloop, hret⟩ := Outcome.bind_eq_done h
    cases hret
    obtain ⟨rfl, haligned⟩ := sgxAcceptBackward_eq_done hfits hloop
    exact ⟨reverse_perm _, haligned⟩
  | trim =>
    dsimp only at h
    unfold trimEpcPages at h
    rw [if_neg hne, hcheck] at h
    dsimp only at h
    rw [hend] at h
    obtain ⟨_, -, h⟩ := Outcome.bind_eq_done h
    obtain ⟨log', hloop, h⟩ := Outcome.bind_eq_done h
    obtain ⟨rc', -, hret⟩ := Outcome.bind_eq_done h
    cases hret
    obtain ⟨rfl, haligned⟩ := sgxAcceptForward_eq_done hfits hloop
    exact ⟨List.Perm.refl _, haligned⟩

theorem exec_granted (hne : start ≠ 0) (hcheck : checkDynamicRange g.layout start n = some growDown)
    (haligned : 0 < n % 2 ^ 52 → start % sePageSize = 0) : ∃ log, r.exec .granted g start n = .done (0, log) := by
  have hfits := fits_of_check hcheck
  have hend := end_of_check hcheck
  have hfuel : n % 2 ^ 52 < n + 1 := by omega
  obtain ⟨log, hforward⟩ := sgxAcceptForward_granted [] haligned hfits hfuel
  unfold Request.exec
  cases r with
  | apply =>
    dsimp only
    unfold applyEpcPages
    rw [if_neg hne, hcheck]
    dsimp only
    rw [hend]
    split
    . rw [hforward]
      exact ⟨log, rfl⟩
    obtain ⟨log, hbackward⟩ := sgxAcceptBackward_granted [] haligned hfits hfuel
    rw [hbackward]
    exact ⟨log, rfl⟩
  | trim =>
    dsimp only
    unfold trimEpcPages
    rw [if_neg hne, hcheck]
    dsimp only
    rw [hend, hforward]
    refine ⟨log, ?_⟩
    rw [Outcome.done_bind, commitPages_granted hfits hfuel]
    rfl

theorem setPages_pagesFrom (hstart : start % sePageSize = 0) (pages : Pages) (accept : Bool) :
    setPages pages start (start + n * sePageSize) accept
      = fun page => if page ∈ pagesFrom start n then accept else pages page := by
  funext page
  unfold setPages
  simp only [mem_pagesFrom hstart]

def Request.execPages (L : Layout) (start n : Nat) (pages : Pages) : Request → Outcome (Bool × Pages)
  | .apply => Trts.applyEpcPages L start n pages
  | .trim => Trts.trimEpcPages L start n pages

def Request.accept : Request → Bool
  | .apply => true
  | .trim => false

/--
A request that comes to its end leaves the pages of its log in the same state as `Trts.applyEpcPages` and
`Trts.trimEpcPages`, which keep a map of the pages instead.
-/
theorem execPages_of_exec (hpos : 0 < n) (hlt : n < 2 ^ 52) (hne : start ≠ 0)
    (hcheck : checkDynamicRange g.layout start n = some growDown) {rc : Int} {log : List Nat}
    (h : r.exec env g start n = .done (rc, log)) (pages : Pages) :
    r.execPages g.layout start n pages = .done (true, fun page => if page ∈ log then r.accept else pages page) := by
  obtain ⟨hpages, haligned⟩ := pages_of_exec hne hcheck h
  have hfits := fits_of_check hcheck
  have hend := end_of_check hcheck
  rw [mod_eq_of_lt hlt] at hpages haligned hfits hend
  have hstart := haligned hpos
  have hlog : (fun page => if page ∈ log then r.accept else pages page)
      = setPages pages start (start + n * sePageSize) r.accept := by
    rw [setPages_pagesFrom hstart]
    funext page
    simp only [hpages.mem_iff]
  rw [hlog]
  cases r with
  | apply =>
    unfold Request.execPages Trts.applyEpcPages
    dsimp only
    rw [if_neg hne, hcheck]
    dsimp only
    rw [not_faults hstart, if_neg (by decide), hend]
    split
    . rw [Trts.sgxAcceptForward_eq hstart hfits]
      rfl
    rw [Trts.sgxAcceptBackward_eq hstart hfits]
    rfl
  | trim =>
    unfold Request.execPages Trts.trimEpcPages
    dsimp only
    rw [if_neg hne, hcheck]
    dsimp only
    rw [not_faults hstart, if_neg (by decide), hend, Trts.sgxAcceptForward_eq hstart hfits]
    rfl

theorem Exact.of_lt (hlt : n < 2 ^ 52) (hcheck : checkDynamicRange g.layout start n = some growDown) {log : List Nat}
    (hpages : log.Perm (pagesFrom start (n % 2 ^ 52))) : Exact g start n log := by
  have hfits := fits_of_check hcheck
  obtain ⟨lo, size, hdynamic, hle, hend⟩ :=
    GlobalData.dynamic_of_checkDynamicRange (by rwa [pageBytes_eq]) hcheck
  rw [pageBytes_eq, mod_eq_of_lt hlt] at hend
  rw [mod_eq_of_lt hlt] at hfits hpages
  refine ⟨hpages, le_of_lt hfits, lo, size, hdynamic, ?_⟩
  intro a ha
  obtain ⟨k, hk, rfl⟩ := mem_map.1 (hpages.mem_iff.1 ha)
  rw [mem_range] at hk
  have hmul : (k + 1) * sePageSize ≤ n * sePageSize := mul_le_mul_right _ hk
  rw [succ_mul] at hmul
  omega

/--
In all surroundings a request touches exactly the pages it is asked for, exactly if their number is below 2 ^ 52 or
the request cannot come to its end: it is refused, or its first address is not that of a page.
-/
theorem meets_iff (g : GlobalData) (r : Request) (start n : Nat) :
    (∀ env, Meets env g r start n)
      ↔ n < 2 ^ 52 ∨ start = 0 ∨ checkDynamicRange g.layout start n = none
        ∨ start % sePageSize ≠ 0 ∧ n % 2 ^ 52 ≠ 0 := by
  constructor
  . intro hall
    by_contra hnot
    rw [not_or, not_or, not_or] at hnot
    obtain ⟨hge, hne, hsome, haligned⟩ := hnot
    obtain ⟨growDown, hcheck⟩ := Option.ne_none_iff_exists'.mp hsome
    have haligned' : 0 < n % 2 ^ 52 → start % sePageSize = 0 := by
      intro hpos
      by_contra hodd
      exact haligned ⟨hodd, pos_iff_ne_zero.mp hpos⟩
    obtain ⟨log, hexec⟩ := exec_granted (r := r) hne hcheck haligned'
    have hexact := (hall .granted 0 log hexec).1 rfl
    have hlength := ((pages_of_exec hne hcheck hexec).1.symm.trans hexact.pages).length_eq
    rw [length_pagesFrom, length_pagesFrom] at hlength
    omega
  intro hcond env rc log hexec
  by_cases hfailed : start = 0 ∨ checkDynamicRange g.layout start n = none
  . rw [exec_of_failed hfailed] at hexec
    cases hexec
    refine ⟨?_, fun _ => ⟨rfl, rfl⟩⟩
    intro hrc
    cases hrc
  refine ⟨fun _ => ?_, fun h => absurd h hfailed⟩
  rw [not_or] at hfailed
  obtain ⟨hne, hsome⟩ := hfailed
  obtain ⟨growDown, hcheck⟩ := Option.ne_none_iff_exists'.mp hsome
  obtain ⟨hpages, haligned⟩ := pages_of_exec hne hcheck hexec
  rcases hcond with hlt | hzero | hnone | ⟨hodd, hpos⟩
  . exact .of_lt hlt hcheck hpages
  . exact absurd hzero hne
  . exact absurd hnone hsome
  . exact absurd (haligned (pos_iff_ne_zero.mpr hpos)) hodd

end

def growingHeap : GlobalData where
  enclaveBase := 0x10000000
  heapOffset := 0x1000
  heapSize := 0x4000
  layoutTable := [⟨layoutIdHeapMin, 0, 1, 0x1000, 0, 0⟩]
  edmmSupported := true

theorem not_exact_growingHeap :
    applyEpcPages .granted growingHeap 0x10002000 (2 ^ 52) = .done (0, [])
      ∧ trimEpcPages .granted growingHeap 0x10002000 (2 ^ 52) = .done (0, [])
      ∧ ¬Exact growingHeap 0x10002000 (2 ^ 52) [] := by
  refine ⟨by decide +kernel, by decide +kernel, ?_⟩
  intro hexact
  have hlength := hexact.pages.length_eq
  rw [length_pagesFrom] at hlength
  cases hlength

example : applyEpcPages .granted growingHeap 0x10002000 2 = .done (0, [0x10003000, 0x10002000]) := by decide +kernel

end AddTrim
end Trts
