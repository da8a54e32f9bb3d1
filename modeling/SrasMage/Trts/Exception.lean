import SrasMage.Trts.AddTrim

/-!
This module contains the first phase of exception handling (`sdk/trts/trts_veh.cpp`), which puts the
exception information on the interrupted stack or lets the stack grow.
-/

namespace Trts

open Nat

namespace Exception

open AddTrim

open Sgx (roundToPage)

export Sgx (sgxSuccess sgxErrorUnexpected sgxErrorEnclaveCrashed sgxErrorStackOverrun)

def redZoneSize : Nat := 128
def staticStackSize : Nat := 688
def seGuardPageSize : Nat := 0x10000
def sizeofInfo : Nat := 152
def seEreport : Nat := 0

inductive Reg where
  | ax | cx | dx | bx | sp | bp | si | di | r8 | r9 | r10 | r11 | r12 | r13 | r14 | r15 | flags | ip
deriving DecidableEq

def Reg.offset : Reg → Nat
  | .ax => 0 | .cx => 8 | .dx => 16 | .bx => 24 | .sp => 32 | .bp => 40 | .si => 48 | .di => 56
  | .r8 => 64 | .r9 => 72 | .r10 => 80 | .r11 => 88 | .r12 => 96 | .r13 => 104 | .r14 => 112 | .r15 => 120
  | .flags => 128 | .ip => 136

def regs : List Reg :=
  [.ax, .cx, .dx, .bx, .sp, .bp, .si, .di, .flags, .ip, .r8, .r9, .r10, .r11, .r12, .r13, .r14, .r15]

structure ThreadData where
  stackBaseAddr : Nat
  stackLimitAddr : Nat
  stackCommitAddr : Nat
  firstSsaGpr : Nat
  exceptionFlag : Int

structure SsaGpr where
  reg : Reg → Nat
  vector : Nat
  exitType : Nat
  valid : Nat

structure Store where
  addr : Nat
  size : Nat
  value : Nat
deriving DecidableEq

structure Setting where
  global : GlobalData
  env : Surroundings
  canaryOk : Bool
  initDone : Bool
  spRefused : Bool
  lereportInst : Nat
  internalHandleException : Nat

structure Handled where
  status : Nat
  crashed : Bool
  td : ThreadData
  ssa : SsaGpr
  stores : List Store
  accepted : List Nat

def isStackAddr (td : ThreadData) (addr size : Nat) : Bool :=
  addr ≤ (addr + size) % 2 ^ 64 && td.stackBaseAddr ≥ (addr + size) % 2 ^ 64 && td.stackLimitAddr ≤ addr

def td2Tcs (td : ThreadData) : Nat := (td.stackBaseAddr + staticStackSize + seGuardPageSize) % 2 ^ 64

def applyPagesWithinException (S : Setting) (startAddress pageCount : Nat) : Outcome (Int × List Nat) :=
  if startAddress = 0 then .done (-1, [])
  else
    match checkDynamicRange S.global.layout startAddress pageCount with
    | none => .done (-1, [])
    | some _ =>
      if S.spRefused then .done (sgxErrorUnexpected, [])
      else do
        let hi := (startAddress + pageBytes pageCount) % 2 ^ 64
        let log ← AddTrim.sgxAcceptForward S.env hi (pageCount + 1) startAddress []
        return (0, log)

def expandStackByPages (S : Setting) (startAddr pageCount : Nat) : Outcome (Int × List Nat) :=
  if startAddr = 0 ∨ pageCount = 0 then .done (-1, []) else applyPagesWithinException S startAddr pageCount

section

variable (S : Setting) (td : ThreadData) (ssa : SsaGpr)

def overrun : Handled := ⟨sgxErrorStackOverrun, true, td, ssa, [], []⟩

def defaultHandler : Handled := ⟨sgxErrorEnclaveCrashed, true, td, ssa, [], []⟩

def infoAddr (sp : Nat) : Nat := Word.alignDown ((sp + 2 ^ 64 - (redZoneSize + sizeofInfo)) % 2 ^ 64) 16

def newSp (info : Nat) : Nat := (info + 2 ^ 64 - 8) % 2 ^ 64

def growStack (sp : Nat) : Outcome Handled :=
  let pageAlignedDelta := roundToPage (td.stackCommitAddr - sp)
  if td.stackCommitAddr > pageAlignedDelta ∧ td.stackCommitAddr - pageAlignedDelta ≥ td.stackLimitAddr then do
    let (ret, log) ← expandStackByPages S (td.stackCommitAddr - pageAlignedDelta) (pageAlignedDelta / 2 ^ 12)
    if ret = 0 then
      return ⟨sgxSuccess, false, { td with stackCommitAddr := td.stackCommitAddr - pageAlignedDelta }, ssa, [], log⟩
    else return { overrun td ssa with accepted := log }
  else .done (overrun td ssa)

def infoStores (info sp : Nat) : List Store :=
  [⟨(info + 144) % 2 ^ 64, 4, ssa.vector⟩, ⟨(info + 148) % 2 ^ 64, 4, ssa.exitType⟩]
    ++ regs.map (fun r => ⟨(info + r.offset) % 2 ^ 64, 8, ssa.reg r⟩)
    ++ [⟨sp, 8, ssa.reg .ip⟩]

def secondPhase (info sp : Nat) : SsaGpr :=
  { ssa with
    valid := 0
    reg := fun
      | .ip => S.internalHandleException
      | .sp => sp
      | .ax => info
      | .di => info
      | r => ssa.reg r }

def skipReport : SsaGpr :=
  { ssa with
    reg := fun
      | .ip => (ssa.reg .ip + 3) % 2 ^ 64
      | .flags => ssa.reg .flags ||| 1
      | r => ssa.reg r }

def handleOnStack : Outcome Handled :=
  let sp := ssa.reg .sp
  if !isStackAddr td sp 0 then .done (overrun td ssa)
  else
    let info := infoAddr sp
    if !isStackAddr td info (redZoneSize + sizeofInfo) then .done (overrun td ssa)
    else
      let sp := newSp info
      if !isStackAddr td sp 8 then .done (overrun td ssa)
      else if sp < td.stackCommitAddr then growStack S td ssa sp
      else if S.lereportInst = ssa.reg .ip ∧ seEreport = ssa.reg .ax then
        .done ⟨sgxSuccess, false, td, skipReport ssa, [], []⟩
      else if ssa.valid ≠ 1 then .done (defaultHandler td ssa)
      else .done ⟨sgxSuccess, false, td, secondPhase S ssa info sp, infoStores ssa info sp, []⟩

def trtsHandleException (tcs : Nat) : Outcome Handled :=
  if tcs = 0 then .done (defaultHandler td ssa)
  else if !S.canaryOk then .done (defaultHandler td ssa)
  else if !S.initDone then .done (defaultHandler td ssa)
  else if td.exceptionFlag = -1 then .done (defaultHandler td ssa)
  else if td2Tcs td ≠ tcs ∨ (trimToPage td.firstSsaGpr + 2 ^ 64 - sePageSize) % 2 ^ 64 ≠ tcs then
    .done (defaultHandler td ssa)
  else handleOnStack S td ssa

end

section

variable {S : Setting} {td : ThreadData} {ssa : SsaGpr} {sp : Nat}

structure Consistent (td : ThreadData) : Prop where
  limit_le : td.stackLimitAddr ≤ td.stackCommitAddr
  commit_le : td.stackCommitAddr ≤ td.stackBaseAddr
  base_lt : td.stackBaseAddr < 2 ^ 64
  limit_aligned : td.stackLimitAddr % sePageSize = 0
  commit_aligned : td.stackCommitAddr % sePageSize = 0
  ssa_lt : td.firstSsaGpr < 2 ^ 64

theorem isStackAddr_iff {addr size : Nat} : isStackAddr td addr size = true
      ↔ addr ≤ (addr + size) % 2 ^ 64 ∧ (addr + size) % 2 ^ 64 ≤ td.stackBaseAddr ∧ td.stackLimitAddr ≤ addr := by
  unfold isStackAddr
  simp only [Bool.and_eq_true, decide_eq_true_eq, and_assoc, ge_iff_le]

theorem infoAddr_eq (sp : Nat) : infoAddr sp = (sp + 2 ^ 64 - 280) % 2 ^ 64 - (sp + 2 ^ 64 - 280) % 2 ^ 64 % 16 :=
  Word.alignDown_two_pow (k := 4) (mod_lt _ (by decide)) (by decide)

theorem base_of_td2Tcs (h : Consistent td) {tcs : Nat} (htcs : td2Tcs td = tcs)
    (hssa : (trimToPage td.firstSsaGpr + 2 ^ 64 - sePageSize) % 2 ^ 64 = tcs) :
    td.stackBaseAddr % sePageSize = 3408 := by
  rw [trimToPage_eq] at hssa
  have hlt := h.ssa_lt
  have hbase := h.base_lt
  unfold td2Tcs staticStackSize seGuardPageSize at htcs
  unfold sePageSize at *
  omega

structure Room (td : ThreadData) (sp info new : Nat) : Prop where
  below : info + (redZoneSize + sizeofInfo) ≤ sp
  top : info + sizeofInfo ≤ td.stackBaseAddr
  next : new + 8 = info
  limit : td.stackLimitAddr ≤ new

theorem room_of_checks (h : Consistent td) (hsp : sp < 2 ^ 64) (hbase : td.stackBaseAddr % sePageSize = 3408)
    (hinfo : isStackAddr td (infoAddr sp) (redZoneSize + sizeofInfo) = true)
    (hnew : isStackAddr td (newSp (infoAddr sp)) 8 = true) :
    Room td sp (infoAddr sp) (newSp (infoAddr sp)) := by
  have hlt := h.base_lt
  rw [isStackAddr_iff] at hinfo hnew
  have heq := infoAddr_eq sp
  generalize infoAddr sp = info at *
  unfold newSp redZoneSize sizeofInfo sePageSize at *
  have hbelow : info + (128 + 152) ≤ sp := by omega
  have htop : info + 152 ≤ td.stackBaseAddr := by omega
  have hnext : (info + 2 ^ 64 - 8) % 2 ^ 64 + 8 = info := by omega
  exact ⟨hbelow, htop, hnext, hnew.2.2⟩

theorem roundToPage_eq (h : Consistent td) (hlt : sp < td.stackCommitAddr) :
    roundToPage (td.stackCommitAddr - sp) = td.stackCommitAddr - (sp - sp % sePageSize) := by
  have hcommit := h.commit_aligned
  have hle := h.commit_le
  have hbase := h.base_lt
  unfold roundToPage
  rw [trimToPage_eq]
  unfold sePageSize at *
  omega

structure Grown (td : ThreadData) (sp commit : Nat) (accepted : List Nat) : Prop where
  aligned : commit % sePageSize = 0
  limit : td.stackLimitAddr ≤ commit
  needed : commit ≤ sp
  lt : commit < td.stackCommitAddr
  pages : accepted = pagesFrom commit ((td.stackCommitAddr - commit) / sePageSize)

theorem grown_of_lt (h : Consistent td) (hlimit : td.stackLimitAddr ≤ sp) (hlt : sp < td.stackCommitAddr) :
    Grown td sp (sp - sp % sePageSize)
      (pagesFrom (sp - sp % sePageSize) ((td.stackCommitAddr - (sp - sp % sePageSize)) / sePageSize)) := by
  have haligned := h.limit_aligned
  unfold sePageSize at *
  refine ⟨?_, ?_, ?_, ?_, rfl⟩
  . unfold sePageSize
    omega
  all_goals omega

theorem expandStackByPages_cases {start count : Nat} (hstart : start % sePageSize = 0)
    (hfits : start + count * sePageSize < 2 ^ 64) :
    (expandStackByPages S start count = .abort ∧ ∃ log addr, S.env.accepts log addr = false)
      ∨ expandStackByPages S start count = .done (0, pagesFrom start count)
      ∨ ∃ ret : Int, ret ≠ 0 ∧ expandStackByPages S start count = .done (ret, []) := by
  have hsmall : count < 2 ^ 52 := by
    unfold sePageSize at hfits
    omega
  unfold expandStackByPages applyPagesWithinException
  split
  . exact .inr (.inr ⟨-1, by decide, rfl⟩)
  split
  . exact .inr (.inr ⟨-1, by decide, rfl⟩)
  split
  . exact .inr (.inr ⟨-1, by decide, rfl⟩)
  next growDown hcheck =>
  split
  . exact .inr (.inr ⟨sgxErrorUnexpected, by decide, rfl⟩)
  have hend := end_of_check hcheck
  rw [mod_eq_of_lt hsmall] at hend
  dsimp only
  rw [hend]
  rcases sgxAcceptForward_cases S.env [] (fun _ => hstart) hfits (lt_succ_self count)
    with ⟨habort, hfailed⟩ | ⟨log, hdone⟩
  . rw [habort]
    exact .inl ⟨rfl, hfailed⟩
  . rw [hdone, (sgxAcceptForward_eq_done hfits hdone).1]
    exact .inr (.inl rfl)

structure Committed (td : ThreadData) (sp : Nat) (r : Handled) : Prop where
  base : r.td.stackBaseAddr = td.stackBaseAddr
  limit : r.td.stackLimitAddr = td.stackLimitAddr
  stores : ∀ store ∈ r.stores, ∀ k < store.size,
    r.td.stackCommitAddr ≤ (store.addr + k) % 2 ^ 64 ∧ (store.addr + k) % 2 ^ 64 < td.stackBaseAddr
      ∧ (store.addr + k) % 2 ^ 64 + redZoneSize < sp
  grown : r.td.stackCommitAddr = td.stackCommitAddr ∧ r.accepted = []
    ∨ Grown td (newSp (infoAddr sp)) r.td.stackCommitAddr r.accepted

theorem Committed.of_unchanged {r : Handled} (htd : r.td = td) (hstores : r.stores = []) (haccepted : r.accepted = []) :
    Committed td sp r where
  base := by rw [htd]
  limit := by rw [htd]
  stores := by
    intro store hmem
    rw [hstores] at hmem
    cases hmem
  grown := .inl ⟨by rw [htd], haccepted⟩

def Meets (S : Setting) (td : ThreadData) (sp : Nat) (outcome : Outcome Handled) : Prop :=
  (outcome = .abort ∧ ∃ log addr, S.env.accepts log addr = false) ∨ ∃ r, outcome = .done r ∧ Committed td sp r

theorem meets_overrun : Meets S td sp (.done (overrun td ssa)) := .inr ⟨_, rfl, .of_unchanged rfl rfl rfl⟩

theorem meets_defaultHandler : Meets S td sp (.done (defaultHandler td ssa)) :=
  .inr ⟨_, rfl, .of_unchanged rfl rfl rfl⟩

theorem pages_to_commit {commit new : Nat} (hcommit : commit % sePageSize = 0) (hlt : new < commit) :
    new - new % sePageSize + (commit - (new - new % sePageSize)) / sePageSize * sePageSize = commit := by
  unfold sePageSize at *
  omega

theorem Committed.of_grown {new commit : Nat} {accepted : List Nat} (hnew : newSp (infoAddr sp) = new)
    (h : Grown td new commit accepted) :
    Committed td sp ⟨sgxSuccess, false, { td with stackCommitAddr := commit }, ssa, [], accepted⟩ where
  base := rfl
  limit := rfl
  stores := by
    intro store hmem
    cases hmem
  grown := .inr (hnew ▸ h)

theorem meets_growStack (h : Consistent td) {new : Nat} (hnew : newSp (infoAddr sp) = new)
    (hlimit : td.stackLimitAddr ≤ new) (hlt : new < td.stackCommitAddr) :
    Meets S td sp (growStack S td ssa new) := by
  have hgrown := grown_of_lt h hlimit hlt
  have hend := pages_to_commit h.commit_aligned hlt
  have hfits := lt_of_le_of_lt h.commit_le h.base_lt
  rw [← hend] at hfits
  have hstart := Nat.sub_sub_self (Nat.le_trans (Nat.sub_le _ (new % sePageSize)) (Nat.le_of_lt hlt))
  have hpage : 2 ^ 12 = sePageSize := rfl
  unfold growStack
  dsimp only
  rw [roundToPage_eq h hlt, hstart, hpage]
  split
  . rcases expandStackByPages_cases (S := S) hgrown.aligned hfits with
      ⟨habort, hfailed⟩ | hdone | ⟨ret, hret, hdone⟩
    . rw [habort]
      exact .inl ⟨rfl, hfailed⟩
    . rw [hdone, Outcome.done_bind]
      dsimp only
      rw [if_pos rfl]
      exact .inr ⟨_, rfl, .of_grown hnew hgrown⟩
    . rw [hdone, Outcome.done_bind]
      dsimp only
      rw [if_neg hret]
      exact .inr ⟨_, rfl, .of_unchanged rfl rfl rfl⟩
  . exact meets_overrun

theorem Reg.offset_le (r : Reg) : r.offset + 8 ≤ 144 := by
  cases r <;> decide

theorem Room.byte {info new a : Nat} (h : Room td sp info new) (hlo : new ≤ a) (hhi : a < info + sizeofInfo) :
    new ≤ a ∧ a < td.stackBaseAddr ∧ a + redZoneSize < sp := by
  have hbelow := h.below
  have htop := h.top
  omega

theorem Room.bytes {info new : Nat} (h : Room td sp info new) (addr size : Nat) (hsp : sp < 2 ^ 64) (hlo : new ≤ addr)
    (hhi : addr + size ≤ info + sizeofInfo) :
    ∀ k < size, new ≤ (addr % 2 ^ 64 + k) % 2 ^ 64 ∧ (addr % 2 ^ 64 + k) % 2 ^ 64 < td.stackBaseAddr
      ∧ (addr % 2 ^ 64 + k) % 2 ^ 64 + redZoneSize < sp := by
  intro k hk
  have hbelow := h.below
  have heq : (addr % 2 ^ 64 + k) % 2 ^ 64 = addr + k := by rw [mod_add_mod, mod_eq_of_lt (by omega)]
  rw [heq]
  exact h.byte (by omega) (by omega)

theorem stores_committed {info new : Nat} (h : Room td sp info new) (hsp : sp < 2 ^ 64) :
    ∀ store ∈ infoStores ssa info new, ∀ k < store.size,
      new ≤ (store.addr + k) % 2 ^ 64 ∧ (store.addr + k) % 2 ^ 64 < td.stackBaseAddr
        ∧ (store.addr + k) % 2 ^ 64 + redZoneSize < sp := by
  have hnext := h.next
  have hbelow := h.below
  have hsize : sizeofInfo = 152 := rfl
  intro store hmem
  rcases List.mem_append.1 hmem with hmem | hmem
  . rcases List.mem_append.1 hmem with hmem | hmem
    . rcases List.mem_pair.1 hmem with rfl | rfl
      . exact h.bytes _ 4 hsp (by omega) (by omega)
      . exact h.bytes _ 4 hsp (by omega) (by omega)
    obtain ⟨r, -, rfl⟩ := List.mem_map.1 hmem
    have hoffset := r.offset_le
    exact h.bytes _ 8 hsp (by omega) (by omega)
  . cases List.mem_singleton.1 hmem
    have hmod : new % 2 ^ 64 = new := mod_eq_of_lt (by omega)
    have hbytes := h.bytes new 8 hsp (le_refl _) (by omega)
    rwa [hmod] at hbytes

theorem meets_handleOnStack (h : Consistent td) (hsp : ssa.reg .sp < 2 ^ 64)
    (hbase : td.stackBaseAddr % sePageSize = 3408) : Meets S td (ssa.reg .sp) (handleOnStack S td ssa) := by
  unfold handleOnStack
  dsimp only
  split
  . exact meets_overrun
  split
  . exact meets_overrun
  next hinfo =>
  split
  . exact meets_overrun
  next hnew =>
  rw [Bool.not_eq_true', Bool.not_eq_false] at hinfo hnew
  have hroom := room_of_checks h hsp hbase hinfo hnew
  generalize hinfoEq : infoAddr (ssa.reg .sp) = info at *
  generalize hnewEq : newSp info = new at *
  split
  . next hlt => exact meets_growStack h (by rw [hinfoEq, hnewEq]) hroom.limit hlt
  next hcommitted =>
  split
  . exact .inr ⟨_, rfl, .of_unchanged rfl rfl rfl⟩
  split
  . exact meets_defaultHandler
  refine .inr ⟨_, rfl, rfl, rfl, ?_, .inl ⟨rfl, rfl⟩⟩
  intro store hmem k hk
  obtain ⟨hlo, hrest⟩ := stores_committed hroom hsp store hmem k hk
  exact ⟨Nat.le_trans (Nat.le_of_not_lt hcommitted) hlo, hrest⟩

/--
The handler writes only to the committed stack, below the red zone of the interrupted stack pointer. If the stack grows,
the new end of the committed part is that of a page, not below the limit and not above the address that is needed, and
exactly the pages in between are accepted. It aborts only if a page is not accepted.
-/
theorem trtsHandleException_committed (h : Consistent td) (hsp : ssa.reg .sp < 2 ^ 64) (tcs : Nat) :
    Meets S td (ssa.reg .sp) (trtsHandleException S td ssa tcs) := by
  unfold trtsHandleException
  split
  . exact meets_defaultHandler
  split
  . exact meets_defaultHandler
  split
  . exact meets_defaultHandler
  split
  . exact meets_defaultHandler
  split
  . exact meets_defaultHandler
  next htcs =>
  rw [not_or, not_not, not_not] at htcs
  exact meets_handleOnStack h hsp (base_of_td2Tcs h htcs.1 htcs.2)

end

def smallStack : ThreadData where
  stackBaseAddr := 0x20005000 - staticStackSize
  stackLimitAddr := 0x20001000
  stackCommitAddr := 0x20003000
  firstSsaGpr := 0x20016f48
  exceptionFlag := 0

def smallSetting : Setting where
  global := ⟨0x20000000, 0, 0, [⟨layoutIdStackMax, 0x48, 2, 0x1000, 0, 0⟩], true⟩
  env := .granted
  canaryOk := true
  initDone := true
  spRefused := false
  lereportInst := 0
  internalHandleException := 0

def smallSsa : SsaGpr where
  reg r := if r = .sp then 0x20003010 else 0
  vector := 14
  exitType := 3
  valid := 1

theorem trtsHandleException_committed_small :
    Consistent smallStack ∧ smallSsa.reg .sp < 2 ^ 64
      ∧ Meets smallSetting smallStack (smallSsa.reg .sp)
        (trtsHandleException smallSetting smallStack smallSsa 0x20015000) := by
  have h : Consistent smallStack :=
    ⟨by decide, by decide, by decide, by decide, by decide, by decide⟩
  have hsp : smallSsa.reg .sp < 2 ^ 64 := by decide
  exact ⟨h, hsp, trtsHandleException_committed h hsp 0x20015000⟩

end Exception
end Trts
