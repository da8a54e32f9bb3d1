import SrasMage.Switchless.Basic
import SrasMage.Trts.Enclave

/-!
This module contains the worker of switchless calls inside the enclave, whose manager is cloned from memory
of the host.
-/

namespace Switchless

open Trts Bitmap List Nat

structure HostMngr where
  fmnType : UInt32
  dir : UInt32
  numLines : UInt32
  eventLinesSeen : UInt64
  eventLines : UInt64
  fmnBufsSeen : UInt64
  fmnBufs : UInt64

def slFcallTypeOcall : UInt32 := 0
def slFcallTypeEcall : UInt32 := 1

def slSiglinesDirT2U : UInt32 := 0
def slSiglinesDirU2T : UInt32 := 1

def sizeofFcallMngr : Nat := 56
def siglnsOffset : Nat := 4
def sizeofSiglines : Nat := 32

def einval : Int := 22
def enomem : Int := 12

structure Siglines where
  dir : UInt32
  numLines : Nat
  eventLines : Nat

def panicOn (cond : Bool) : Outcome Unit := if cond then .abort else .done ()

def isDirectionSender (dir : UInt32) : Bool := dir == slSiglinesDirT2U

def slSiglinesClone (E : Enclave) (untrusted : Nat) (host : HostMngr) (handler malloc : Bool) :
    Outcome (Except Int Siglines) := do
  panicOn (!E.sgxIsOutsideEnclave untrusted sizeofSiglines)
  panicOn (host.dir != slSiglinesDirT2U && host.dir != slSiglinesDirU2T)
  panicOn (isDirectionSender host.dir && handler)
  let numLines := host.numLines.toNat
  if numLines = 0 ∨ numLines % 64 ≠ 0 then return .error (-einval)
  panicOn (host.eventLinesSeen == 0)
  panicOn (!E.sgxIsOutsideEnclave host.eventLines.toNat (8 * (numLines / 64)))
  if isDirectionSender host.dir = true ∧ malloc = false then return .error (-enomem)
  return .ok ⟨host.dir, numLines, host.eventLines.toNat⟩

structure Manager where
  fmnType : UInt32
  siglns : Siglines
  fmnBufs : Nat
  callTable : List Nat

def fcallType2direction (type : UInt32) : UInt32 :=
  if type = slFcallTypeOcall then slSiglinesDirT2U else slSiglinesDirU2T

def canTypeProcess (type : UInt32) : Bool := type == slFcallTypeEcall

def slFcallMngrClone (E : Enclave) (untrusted : UInt64) (host : HostMngr) (malloc : Bool) :
    Outcome (Except Int Manager) := do
  panicOn (!E.sgxIsOutsideEnclave untrusted.toNat sizeofFcallMngr)
  panicOn (untrusted == 0)
  panicOn (host.fmnType != slFcallTypeEcall && host.fmnType != slFcallTypeOcall)
  match ← slSiglinesClone E (untrusted.toNat + siglnsOffset) host (canTypeProcess host.fmnType) malloc with
  | .error err => return .error err
  | .ok siglns =>
    panicOn (fcallType2direction host.fmnType != siglns.dir)
    panicOn (host.fmnBufsSeen == 0)
    panicOn (!E.sgxIsOutsideEnclave host.fmnBufs.toNat (8 * siglns.numLines))
    return .ok ⟨host.fmnType, siglns, host.fmnBufs.toNat, []⟩

def newFecallTable (table : List EcallInfo) : List Nat :=
  (table.take (table.length % 2 ^ 32)).map fun info => if info.isPriv = 0 then info.ecallAddr else 0

def initTswitchlessEcallMngr (E : Enclave) (handle : Option UInt64) (host : HostMngr) (malloc : Bool × Bool)
    (table : List EcallInfo) : Outcome (Except UInt64 Manager) := do
  match handle with
  | none => return .error (UInt64.ofInt einval)
  | some mngrU =>
    match ← slFcallMngrClone E mngrU host malloc.1 with
    | .error ret => return .error (UInt64.ofInt ret)
    | .ok mngr =>
      panicOn (mngr.fmnType != slFcallTypeEcall)
      if malloc.2 = false then return .error (UInt64.ofInt enomem)
      return .ok { mngr with callTable := newFecallTable table }

structure Access where
  addr : Nat
  size : Nat
deriving DecidableEq

def Access.Outside (E : Enclave) (a : Access) : Prop := ∀ i < a.size, ¬E.Contains ((a.addr + i) % 2 ^ 64)

inductive Answer
  | abort
  | error (err : Nat)
  | call (func : Nat) (ms : UInt64)
deriving DecidableEq

structure Handled where
  accesses : List Access
  answer : Answer

def fbfStatus (buf : UInt64) : Access := ⟨buf.toNat, 4⟩
def fbfRet (buf : UInt64) : Access := ⟨buf.toNat + 4, 4⟩
def fbfFnId (buf : UInt64) : Access := ⟨buf.toNat + 8, 4⟩
def fbfMsPtr (buf : UInt64) : Access := ⟨buf.toNat + 16, 8⟩

def slFcallStatusSubmitted : UInt32 := 1

structure HostFcall where
  status : UInt32
  fnId : UInt32
  msPtr : UInt64

def processFcall (mngr : Manager) (line : Nat) (buf : UInt64) (host : HostFcall) : Handled :=
  let fetched := [⟨mngr.fmnBufs + 8 * line, 8⟩, fbfStatus buf]
  if host.status ≠ slFcallStatusSubmitted then ⟨fetched, .abort⟩
  else
    let accepted := fetched ++ [fbfStatus buf, fbfFnId buf]
    match mngr.callTable[host.fnId.toNat]? with
    | none => ⟨accepted ++ [fbfRet buf, fbfStatus buf], .error sgxErrorInvalidFunction⟩
    | some func =>
      if func = 0 then
        ⟨accepted ++ [fbfRet buf, fbfStatus buf],
          .error (if mngr.fmnType = slFcallTypeEcall then sgxErrorEcallNotAllowed else sgxErrorOcallNotAllowed)⟩
      else ⟨accepted ++ [fbfMsPtr buf, fbfRet buf, fbfStatus buf], .call func host.msPtr⟩

def processSignals (siglns : Siglines) (words : Words) (taken : Nat → Bool) : List Nat :=
  (range (siglns.numLines / 64)).flatMap fun i =>
    if words i = 0 then []
    else
      let startBit := (words i).ctz.toNat
      let endBit := 64 - (words i).clz.toNat
      ((range' startBit (endBit - startBit)).map (64 * i + ·)).filter taken

theorem panicOn_done {α : Type} {cond : Bool} {f : Unit → Outcome α} {a : α} (h : (panicOn cond >>= f) = .done a) :
    cond = false ∧ f () = .done a := by
  cases cond with
  | true => cases h
  | false => exact ⟨rfl, h⟩

structure Manager.Checked (E : Enclave) (mngr : Manager) : Prop where
  events : E.sgxIsOutsideEnclave mngr.siglns.eventLines (8 * (mngr.siglns.numLines / 64)) = true
  events_lt : mngr.siglns.eventLines < 2 ^ 64
  bufs : E.sgxIsOutsideEnclave mngr.fmnBufs (8 * mngr.siglns.numLines) = true
  bufs_lt : mngr.fmnBufs < 2 ^ 64
  lines : mngr.siglns.numLines < 2 ^ 32 ∧ mngr.siglns.numLines % 64 = 0

variable {E : Enclave} {host : HostMngr} {table : List EcallInfo} {mngr : Manager}

theorem slSiglinesClone_ok {untrusted : Nat} {handler malloc : Bool} {siglns : Siglines}
    (h : slSiglinesClone E untrusted host handler malloc = .done (.ok siglns)) :
    E.sgxIsOutsideEnclave siglns.eventLines (8 * (siglns.numLines / 64)) = true ∧ siglns.eventLines < 2 ^ 64 ∧
      siglns.numLines < 2 ^ 32 ∧ siglns.numLines % 64 = 0 := by
  unfold slSiglinesClone at h
  obtain ⟨-, h⟩ := panicOn_done h
  obtain ⟨-, h⟩ := panicOn_done h
  obtain ⟨-, h⟩ := panicOn_done h
  dsimp only at h
  split at h
  . cases h
  next hlines =>
    obtain ⟨-, h⟩ := panicOn_done h
    obtain ⟨hevents, h⟩ := panicOn_done h
    split at h
    . cases h
    cases h
    rw [not_or, not_not] at hlines
    rw [Bool.not_eq_false'] at hevents
    exact ⟨hevents, host.eventLines.toNat_lt, host.numLines.toNat_lt, hlines.2⟩

theorem slFcallMngrClone_ok {untrusted : UInt64} {malloc : Bool}
    (h : slFcallMngrClone E untrusted host malloc = .done (.ok mngr)) : mngr.Checked E := by
  unfold slFcallMngrClone at h
  obtain ⟨-, h⟩ := panicOn_done h
  obtain ⟨-, h⟩ := panicOn_done h
  obtain ⟨-, h⟩ := panicOn_done h
  obtain ⟨res, hclone, h⟩ := Outcome.bind_eq_done h
  cases res with
  | error err => cases h
  | ok siglns =>
    obtain ⟨-, h⟩ := panicOn_done h
    obtain ⟨-, h⟩ := panicOn_done h
    obtain ⟨hbufs, h⟩ := panicOn_done h
    obtain ⟨hevents, hevents_lt, hlines⟩ := slSiglinesClone_ok hclone
    cases h
    rw [Bool.not_eq_false'] at hbufs
    exact ⟨hevents, hevents_lt, hbufs, host.fmnBufs.toNat_lt, hlines⟩

theorem initTswitchlessEcallMngr_ok {handle : Option UInt64} {malloc : Bool × Bool}
    (h : initTswitchlessEcallMngr E handle host malloc table = .done (.ok mngr)) :
    mngr.Checked E ∧ mngr.callTable = newFecallTable table := by
  unfold initTswitchlessEcallMngr at h
  cases handle with
  | none => cases h
  | some mngrU =>
    obtain ⟨res, hclone, h⟩ := Outcome.bind_eq_done h
    cases res with
    | error err => cases h
    | ok cloned =>
      obtain ⟨-, h⟩ := panicOn_done h
      split at h
      . cases h
      cases h
      obtain ⟨hevents, hevents_lt, hbufs, hbufs_lt, hlines⟩ := slFcallMngrClone_ok hclone
      exact ⟨⟨hevents, hevents_lt, hbufs, hbufs_lt, hlines⟩, rfl⟩

theorem lt_of_mem_processSignals {siglns : Siglines} {words : Words} {taken : Nat → Bool} {line : Nat}
    (hmod : siglns.numLines % 64 = 0) (h : line ∈ processSignals siglns words taken) : line < siglns.numLines := by
  unfold processSignals at h
  rw [mem_flatMap] at h
  obtain ⟨i, hi, h⟩ := h
  rw [mem_range] at hi
  split at h
  . cases h
  obtain ⟨j, hj, rfl⟩ := mem_map.1 (mem_filter.1 h).1
  rw [mem_range'_1] at hj
  omega

structure Handled.Safe (E : Enclave) (table : List EcallInfo) (res : Handled) : Prop where
  outside : ∀ a ∈ res.accesses, a.Outside E
  allowed : ∀ func ms, res.answer = .call func ms → ∃ info ∈ table, info.isPriv = 0 ∧ info.ecallAddr = func

def usedSize (callTable : List Nat) : Nat := if ∃ func ∈ callTable, func ≠ 0 then 24 else 12

theorem mem_newFecallTable {func : Nat} (h : func ∈ newFecallTable table) (hne : func ≠ 0) :
    ∃ info ∈ table, info.isPriv = 0 ∧ info.ecallAddr = func := by
  unfold newFecallTable at h
  obtain ⟨info, hmem, hfunc⟩ := mem_map.1 h
  split at hfunc
  next hpriv => exact ⟨info, mem_of_mem_take hmem, hpriv, hfunc⟩
  next => exact absurd hfunc.symm hne

theorem Manager.Checked.entry_outside (h : mngr.Checked E) {line : Nat} (hline : line < mngr.siglns.numLines) :
    Access.Outside E ⟨mngr.fmnBufs + 8 * line, 8⟩ := by
  intro i hi
  dsimp only at hi ⊢
  have hlines := h.lines.1
  obtain ⟨hfits, -⟩ := Enclave.sgxIsOutsideEnclave_bounds h.bufs h.bufs_lt (by omega)
  rw [mod_eq_of_lt (by omega)]
  exact Enclave.not_contains_of_outside h.bufs h.bufs_lt (by omega) (by omega) (by omega)

theorem not_contains_gap {buf : Nat} (h11 : ¬E.Contains ((buf + 11) % 2 ^ 64))
    (h16 : ¬E.Contains ((buf + 16) % 2 ^ 64)) {i : Nat} (hi : 12 ≤ i) (hi' : i < 16) :
    ¬E.Contains ((buf + i) % 2 ^ 64) := by
  have hsize : 4096 ≤ E.size := le_of_dvd E.pos E.size_aligned
  have hfits := E.fits
  unfold Enclave.Contains at *
  omega

theorem outside_field {buf : UInt64} {n : Nat} (offset : Nat) {size : Nat}
    (h : ∀ i < n, ¬E.Contains ((buf.toNat + i) % 2 ^ 64)) (hfield : offset + size ≤ n) :
    Access.Outside E ⟨buf.toNat + offset, size⟩ := by
  intro i hi
  dsimp only at hi ⊢
  rw [add_assoc]
  exact h (offset + i) (by omega)

theorem not_contains_field {buf : UInt64} (offset : Nat) {size : Nat}
    (h : Access.Outside E ⟨buf.toNat + offset, size⟩) {i : Nat} (hi : offset ≤ i) (hi' : i < offset + size) :
    ¬E.Contains ((buf.toNat + i) % 2 ^ 64) := by
  have hout := h (i - offset) (by dsimp only; omega)
  dsimp only at hout
  rwa [Nat.add_assoc, Nat.add_sub_cancel' hi] at hout

theorem mem_accesses (mngr : Manager) (line : Nat) (buf : UInt64) (fnId : UInt32) (msPtr : UInt64) :
    let res := processFcall mngr line buf ⟨slFcallStatusSubmitted, fnId, msPtr⟩
    fbfStatus buf ∈ res.accesses ∧ fbfRet buf ∈ res.accesses ∧ fbfFnId buf ∈ res.accesses := by
  unfold processFcall
  dsimp only
  rw [if_neg (not_not.2 rfl)]
  split
  . simp
  . split <;> simp

theorem fbfMsPtr_mem_accesses {func : Nat} (hfunc : func ≠ 0) {n : Nat} (hn : n < 2 ^ 32)
    (hget : mngr.callTable[n]? = some func) (line : Nat) (buf : UInt64) (msPtr : UInt64) :
    fbfMsPtr buf ∈ (processFcall mngr line buf ⟨slFcallStatusSubmitted, UInt32.ofNat n, msPtr⟩).accesses := by
  have hid : (UInt32.ofNat n).toNat = n := UInt32.toNat_ofNat_of_lt hn
  unfold processFcall
  dsimp only
  rw [if_neg (not_not.2 rfl), hid, hget]
  dsimp only
  rw [if_neg hfunc]
  simp

theorem length_newFecallTable (table : List EcallInfo) : (newFecallTable table).length < 2 ^ 32 := by
  unfold newFecallTable
  rw [length_map, length_take]
  have := mod_lt table.length (show 0 < 2 ^ 32 by decide)
  omega

theorem not_contains_of_safe (htable : mngr.callTable = newFecallTable table) {line : Nat} {buf : UInt64}
    (h : ∀ host, (processFcall mngr line buf host).Safe E table) :
    ∀ i < usedSize mngr.callTable, ¬E.Contains ((buf.toNat + i) % 2 ^ 64) := by
  have hlow : ∀ i < 12, ¬E.Contains ((buf.toNat + i) % 2 ^ 64) := by
    intro i hi
    obtain ⟨hstatus, hret, hfnId⟩ := mem_accesses mngr line buf 0 0
    have hsafe := (h ⟨slFcallStatusSubmitted, 0, 0⟩).outside
    rcases lt_or_ge i 4 with h4 | h4
    . exact not_contains_field 0 (hsafe _ hstatus) (zero_le i) (by omega)
    rcases lt_or_ge i 8 with h8 | h8
    . exact not_contains_field 4 (hsafe _ hret) h4 h8
    . exact not_contains_field 8 (hsafe _ hfnId) h8 hi
  unfold usedSize
  split
  next hfunc =>
    -- the host asks for a function that there is
    obtain ⟨func, hmem, hne⟩ := hfunc
    obtain ⟨n, hn, hget⟩ := mem_iff_getElem.1 hmem
    have hlt : n < 2 ^ 32 := by
      rw [htable] at hn
      exact hn.trans (length_newFecallTable table)
    have hms := (h _).outside _ (fbfMsPtr_mem_accesses hne hlt (by rw [getElem?_eq_getElem hn, hget]) line buf 0)
    intro i hi
    rcases lt_or_ge i 12 with h12 | h12
    . exact hlow i h12
    rcases lt_or_ge i 16 with h16 | h16
    . have h₁₆ := not_contains_field 16 hms (le_refl 16) (by decide)
      exact not_contains_gap (hlow 11 (by decide)) h₁₆ h12 h16
    . exact not_contains_field 16 hms h16 hi
  next => exact hlow

theorem safe_of_not_contains (htable : mngr.callTable = newFecallTable table) {line : Nat} {buf : UInt64}
    (hentry : Access.Outside E ⟨mngr.fmnBufs + 8 * line, 8⟩)
    (h : ∀ i < usedSize mngr.callTable, ¬E.Contains ((buf.toNat + i) % 2 ^ 64)) (host : HostFcall) :
    (processFcall mngr line buf host).Safe E table := by
  have h12 : ∀ i < 12, ¬E.Contains ((buf.toNat + i) % 2 ^ 64) := by
    intro i hi
    refine h i ?_
    unfold usedSize
    split <;> omega
  have hstatus : (fbfStatus buf).Outside E := outside_field 0 h12 (by decide)
  have hret : (fbfRet buf).Outside E := outside_field 4 h12 (by decide)
  have hfnId : (fbfFnId buf).Outside E := outside_field 8 h12 (by decide)
  unfold processFcall
  dsimp only
  split
  next => exact ⟨by simp [hentry, hstatus], nofun⟩
  next =>
    split
    next => exact ⟨by simp [hentry, hstatus, hret, hfnId], nofun⟩
    next func hget =>
      split
      next => exact ⟨by simp [hentry, hstatus, hret, hfnId], nofun⟩
      next hne =>
        have hmem : func ∈ mngr.callTable := mem_of_getElem? hget
        have hused : usedSize mngr.callTable = 24 := if_pos ⟨func, hmem, hne⟩
        rw [hused] at h
        have hms : (fbfMsPtr buf).Outside E := outside_field 16 h (by decide)
        refine ⟨by simp [hentry, hstatus, hret, hfnId, hms], ?_⟩
        rintro _ _ ⟨⟩
        rw [htable] at hmem
        exact mem_newFecallTable hmem hne

/--
The pointers to buffers that `process_fcall` is safe with, whatever the host answers to its other reads. They are
read from memory of the host when the request is handled, and nothing checks them.
-/
theorem processFcall_safe_iff {handle : Option UInt64} {malloc : Bool × Bool}
    (hinit : initTswitchlessEcallMngr E handle host malloc table = .done (.ok mngr)) {words : Words}
    {taken : Nat → Bool} {line : Nat} (hline : line ∈ processSignals mngr.siglns words taken) (buf : UInt64) :
    (∀ answers, (processFcall mngr line buf answers).Safe E table) ↔
      ∀ i < usedSize mngr.callTable, ¬E.Contains ((buf.toNat + i) % 2 ^ 64) := by
  obtain ⟨hchecked, htable⟩ := initTswitchlessEcallMngr_ok hinit
  have hentry := hchecked.entry_outside (lt_of_mem_processSignals hchecked.lines.2 hline)
  exact ⟨not_contains_of_safe htable, safe_of_not_contains htable hentry⟩

theorem workerEnclave_pos : 0 < 0x1000 := by decide

theorem workerEnclave_fits : 0x10000 + 0x1000 ≤ 2 ^ 64 := by decide

theorem workerEnclave_base_aligned : sePageSize ∣ 0x10000 := by decide

theorem workerEnclave_size_aligned : sePageSize ∣ 0x1000 := by decide

def workerEnclave : Enclave :=
  ⟨0x10000, 0x1000, workerEnclave_pos, workerEnclave_fits, workerEnclave_base_aligned, workerEnclave_size_aligned⟩

def workerEcalls : List EcallInfo := [⟨0x10400, 0⟩, ⟨0x10500, 1⟩]

def workerHost : HostMngr := ⟨slFcallTypeEcall, slSiglinesDirU2T, 64, 0x2000, 0x2000, 0x3000, 0x3000⟩

def workerMngr : Manager := ⟨slFcallTypeEcall, ⟨slSiglinesDirU2T, 64, 0x2000⟩, 0x3000, [0x10400, 0]⟩

theorem initTswitchlessEcallMngr_workerHost :
    initTswitchlessEcallMngr workerEnclave (some 0x1000) workerHost (true, true) workerEcalls
      = .done (.ok workerMngr) := rfl

theorem processFcall_safe_host_buffer :
    0 ∈ processSignals workerMngr.siglns (fun _ => 1) (fun _ => true) ∧
      ∀ answers, (processFcall workerMngr 0 0x4000 answers).Safe workerEnclave workerEcalls := by
  have hline : 0 ∈ processSignals workerMngr.siglns (fun _ => 1) fun _ => true := by decide +kernel
  exact ⟨hline, (processFcall_safe_iff initTswitchlessEcallMngr_workerHost hline 0x4000).2 (by decide)⟩

theorem processFcall_reads_enclave :
    initTswitchlessEcallMngr workerEnclave (some 0x1000) workerHost (true, true) workerEcalls
        = .done (.ok workerMngr) ∧
      0 ∈ processSignals workerMngr.siglns (fun _ => 1) (fun _ => true) ∧
      (∀ answers, ¬(processFcall workerMngr 0 0x10800 answers).Safe workerEnclave workerEcalls) ∧
      ⟨0x10800, 4⟩ ∈ (processFcall workerMngr 0 0x10800 ⟨slFcallStatusSubmitted, 0, 0⟩).accesses := by
  refine ⟨initTswitchlessEcallMngr_workerHost, by decide +kernel, fun answers h => ?_, by decide⟩
  have hread : fbfStatus 0x10800 ∈ (processFcall workerMngr 0 0x10800 answers).accesses := by
    unfold processFcall
    dsimp only
    split
    . simp
    split
    . simp
    . split <;> simp
  exact h.outside _ hread 0 (by decide) (by decide)

end Switchless
