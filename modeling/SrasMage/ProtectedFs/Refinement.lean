import SrasMage.ProtectedFs.ByteFile
import SrasMage.ProtectedFs.ReferenceLemmas

/-!
This module contains the proof that a protected file refines a plain array of bytes.
-/

namespace ProtectedFs

open Reference
open Bytes File

variable {N : Type}

section Mode

def OpenMode.Exclusive (m : OpenMode) : Prop := m.read = true → m.write = false

theorem exclusive_parseModeChar {m m' : OpenMode} {c : Char} (hm : m.Exclusive)
    (h : parseModeChar m c = some m') : m'.Exclusive := by
  unfold parseModeChar at h
  split at h
  . split at h
    . cases h
    next hno =>
    cases h
    intro _
    simpa using fun hwrite => hno (.inl hwrite)
  split at h
  . split at h
    . cases h
    next hno =>
    cases h
    intro hread
    exact absurd (.inr (.inl hread)) hno
  . repeat' split at h
    all_goals first | (cases h; exact hm) | cases h

theorem exclusive_parseMode {mode : List Char} {m : OpenMode} (h : parseMode mode = some m) : m.Exclusive := by
  have hfold : ∀ (cs : List Char) (m0 m1 : OpenMode), m0.Exclusive →
      cs.foldlM parseModeChar m0 = some m1 → m1.Exclusive := by
    intro cs
    induction cs with
    | nil =>
      intro m0 m1 hm hfold
      cases hfold
      exact hm
    | cons c cs ih =>
      intro m0 m1 hm hfold
      rw [List.foldlM_cons, Option.bind_eq_bind, Option.bind_eq_some_iff] at hfold
      rcases hfold with ⟨m', hchar, hrest⟩
      exact ih m' m1 (exclusive_parseModeChar hm hchar) hrest
  unfold parseMode at h
  split at h
  . cases h
  split at h
  . cases h
  next m' hm' =>
  split at h
  . cases h
  cases h
  exact hfold _ _ _ (by simp [OpenMode.Exclusive, OpenMode.raw0]) hm'

end Mode

section SeekToStart

theorem contents_seekToStart (s : File N) (t : Tree) : s.seekToStart.contents t = s.contents t := by
  unfold seekToStart
  split <;> rfl

theorem endOfFile_seekToStart (s : File N) : s.seekToStart.endOfFile = s.endOfFile := by
  unfold seekToStart
  split <;> rfl

theorem identity_seekToStart (s : File N) : s.seekToStart.identity = s.identity := by
  unfold seekToStart
  split <;> rfl

end SeekToStart

structure Simulates (P : Platform N) (kdk : Option Key) (cleanFilename : List Char) (s : File N)
    (f : ByteFile) (t : Tree) : Prop where
  works : Works P anyNode s t
  bytes : s.contents t = f.bytes
  cursor : s.offset = f.cursor
  eof : s.endOfFile = f.eof
  mode : s.openMode = f.mode
  kdk : s.kdk = kdk
  cleanFilename : s.encryptedPartPlain.cleanFilename = cleanFilename
  /-- The flag is only set if there is nothing left to read. -/
  atEnd : f.eof = true → f.cursor = f.bytes.length

namespace Simulates

variable {P : Platform N} {kdk : Option Key} {cleanFilename : List Char} {s s' : File N}
  {f : ByteFile} {t : Tree}

section

variable (h : Simulates P kdk cleanFilename s f t)
include h

theorem size : s.encryptedPartPlain.size = f.bytes.length := by rw [← h.bytes, length_contents]

theorem begin (outside : Outside N) : Simulates P kdk cleanFilename (s.begin outside) f t :=
  ⟨h.works.begin outside, h.bytes, h.cursor, h.eof, h.mode, h.kdk, h.cleanFilename, h.atEnd⟩

theorem fail (e : Error) : Simulates P kdk cleanFilename (s.fail e) f t :=
  ⟨h.works.of_sameFile (sameFile_fail s e) rfl h.works.live.inside, h.bytes, h.cursor, h.eof, h.mode,
    h.kdk, h.cleanFilename, h.atEnd⟩

theorem start : s.writeStart = f.start := by rw [writeStart, ByteFile.start, h.mode, h.size, h.cursor]

theorem writeRefused_iff (buffer : Buffer) {size count : Nat} (hempty : ¬ (size = 0 ∨ count = 0)) :
    s.writeRefused buffer size count = none ↔ (ByteFile.transfers buffer size count && f.writable) = true := by
  rw [not_or] at hempty
  simp only [writeRefused, h.works.status, h.mode, ByteFile.transfers, ByteFile.writable, ne_eq,
    not_true_eq_false, if_false, hempty, not_false_eq_true, decide_true, Bool.true_and]
  by_cases hbig : size > uint32Max ∨ count > uint32Max
  . simp only [if_pos hbig, reduceCtorEq, false_iff]
    simp only [Bool.and_eq_true, decide_eq_true_eq]
    omega
  have hsize : size ≤ uint32Max := by omega
  have hcount : count ≤ uint32Max := by omega
  simp only [if_neg hbig, hsize, hcount, decide_true, Bool.true_and]
  cases buffer.outside <;> cases f.mode.append <;> cases f.mode.update <;> cases f.mode.write <;>
    simp

end

theorem write [LawfulPlatform P] (hP : P.GcmCorrect) (h : Simulates P kdk cleanFilename s f t)
    (ho : s.outside.Undisturbed) (ptr : Option Buffer) (size count : Nat)
    (hhigh : f.start + size * count < 2 ^ 63) :
    (s.write P ptr size count).1 = (f.write ptr size count).1
      ∧ ∃ t', Simulates P kdk cleanFilename (s.write P ptr size count).2 (f.write ptr size count).2 t' := by
  cases ptr with
  | none => exact ⟨rfl, t, h⟩
  | some buffer =>
    by_cases hempty : size = 0 ∨ count = 0
    . have hno : (ByteFile.transfers buffer size count && f.writable) = false := by
        rcases hempty with h0 | h0 <;> simp [ByteFile.transfers, h0]
      rw [File.write, if_pos hempty, ByteFile.write, hno]
      exact ⟨rfl, t, h⟩
    have hiff := h.writeRefused_iff buffer hempty
    cases hrefused : s.writeRefused buffer size count with
    | some e =>
      have hno : (ByteFile.transfers buffer size count && f.writable) = false := by
        rw [hrefused] at hiff
        simpa using hiff
      rw [File.write, if_neg hempty, hrefused, ByteFile.write, hno]
      exact ⟨rfl, t, h.fail e⟩
    | none =>
      rcases h.works.write hP ho (by omega) hrefused (h.start ▸ hhigh) with ⟨t', hcount, hwrites, hworks⟩
      have hin := (live_seekToStart (Kept.trivial P _) h.works.live).inside
      have hoffset := hwrites.offset
      have hcontents := hwrites.contents hin
      rw [offset_seekToStart, h.start] at hoffset hcontents
      have hidentity := (identity_of_opened hwrites.opened).trans (identity_seekToStart s)
      rw [contents_seekToStart, h.bytes] at hcontents
      rw [ByteFile.write, if_pos (hiff.1 hrefused)]
      refine ⟨hcount, t', hworks, hcontents, hoffset, ?_, ?_, ?_, ?_, ?_⟩
      . exact ((congrArg Fixed.endOfFile hwrites.opened).trans (endOfFile_seekToStart s)).trans h.eof
      . exact (congrArg (fun x => x.1) hidentity).trans h.mode
      . exact (congrArg (fun x => x.2.1) hidentity).trans h.kdk
      . exact (congrArg (fun x => x.2.2.1) hidentity).trans h.cleanFilename
      intro heof
      have hstart : f.start = f.bytes.length := by
        have := h.atEnd heof
        rw [ByteFile.start]
        split <;> omega
      dsimp only
      rw [length_overwrite (le_of_eq hstart), length_tabulate]
      omega

theorem readRefused_iff (h : Simulates P kdk cleanFilename s f t) (buffer : Buffer)
    {size count : Nat} (hempty : ¬ (size = 0 ∨ count = 0)) :
    s.readRefused buffer.outside size count = none ↔ (ByteFile.transfers buffer size count && f.readable) = true := by
  rw [not_or] at hempty
  simp only [readRefused, h.works.status, h.mode, ByteFile.transfers, ByteFile.readable, ne_eq,
    not_true_eq_false, if_false, hempty, not_false_eq_true, decide_true, Bool.true_and]
  by_cases hbig : size > uint32Max ∨ count > uint32Max
  . simp only [if_pos hbig, reduceCtorEq, false_iff]
    simp only [Bool.and_eq_true, decide_eq_true_eq]
    omega
  have hsize : size ≤ uint32Max := by omega
  have hcount : count ≤ uint32Max := by omega
  simp only [if_neg hbig, hsize, hcount, decide_true, Bool.true_and]
  cases buffer.outside <;> cases f.mode.read <;> cases f.mode.update <;> simp

theorem setEof (h : Simulates P kdk cleanFilename s f t) (hend : f.cursor = f.bytes.length) :
    Simulates P kdk cleanFilename (s.setEof true) { f with eof := true } t :=
  ⟨h.works.of_sameFile (sameFile_setEof s true) rfl h.works.live.inside, h.bytes, h.cursor, rfl,
    h.mode, h.kdk, h.cleanFilename, fun _ => hend⟩

theorem moved (h : Simulates P kdk cleanFilename s f t) (heof : f.eof = false) {s2 : File N}
    {t' : Tree} {requested : Nat} (hworks : Works P anyNode s2 t')
    (hmoves : Moves s t (min requested (f.bytes.length - f.cursor)) s2 t') :
    Simulates P kdk cleanFilename (s2.setEofIf (min requested (f.bytes.length - f.cursor) ≠ requested)) { f with
        cursor := f.cursor + min requested (f.bytes.length - f.cursor)
        eof := decide (min requested (f.bytes.length - f.cursor) ≠ requested) } t' := by
  have hin := h.works.live.inside
  rw [h.size, h.cursor] at hin
  have hs2 : Simulates P kdk cleanFilename s2
      { f with cursor := f.cursor + min requested (f.bytes.length - f.cursor) } t' :=
    ⟨hworks, hmoves.contents.trans h.bytes, hmoves.offset.trans (by rw [h.cursor]),
      (congrArg Fixed.endOfFile hmoves.fixed).trans h.eof,
      (congrArg (fun x => x.1) hmoves.identity).trans h.mode,
      (congrArg (fun x => x.2.1) hmoves.identity).trans h.kdk,
      (congrArg (fun x => x.2.2.1) hmoves.identity).trans h.cleanFilename,
      fun heof' => by rw [heof] at heof'; cases heof'⟩
  rw [setEofIf]
  split
  . next hless =>
    simp only [hless, ne_eq, not_false_eq_true, decide_true]
    apply hs2.setEof
    dsimp only
    omega
  . next hfull =>
    simp only [hfull, decide_false]
    exact heof ▸ hs2

theorem read [LawfulPlatform P] (hP : P.GcmCorrect) (h : Simulates P kdk cleanFilename s f t)
    (ho : s.outside.Undisturbed) (ptr : Option Buffer) (size count : Nat) :
    (s.read P ptr size count).1 = (f.read ptr size count).1
      ∧ ∃ t', Simulates P kdk cleanFilename (s.read P ptr size count).2 (f.read ptr size count).2 t' := by
  cases ptr with
  | none => exact ⟨rfl, t, h⟩
  | some buffer =>
    by_cases hempty : size = 0 ∨ count = 0
    . have hno : (ByteFile.transfers buffer size count && f.readable) = false := by
        rcases hempty with h0 | h0 <;> simp [ByteFile.transfers, h0]
      rw [File.read, if_pos hempty, ByteFile.read, hno]
      exact ⟨rfl, t, h⟩
    have hiff := h.readRefused_iff buffer hempty
    cases hrefused : s.readRefused buffer.outside size count with
    | some e =>
      have hno : (ByteFile.transfers buffer size count && f.readable) = false := by
        rw [hrefused] at hiff
        simpa using hiff
      rw [File.read, if_neg hempty, hrefused, ByteFile.read, hno]
      exact ⟨rfl, t, h.fail e⟩
    | none =>
      have hpos : size * count ≠ 0 := by
        rw [not_or] at hempty
        exact Nat.mul_ne_zero hempty.1 hempty.2
      rw [ByteFile.read, if_pos (hiff.1 hrefused)]
      by_cases hend : f.cursor = f.bytes.length
      . have hzero : min (size * count) (f.bytes.length - f.cursor) = 0 := by omega
        have hnext : { f with cursor := f.cursor + 0, eof := f.eof || decide (0 ≠ size * count) }
            = { f with eof := true } := by simp [hpos.symm]
        simp only [hzero, Nat.zero_div, List.take_zero, hnext]
        rw [File.read, if_neg hempty, hrefused]
        dsimp only
        by_cases heof : s.endOfFile = true
        . rw [if_pos heof]
          have hf : { f with eof := true } = f := by rw [← h.eof.symm.trans heof]
          rw [hf]
          exact ⟨rfl, t, h⟩
        . rw [if_neg heof, if_pos (by rw [h.cursor, h.size]; exact hend)]
          exact ⟨rfl, t, h.setEof hend⟩
      . have heof : f.eof = false := by
          rw [← Bool.not_eq_true]
          exact fun heof => hend (h.atEnd heof)
        have hattempted : s.attempted size count = min (size * count) (f.bytes.length - f.cursor) := by
          rw [attempted, h.size, h.cursor]
        rcases h.works.read hP ho (by omega) hrefused
          ⟨h.eof.trans heof, by rw [h.cursor, h.size]; exact hend⟩ with ⟨s2, t', heq, hmoves, hworks⟩
        rw [heq, hattempted, h.bytes, h.cursor]
        refine ⟨rfl, t', ?_⟩
        dsimp only
        rw [heof, Bool.false_or]
        exact h.moved heof hworks (hattempted ▸ hmoves)

theorem seekTarget_eq (h : Simulates P kdk cleanFilename s f t) (newOffset : Int) (origin : Origin) :
    s.seekTarget newOffset origin
      = if 0 ≤ f.position newOffset origin ∧ f.position newOffset origin ≤ f.bytes.length then
          some (f.position newOffset origin).toNat
        else none := by
  cases origin with
  | set =>
    rw [seekTarget, h.size]
    rfl
  | cur =>
    rw [seekTarget, h.size, h.cursor]
    rfl
  | «end» =>
    have hposition : f.position newOffset .end = f.bytes.length + newOffset := rfl
    rw [seekTarget, h.size, hposition]
    by_cases hin : newOffset ≤ 0 ∧ 0 - (f.bytes.length : Int) ≤ newOffset
    . rw [if_pos hin, if_pos (by omega)]
    . rw [if_neg hin, if_neg (by omega)]

theorem seek (h : Simulates P kdk cleanFilename s f t) (newOffset : Int) (origin : Origin) :
    (s.seek newOffset origin).1 = (f.seek newOffset origin).1
      ∧ Simulates P kdk cleanFilename (s.seek newOffset origin).2 (f.seek newOffset origin).2 t := by
  rw [File.seek, if_neg (not_not.2 h.works.status), h.seekTarget_eq, ByteFile.seek]
  by_cases hin : 0 ≤ f.position newOffset origin ∧ f.position newOffset origin ≤ f.bytes.length
  . rw [if_pos hin, if_pos hin]
    refine ⟨rfl, ?_, h.bytes, rfl, rfl, h.mode, h.kdk, h.cleanFilename, fun heof => by cases heof⟩
    refine h.works.of_sameFile ⟨rfl, rfl, rfl, rfl⟩ rfl ?_
    have hle : (f.position newOffset origin).toNat ≤ s.encryptedPartPlain.size := by
      rw [h.size]
      omega
    exact hle
  . rw [if_neg hin, if_neg hin]
    exact ⟨rfl, h.fail einval⟩

theorem of_fixed (h : Simulates P kdk cleanFilename s f t) {t' : Tree} (hworks : Works P anyNode s' t')
    (hdata : t'.data = t.data) (hfixed : s'.fixed = s.fixed) :
    Simulates P kdk cleanFilename s' f t' := by
  have hstays : Stays s t s' t' := .of_fixed hdata hfixed
  exact ⟨hworks, hstays.contents.trans h.bytes, hstays.offset.trans h.cursor,
    (congrArg Fixed.endOfFile hfixed).trans h.eof, (congrArg Fixed.openMode hfixed).trans h.mode,
    hstays.kdk.trans h.kdk, hstays.cleanFilename.trans h.cleanFilename, h.atEnd⟩

end Simulates

inductive Related (P : Platform N) (kdk : Option Key) (cleanFilename : List Char) :
    Client N → ByteFile.Client → Prop where
  | missing {h : Host N} (main : h.main = none) :
    Related P kdk cleanFilename (.closed h) (.closed none)
  | stored {h : Host N} {bytes : List UInt8}
    (stores : Stores P anyNode kdk cleanFilename bytes h.main) (high : bytes.length < 2 ^ 63) :
    Related P kdk cleanFilename (.closed h) (.closed (some bytes))
  | «open» {s : File N} {f : ByteFile} {t : Tree} (simulates : Simulates P kdk cleanFilename s f t) :
    Related P kdk cleanFilename (.open s) (.open f)

section Open

variable {P : Platform N} {args : OpenArgs} {cleanFilename : List Char}

structure Names (args : OpenArgs) (cleanFilename : List Char) : Prop where
  importKey : args.importKey = none
  filename : cleanupFilename args.filename = .ok cleanFilename
  length : args.filename.length < fullnameMaxLen - 1

theorem Names.checkArgs (h : Names args cleanFilename) {mode : List Char} (hmode : mode ≠ []) :
    checkArgs { args with mode := mode } = none := by
  have hfilename : args.filename ≠ [] := by
    intro hnil
    have := h.filename
    rw [hnil] at this
    cases this
  rw [File.checkArgs, if_neg (by simp [hfilename, hmode]), if_neg (Nat.not_le.2 h.length),
    if_neg (by simp [h.importKey])]

theorem Names.parseArgs (h : Names args cleanFilename) (mode : List Char) : parseArgs { args with mode := mode }
      = match parseMode mode with
        | none => .error einval
        | some m => .ok (cleanFilename, m) := by
  rewrite [File.parseArgs, h.filename]
  exact if_neg (by simp [h.importKey])

variable {h : Host N} {outside : Outside N}

theorem File.Starts.simulates {mode : OpenMode} {bytes : List UInt8} {s : File N} {t : Tree}
    (hs : Starts P args cleanFilename mode bytes s t) :
    Simulates P args.kdkKey cleanFilename s ⟨bytes, openOffset mode bytes.length, false, mode⟩ t :=
  ⟨hs.works, hs.contents, hs.offset, hs.endOfFile, hs.openMode, hs.kdk, hs.cleanFilename, fun heof => by cases heof⟩

theorem Names.fopen_bad_mode (hnames : Names args cleanFilename) (ho : outside.Undisturbed)
    {mode : List Char} (hmode : parseMode mode = none) :
    Client.fopen P args h outside mode = (.flag false, .closed h) := by
  have hparse := hnames.parseArgs mode
  rw [hmode] at hparse
  rcases create_cases (P := P) ho.succeeds.calls { args with mode := mode } h
    with ⟨hrefused, hhost, -⟩ | ⟨_, _, _, -, hparse', -⟩
  . rw [Client.fopen, if_neg (by rw [hrefused.status]; simp), hhost]
  rw [hparse] at hparse'
  cases hparse'

theorem Names.nonempty {mode : List Char} {m : OpenMode} (hmode : parseMode mode = some m) : mode ≠ [] := by
  rintro rfl
  cases hmode

theorem Names.fopen_missing (hnames : Names args cleanFilename) (ho : outside.Undisturbed)
    {mode : List Char} {m : OpenMode} (hmode : parseMode mode = some m) (hread : m.read = true)
    (hmain : h.main = none) :
    ∃ h' : Host N, Client.fopen P args h outside mode = (.flag false, .closed h') ∧ h'.main = none := by
  have hparse := hnames.parseArgs mode
  rw [hmode] at hparse
  rcases create_cases (P := P) ho.succeeds.calls { args with mode := mode } h
    with ⟨-, -, hwhy | ⟨e, hwhy⟩⟩ | ⟨_, _, s, -, hparse', hhull, hhost, heq⟩
  . exact absurd (hnames.checkArgs (Names.nonempty hmode)) hwhy
  . rw [hparse] at hwhy
    cases hwhy
  rw [hparse, Except.ok.injEq, Prod.mk.injEq] at hparse'
  rcases hparse' with ⟨rfl, rfl⟩
  rcases createFile_missing (P := P) hhull hread (hhost ▸ hmain) cleanFilename with ⟨hrefused, hmain'⟩ | hfails
  . have himport : args.importKey = none := hnames.importKey
    simp only [himport] at heq
    simp only [Client.fopen, himport, heq]
    rw [if_neg (by rw [hrefused.status]; simp)]
    exact ⟨_, rfl, hmain'⟩
  . exact absurd ho.succeeds.ocalls hfails

theorem fopen_starts {mode : List Char} {m : OpenMode} {bytes : List UInt8} {t : Tree}
    (hs : Starts P { args with mode := mode } cleanFilename m bytes (create P { args with mode := mode } h outside) t) :
    ∃ s, Client.fopen P args h outside mode = (.flag true, .open s)
      ∧ Simulates P args.kdkKey cleanFilename s ⟨bytes, openOffset m bytes.length, false, m⟩ t := by
  rw [Client.fopen, if_pos hs.works.status]
  exact ⟨_, rfl, hs.simulates⟩

theorem Names.fopen [LawfulPlatform P] (hP : P.GcmCorrect) (hnames : Names args cleanFilename)
    (ho : outside.Undisturbed) {stored : Option (List UInt8)}
    (hrelated : Related P args.kdkKey cleanFilename (.closed h) (.closed stored))
    (mode : List Char) :
    (Client.fopen P args h outside mode).1 = (ByteFile.step (.closed stored) (.open mode)).1
      ∧ Related P args.kdkKey cleanFilename (Client.fopen P args h outside mode).2
        (ByteFile.step (.closed stored) (.open mode)).2 := by
  have hparse := hnames.parseArgs mode
  cases hmode : parseMode mode with
  | none =>
    have hstep : ByteFile.step (.closed stored) (.open mode) = (.flag false, .closed stored) := by
      simp [ByteFile.step, ByteFile.open, hmode]
    rw [hnames.fopen_bad_mode ho hmode, hstep]
    exact ⟨rfl, hrelated⟩
  | some m =>
    rw [hmode] at hparse
    have hcheck := hnames.checkArgs (Names.nonempty hmode)
    have himport : ({ args with mode := mode } : OpenArgs).importKey = none := hnames.importKey
    have hexclusive := exclusive_parseMode hmode
    have hopen : ∀ f, ByteFile.openMode stored m = some f →
        ByteFile.step (.closed stored) (.open mode) = (.flag true, .open f) := by
      intro f hf
      simp [ByteFile.step, ByteFile.open, hmode, hf]
    by_cases hnew : stored = none ∨ m.write = true
    . by_cases hread : m.read = true
      . have hwrite := hexclusive hread
        have hstored : stored = none := by
          simpa [hwrite] using hnew
        subst hstored
        have hstep : ByteFile.step (.closed none) (.open mode) = (.flag false, .closed none) := by
          simp [ByteFile.step, ByteFile.open, hmode, ByteFile.openMode, hread]
        cases hrelated with
        | missing hmain =>
          rcases hnames.fopen_missing (P := P) ho hmode hread hmain with ⟨h', heq, hmain'⟩
          rw [heq, hstep]
          exact ⟨rfl, .missing hmain'⟩
      have hnew' : h.main = none ∨ m.write = true := by
        rcases hnew with rfl | hwrite
        . cases hrelated with
          | missing hmain => exact .inl hmain
        . exact .inr hwrite
      rcases fopen_starts (create_new P himport hcheck hparse ho hnew' (by simpa using hread)) with ⟨s, heq, hsimulates⟩
      have hzero : openOffset m 0 = 0 := Nat.le_zero.1 (openOffset_le m 0)
      rw [heq, hopen ⟨[], 0, false, m⟩]
      . exact ⟨rfl, .open (by rw [← hzero]; exact hsimulates)⟩
      . rcases hnew with rfl | hwrite <;> simp [ByteFile.openMode, *]
    . rw [not_or, Bool.not_eq_true] at hnew
      cases hrelated with
      | missing _ => exact absurd rfl hnew.1
      | @stored _ bytes hstores hhigh =>
        rcases create_existing hP himport hcheck hparse ho hnew.2 hstores hhigh with ⟨t, hstarts⟩
        rcases fopen_starts hstarts with ⟨s, heq, hsimulates⟩
        rw [heq, hopen ⟨bytes, openOffset m bytes.length, false, m⟩]
        . exact ⟨rfl, .open hsimulates⟩
        . simp [ByteFile.openMode, hnew.2, openOffset]

end Open

section Run

variable {P : Platform N} {args : OpenArgs} {cleanFilename : List Char}

theorem Related.step [LawfulPlatform P] (hP : P.GcmCorrect) (hnames : Names args cleanFilename)
    {outside : Outside N} (ho : outside.Undisturbed) {c : Client N} {c' : ByteFile.Client}
    (h : Related P args.kdkKey cleanFilename c c') {r : Request} {rs : List Request}
    (hfits : ByteFile.Fits c' (r :: rs)) :
    (Client.step P args outside c r).1 = (ByteFile.step c' r).1
      ∧ Related P args.kdkKey cleanFilename (Client.step P args outside c r).2 (ByteFile.step c' r).2 := by
  cases h with
  | missing hmain =>
    cases r with
    | «open» mode => exact hnames.fopen hP ho (.missing hmain) mode
    | _ => exact ⟨rfl, .missing hmain⟩
  | stored hstores hhigh =>
    cases r with
    | «open» mode => exact hnames.fopen hP ho (.stored hstores hhigh) mode
    | _ => exact ⟨rfl, .stored hstores hhigh⟩
  | @«open» s f t hs =>
    have hbegin := hs.begin outside
    have ho' : (s.begin outside).outside.Undisturbed := ho
    cases r with
    | «open» mode => exact ⟨rfl, .open hs⟩
    | write ptr size count =>
      rcases hbegin.write hP ho' ptr size count hfits.1 with ⟨hcount, t', hs'⟩
      exact ⟨congrArg Response.count hcount, .open hs'⟩
    | read ptr size count =>
      rcases hbegin.read hP ho' ptr size count with ⟨hbytes, t', hs'⟩
      exact ⟨congrArg (fun x : Nat × List UInt8 => Response.bytes x.1 x.2) hbytes, .open hs'⟩
    | seek newOffset origin =>
      rcases hbegin.seek newOffset origin with ⟨hresult, hs'⟩
      exact ⟨congrArg Response.result hresult, .open hs'⟩
    | tell =>
      have htell : (s.begin outside).tell = (((s.begin outside).offset : Int), s.begin outside) := by
        rw [File.tell, if_neg (not_not.2 hbegin.works.status)]
      refine ⟨?_, ?_⟩
      . simp only [Client.step, htell, ByteFile.step, hbegin.cursor]
      simp only [Client.step, htell, ByteFile.step]
      exact .open hbegin
    | eof => exact ⟨congrArg Response.flag hs.eof, .open hs⟩
    | flush =>
      rcases hbegin.works.flush ho'.succeeds (fun _ _ => trivial) with ⟨s', t', heq, hdata, hfixed, hworks⟩
      simp only [Client.step, heq, ByteFile.step]
      exact ⟨trivial, .open (hbegin.of_fixed hworks hdata hfixed)⟩
    | clearCache =>
      rcases hbegin.works.clearCache ho'.succeeds (fun _ _ => trivial) with ⟨s', t', heq, hdata, hfixed, hworks⟩
      simp only [Client.step, heq, ByteFile.step]
      exact ⟨trivial, .open (hbegin.of_fixed hworks hdata hfixed)⟩
    | close =>
      rcases hbegin.works.preClose ho'.succeeds with ⟨htrue, hstores⟩
      rw [hbegin.kdk, hbegin.cleanFilename, hbegin.bytes] at hstores
      refine ⟨congrArg Response.flag htrue, .stored hstores ?_⟩
      rw [← hs.size]
      exact hs.works.high

theorem Related.responses [LawfulPlatform P] (hP : P.GcmCorrect)
    (hnames : Names args cleanFilename) (rs : List (Outside N × Request)) :
    ∀ {c : Client N} {c' : ByteFile.Client}, Related P args.kdkKey cleanFilename c c' →
      (∀ r ∈ rs, r.1.Undisturbed) → ByteFile.Fits c' (rs.map Prod.snd) →
      Client.responses P args c rs = ByteFile.responses c' (rs.map Prod.snd) := by
  induction rs with
  | nil =>
    intro c c' _ _ _
    rfl
  | cons r rs ih =>
    intro c c' h ho hfits
    rcases h.step hP hnames (ho r (by simp)) hfits with ⟨hresponse, hnext⟩
    rw [Client.responses, List.map_cons, ByteFile.responses, hresponse,
      ih hnext (fun r' hr' => ho r' (List.mem_cons_of_mem _ hr')) hfits.2]

end Run

/--
A client that starts without a file, or with a complete one, gets the responses of the byte array: the
return values, the bytes it reads, the position and the end of file flag are the same after any sequence
of requests in which nothing fails.
-/
theorem responses_refine (P : Platform N) [LawfulPlatform P] (hP : P.GcmCorrect) {args : OpenArgs}
    {cleanFilename : List Char} (hnames : Names args cleanFilename) (h : Host N)
    (stored : Option (List UInt8))
    (hstored : match stored with
      | none => h.main = none
      | some bytes => Stores P anyNode args.kdkKey cleanFilename bytes h.main ∧ bytes.length < 2 ^ 63)
    (rs : List (Outside N × Request)) (ho : ∀ r ∈ rs, r.1.Undisturbed)
    (hfits : ByteFile.Fits (.closed stored) (rs.map Prod.snd)) :
    Client.responses P args (.closed h) rs
      = ByteFile.responses (.closed stored) (rs.map Prod.snd) := by
  apply Related.responses hP hnames rs _ ho hfits
  cases stored with
  | none => exact .missing hstored
  | some bytes => exact .stored hstored.1 hstored.2

theorem ByteFile.fits_of_not_write (rs : List Request) (h : ∀ ptr size count, .write ptr size count ∉ rs) :
    ∀ c, Fits c rs := by
  induction rs with
  | nil => exact fun _ => trivial
  | cons r rs ih =>
    intro c
    refine ⟨?_, ih (fun _ _ _ hr => h _ _ _ (List.mem_cons_of_mem r hr)) _⟩
    split
    . exact absurd List.mem_cons_self (h _ _ _)
    . trivial

-- the bytes of two data nodes and the MHT node above them are read back from the host
theorem responses_refine_newFile :
    Client.responses platform (args []) (.closed ⟨none, none⟩)
        [(success, .open ['w', '+']), (success, .write (bytes 7) 1 11264), (success, .close),
          (success, .open ['r']), (success, .seek 7166 .set), (success, .read (bytes 0) 1 4),
          (success, .eof), (success, .close)]
      = [.flag true, .count 11264, .flag true, .flag true, .result 0, .bytes 4 [7, 7, 7, 7], .flag false,
        .flag true] := by
  have hnames : Names (args []) ['f'] := ⟨rfl, rfl, by decide⟩
  rw [responses_refine platform gcmCorrect hnames ⟨none, none⟩ none rfl]
  . decide +kernel
  . intro r hr
    simp only [List.mem_cons, List.not_mem_nil, or_false] at hr
    rcases hr with rfl | rfl | rfl | rfl | rfl | rfl | rfl | rfl <;> exact undisturbed_success
  . exact ⟨trivial, (by decide : 0 + 1 * 11264 < 2 ^ 63), ByteFile.fits_of_not_write _ (by simp) _⟩

end ProtectedFs
