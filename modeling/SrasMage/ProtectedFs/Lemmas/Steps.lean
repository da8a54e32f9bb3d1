import SrasMage.ProtectedFs.Lemmas.Open

/-!
This module contains what a step of a run does to the contents of a file.
-/

namespace ProtectedFs

open Bytes

variable {N : Type}

def Op.keepsOpen : Op → Bool
  | .preClose _ _ => false
  | _ => true

namespace File

def writeEnd (s : File N) : Op → Nat
  | .write (some _) size count => s.writeStart + size * count
  | _ => 0

structure Admits (P : Platform N) (E : Key × N → Prop) (s : File N) (st : Step N) : Prop where
  serves : st.outside.Serves P E
  noOrphan : ExtendsWithoutOrphan s st
  high : s.writeEnd st.op < 2 ^ 63
  through : ∀ u ∈ (s.begin st.outside).lookups P st.op, u.ReadsThrough

def absorb (bytes : List UInt8) (s s' : File N) : Op → List UInt8
  | .write (some buffer) _ _ =>
    overwrite bytes s.writeStart (tabulate buffer.bytes (s'.offset - s.writeStart))
  | _ => bytes

def identity (s : File N) : OpenMode × Option Key × List Char × Bool :=
  (s.openMode, s.kdk, s.encryptedPartPlain.cleanFilename, s.diverged)

theorem identity_of_opened {s s' : File N} (h : s'.opened = s.opened) : s'.identity = s.identity :=
  congrArg (fun f : Fixed N => (f.openMode, if f.useUserKdkKey then some f.userKdkKey else none,
    f.cleanFilename, f.diverged)) h

theorem Stays.identity {s s' : File N} {t t' : Tree} (h : Stays s t s' t') : s'.identity = s.identity :=
  h.congr (f := fun f : Fixed N => (f.openMode, if f.useUserKdkKey then some f.userKdkKey else none,
    f.cleanFilename, f.diverged)) (fun _ => rfl)

theorem Moves.identity {s s' : File N} {t t' : Tree} {k : Nat} (h : Moves s t k s' t') : s'.identity = s.identity :=
  congrArg (fun f : Fixed N => (f.openMode, if f.useUserKdkKey then some f.userKdkKey else none,
    f.cleanFilename, f.diverged)) h.fixed

section Same

variable {P : Platform N} {E : Key × N → Prop} {s s' : File N} {t : Tree}

theorem SameFile.session (h : SameFile s s') (hstatus : s'.fileStatus = s.fileStatus)
    (hin : s'.offset ≤ s'.encryptedPartPlain.size) (hs : Session P E s t) : Session P E s' t := by
  cases hs with
  | live hok hlive => exact .live (hstatus.trans hok) (h.live (Kept.trivial P E) hlive hin)
  | broken hbroken hordered _ =>
    refine .broken ?_ ?_ hin
    . rcases hbroken with ⟨hstatus', hready⟩ | ⟨hstatus', hstuck⟩
      . exact .flushError (hstatus.trans hstatus') (h.ready hready)
      refine .writeToDiskFailed (hstatus.trans hstatus') ⟨hstuck.sealed.of_memory h.memory, ?_, ?_⟩
      . rw [h.fileMetaData, h.kdk]
        exact hstuck.header
      have hmd : s'.encryptedPartPlain = s.encryptedPartPlain :=
        congrArg (fun m => m.2.2.2.2.1) h.memory
      rw [h.fileMetaData, h.kdk, hmd]
      exact hstuck.seals
    . have hcache : s'.cache = s.cache := congrArg (fun m => m.1) h.memory
      rw [Ordered, hcache]
      exact hordered

theorem Session.begin (hs : Session P E s t) (outside : Outside N) : Session P E (s.begin outside) t :=
  SameFile.session (s := s) ⟨rfl, rfl, rfl, rfl⟩ rfl hs.inside hs

theorem writeStart_ge (hin : s.offset ≤ s.encryptedPartPlain.size) : s.offset ≤ s.writeStart := by
  rw [writeStart]
  split
  . exact hin
  . exact le_rfl

theorem absorb_of_offset (hin : s.offset ≤ s.encryptedPartPlain.size) (h : s'.offset = s.offset)
    (bytes : List UInt8) (op : Op) : absorb bytes s s' op = bytes := by
  unfold absorb
  split
  . have hzero : s'.offset - s.writeStart = 0 := by
      have := writeStart_ge hin
      omega
    rw [hzero]
    exact overwrite_nil bytes s.writeStart
  . rfl

end Same

theorem log_evictAll (fuel : Nat) : ∀ s : File N, (s.evictAll fuel).2.encryptLog = s.encryptLog := by
  induction fuel with
  | zero =>
    intro s
    rfl
  | succ fuel ih =>
    intro s
    rw [evictAll]
    split
    . rfl
    split
    . rfl
    split
    . rfl
    . exact ih _

theorem log_clearCache {P : Platform N} {s : File N} {e : Key × N}
    (he : e ∈ (s.settle P).encryptLog) : e ∈ (s.clearCache P).2.encryptLog := by
  rw [clearCache]
  split
  . exact he
  rw [log_evictAll]
  exact he

inductive Stepped (P : Platform N) (E : Key × N → Prop) (s : File N) (t : Tree) (op : Op)
    (s' : File N) : Prop where
  | session (t' : Tree) (session : Session P E s' t')
    (contents : s'.contents t' = absorb (s.contents t) s s' op) (identity : s'.identity = s.identity)
    (high : s'.encryptedPartPlain.size < 2 ^ 63)
  | forged (forged : Forged P s s')

section Step

variable {P : Platform N} {E : Key × N → Prop} {s : File N} {t : Tree}

theorem Session.stepped_same {s' : File N} (hs : Session P E s t) (h : SameFile s s')
    (hstatus : s'.fileStatus = s.fileStatus) (hoffset : s'.offset = s.offset)
    (hidentity : s'.identity = s.identity) (hhigh : s.encryptedPartPlain.size < 2 ^ 63) (op : Op) :
    Stepped P E s t op s' := by
  have hmd : s'.encryptedPartPlain = s.encryptedPartPlain := congrArg (fun m => m.2.2.2.2.1) h.memory
  refine .session t (h.session hstatus ?_ hs) ?_ hidentity (hmd ▸ hhigh)
  . rw [hoffset, hmd]
    exact hs.inside
  . rw [absorb_of_offset hs.inside hoffset, File.contents, File.contents, hmd]

theorem Session.stepped_fail (hs : Session P E s t) (e : Error)
    (hhigh : s.encryptedPartPlain.size < 2 ^ 63) (op : Op) : Stepped P E s t op (s.fail e) :=
  hs.stepped_same (sameFile_fail s e) rfl rfl rfl hhigh op

theorem Session.stepped_stays {s' : File N} {t' : Tree} (hs : Session P E s t)
    (h : Stays s t s' t') (hs' : Session P E s' t') (hhigh : s.encryptedPartPlain.size < 2 ^ 63)
    (op : Op) : Stepped P E s t op s' :=
  .session t' hs' (by rw [absorb_of_offset hs.inside h.offset, h.contents]) h.identity (by rw [h.size]; exact hhigh)

theorem status_of_writeRefused {buffer : Buffer} {size count : Nat}
    (h : s.writeRefused buffer size count = none) : s.fileStatus = .ok := by
  by_contra hne
  simp only [writeRefused, ne_eq, hne, not_false_eq_true, if_true] at h
  split at h
  . cases h
  . split at h <;> cases h

theorem status_of_readRefused {outside : Bool} {size count : Nat}
    (h : s.readRefused outside size count = none) : s.fileStatus = .ok := by
  by_contra hne
  simp only [readRefused, ne_eq, hne, not_false_eq_true, if_true] at h
  split at h
  . cases h
  . split at h <;> cases h

theorem Session.write [LawfulPlatform P] (hP : P.GcmCorrect) (hs : Session P E s t)
    (hinv : CacheInv s) (hhigh : s.encryptedPartPlain.size < 2 ^ 63) {ptr : Option Buffer}
    {size count : Nat} (h : Admits P E s ⟨.write ptr size count, s.outside⟩)
    (hthrough : ∀ u ∈ s.lookups P (.write ptr size count), u.ReadsThrough)
    (hE : ∀ e ∈ (s.write P ptr size count).2.encryptLog, E e) :
    Stepped P E s t (.write ptr size count) (s.write P ptr size count).2 := by
  cases ptr with
  | none => exact hs.stepped_same ⟨rfl, rfl, rfl, rfl⟩ rfl rfl rfl hhigh _
  | some buffer =>
    by_cases hempty : size = 0 ∨ count = 0
    . rw [File.write, if_pos hempty]
      exact hs.stepped_same ⟨rfl, rfl, rfl, rfl⟩ rfl rfl rfl hhigh _
    cases hrefused : s.writeRefused buffer size count with
    | some e =>
      rw [File.write, if_neg hempty, hrefused]
      exact hs.stepped_fail e hhigh _
    | none =>
      have hok := status_of_writeRefused hrefused
      have hlive := hs.live_of_ok hok
      have hargs : WriteArgs P E s buffer size count :=
        ⟨by omega, hrefused, h.noOrphan hrefused, h.high, h.serves, hthrough⟩
      rcases (write_spec hP (Kept.trivial P E) hlive hinv hargs hE).1 with ⟨k, t', hk, -, hwrites, hends⟩ | hforged
      . have hstart := live_seekToStart (Kept.trivial P E) hlive
        have hoffset := hwrites.offset
        have hsize := hwrites.size
        have hend : s.writeStart + size * count < 2 ^ 63 := h.high
        rw [offset_seekToStart] at hoffset
        rw [offset_seekToStart, size_seekToStart] at hsize
        refine .session t' (hends.session hok (by omega)) ?_ ?_ (by omega)
        . rw [hwrites.contents hstart.inside, absorb, hoffset, Nat.add_sub_cancel_left, offset_seekToStart]
          congr 1
          unfold seekToStart
          split <;> rfl
        . rw [identity_of_opened hwrites.opened]
          unfold seekToStart
          split <;> rfl
      . exact .forged hforged

theorem Session.stepped_eof {s2 : File N} {t' : Tree} {k : Nat} {c : Prop} [Decidable c]
    (hs : Session P E s2 t') (hmoves : Moves s t k s2 t')
    (hhigh : s.encryptedPartPlain.size < 2 ^ 63) {ptr : Option Buffer} {size count : Nat} :
    Stepped P E s t (.read ptr size count) (s2.setEofIf c) := by
  have hsize : s2.encryptedPartPlain.size < 2 ^ 63 := hmoves.size ▸ hhigh
  rw [setEofIf]
  split
  . exact .session t' ((sameFile_setEof s2 true).session rfl hs.inside hs) hmoves.contents hmoves.identity hsize
  . exact .session t' hs hmoves.contents hmoves.identity hsize

theorem Session.read [LawfulPlatform P] (hP : P.GcmCorrect) (hs : Session P E s t)
    (hhigh : s.encryptedPartPlain.size < 2 ^ 63) {ptr : Option Buffer} {size count : Nat}
    (hserves : s.outside.Serves P E)
    (hthrough : ∀ u ∈ s.lookups P (.read ptr size count), u.ReadsThrough)
    (hE : ∀ e ∈ (s.read P ptr size count).2.encryptLog, E e) :
    Stepped P E s t (.read ptr size count) (s.read P ptr size count).2 := by
  cases ptr with
  | none => exact hs.stepped_same ⟨rfl, rfl, rfl, rfl⟩ rfl rfl rfl hhigh _
  | some buffer =>
    by_cases hempty : size = 0 ∨ count = 0
    . rw [File.read, if_pos hempty]
      exact hs.stepped_same ⟨rfl, rfl, rfl, rfl⟩ rfl rfl rfl hhigh _
    cases hrefused : s.readRefused buffer.outside size count with
    | some e =>
      rw [File.read, if_neg hempty, hrefused]
      exact hs.stepped_fail e hhigh _
    | none =>
      by_cases heof : s.endOfFile = true
      . rw [File.read, if_neg hempty, hrefused]
        dsimp only
        rw [if_pos heof]
        exact hs.stepped_same ⟨rfl, rfl, rfl, rfl⟩ rfl rfl rfl hhigh _
      by_cases hend : s.offset = s.encryptedPartPlain.size
      . rw [File.read, if_neg hempty, hrefused]
        dsimp only
        rw [if_neg heof, if_pos hend]
        exact hs.stepped_same (sameFile_setEof s true) rfl rfl rfl hhigh _
      have hok := status_of_readRefused hrefused
      have hargs : ReadArgs P E s buffer size count :=
        ⟨by omega, hrefused, ⟨by simpa using heof, hend⟩, hhigh, hserves, hthrough⟩
      rcases (read_spec hP (Kept.trivial P E) (hs.live_of_ok hok) hargs hE).1
        with ⟨k, s2, hk, heq, ⟨t', hmoves, hends⟩ | ⟨hne, hforged⟩⟩
      . have hin : s2.offset ≤ s2.encryptedPartPlain.size := by
          have := hs.inside
          rw [attempted] at hk
          rw [hmoves.offset, hmoves.size]
          omega
        rw [heq]
        exact (hends.session hok hin).stepped_eof hmoves hhigh
      . rw [heq, setEofIf, if_neg (fun h => hne h.1)]
        exact .forged hforged

structure Closes (P : Platform N) (E : Key × N → Prop) (s : File N) (t : Tree)
    (r : (Bool × Option Key) × File N) : Prop where
  status : r.2.fileStatus = .closed
  linked : Linked r.2 ∧ Ordered r.2
  identity : r.2.identity = s.identity
  stores : r.1.1 = true → Stores P E s.kdk s.encryptedPartPlain.cleanFilename (s.contents t)
    r.2.host.main

theorem Session.preClose (hs : Session P E s t) (hcalls : s.outside.CallsSucceed) (exportKey importing : Bool)
    (hE : ∀ e ∈ (s.preClose P exportKey importing).2.encryptLog, E e) :
    Closes P E s t (s.preClose P exportKey importing) := by
  rcases preClose_spec hs hcalls exportKey importing hE with ⟨t', hstays, hstatus, hlinked, hstores⟩
  exact ⟨hstatus, hlinked, hstays.identity, hstores⟩

theorem seekTarget_le {newOffset : Int} {origin : Origin} {offset : Nat}
    (h : s.seekTarget newOffset origin = some offset) :
    offset ≤ s.encryptedPartPlain.size := by
  cases origin <;> simp only [seekTarget] at h <;> split at h
  all_goals simp only [Option.some.injEq, reduceCtorEq] at h
  all_goals omega

theorem Session.seek (hs : Session P E s t) (hhigh : s.encryptedPartPlain.size < 2 ^ 63)
    (newOffset : Int) (origin : Origin) :
    Stepped P E s t (.seek newOffset origin) (s.seek newOffset origin).2 := by
  unfold File.seek
  split
  . exact hs.stepped_fail _ hhigh _
  split
  . next offset htarget =>
    have hin := seekTarget_le htarget
    refine .session t ?_ rfl rfl hhigh
    exact SameFile.session (s := s) ⟨rfl, rfl, rfl, rfl⟩ rfl hin hs
  . exact hs.stepped_fail _ hhigh _

theorem Session.flush (hs : Session P E s t) (hhigh : s.encryptedPartPlain.size < 2 ^ 63)
    (hcalls : s.outside.CallsSucceed) (hE : ∀ e ∈ (s.flush P).2.encryptLog, E e) :
    Stepped P E s t .flush (s.flush P).2 := by
  by_cases hok : s.fileStatus = .ok
  . rcases flush_spec (Kept.trivial P E) (hs.live_of_ok hok) hok hcalls hE
      with ⟨r, s', t', heq, ⟨hdata, hfixed, hends⟩, -⟩
    have hstays := Stays.of_fixed hdata hfixed
    rw [heq]
    refine hs.stepped_stays hstays (hends.session hok ?_) hhigh _
    rw [hstays.offset, hstays.size]
    exact hs.inside
  . rw [File.flush, if_pos hok]
    exact hs.stepped_fail _ hhigh _

theorem Session.step [LawfulPlatform P] (hP : P.GcmCorrect) (hs : Session P E s t)
    (hinv : CacheInv s) (hhigh : s.encryptedPartPlain.size < 2 ^ 63) {st : Step N}
    (h : Admits P E s st) (hopen : st.op.keepsOpen = true)
    (hE : ∀ e ∈ (s.step P st).encryptLog, E e) :
    Stepped P E (s.begin st.outside) t st.op (s.step P st) := by
  have hbegin := hs.begin st.outside
  have hinv' : CacheInv (s.begin st.outside) :=
    hinv.of_sameNodes ⟨rfl, rfl, fun _ => rfl⟩ le_rfl hinv.offset
  have hcalls : (s.begin st.outside).outside.CallsSucceed := h.serves.calls
  have hadmits : Admits P E (s.begin st.outside) ⟨st.op, (s.begin st.outside).outside⟩ :=
    ⟨h.serves, h.noOrphan, h.high, h.through⟩
  have hthrough := h.through
  unfold File.step at hE ⊢
  cases hop : st.op with
  | write ptr size count =>
    rw [hop] at hadmits hthrough hE
    exact hbegin.write hP hinv' hhigh hadmits hthrough hE
  | read ptr size count =>
    rw [hop] at hthrough hE
    exact hbegin.read hP hhigh h.serves hthrough hE
  | tell =>
    simp only [apply, tell]
    split
    . exact hbegin.stepped_fail _ hhigh _
    . exact hbegin.stepped_same ⟨rfl, rfl, rfl, rfl⟩ rfl rfl rfl hhigh _
  | seek newOffset origin => exact hbegin.seek hhigh newOffset origin
  | getEof => exact hbegin.stepped_same ⟨rfl, rfl, rfl, rfl⟩ rfl rfl rfl hhigh _
  | getError => exact hbegin.stepped_same ⟨rfl, rfl, rfl, rfl⟩ rfl rfl rfl hhigh _
  | clearError =>
    rw [hop] at hE
    rcases clearError_spec hbegin hcalls hE with ⟨t', hstays, hsession, -⟩
    exact hbegin.stepped_stays hstays hsession hhigh _
  | clearCache =>
    rw [hop] at hE
    rcases clearCache_spec hbegin hcalls (fun e he => hE e (log_clearCache he)) with ⟨t', hstays, hsession⟩
    exact hbegin.stepped_stays hstays hsession hhigh _
  | flush =>
    rw [hop] at hE
    exact hbegin.flush hhigh hcalls hE
  | preClose exportKey importing =>
    rw [hop] at hopen
    cases hopen

end Step

end File
end ProtectedFs
