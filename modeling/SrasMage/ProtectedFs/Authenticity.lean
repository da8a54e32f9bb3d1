import SrasMage.ProtectedFs.ReferenceLemmas

/-!
This module contains the proof that reads are authentic.
-/

namespace ProtectedFs

open Reference List
open Bytes

variable {N : Type}

structure Outside.Ideal (P : Platform N) (E : Key × N → Prop) (o : Outside N) : Prop where
  produced : ∀ k b, (o.ocall k).error32 eio = none → (o.ocall k).bytes = some b → ∀ key gmac plain,
    P.rijndael128GcmDecrypt key b gmac = some plain →
    ∃ e, E e ∧ e.1 = key ∧ P.rijndael128GcmEncrypt e.1 e.2 = (b, gmac)
  keys : ∀ e e', E e → E e' → e.1 = e'.1 → e = e'

theorem Outside.Ideal.unforged {P : Platform N} {E : Key × N → Prop} {o : Outside N}
    (h : o.Ideal P E) : o.Unforged P E := by
  intro k b hserved hb e he plain hdecrypt
  rcases h.produced k b hserved hb _ _ _ hdecrypt with ⟨e', he', hkey, hencrypt⟩
  rw [h.keys e' e he' he hkey] at hencrypt
  rw [hencrypt]

namespace File

section Log

variable (P : Platform N)

theorem grows_write (s : File N) (ptr : Option Buffer) (size count : Nat) : Grows s (s.write P ptr size count).2 := by
  cases ptr with
  | none => exact .refl s
  | some buffer =>
    rw [write]
    split
    . exact .refl s
    split
    . exact .of_eq rfl rfl
    have hstart : Grows s s.seekToStart := by
      unfold seekToStart
      split
      . exact .of_eq rfl rfl
      . exact .refl s
    have hmd : Grows s.seekToStart (s.seekToStart.writeMetaData buffer.bytes (size * count)).1 := by
      unfold writeMetaData
      split
      . exact .of_eq rfl rfl
      . exact .refl _
    exact (hstart.trans hmd).trans (grows_writeLoop P _ _ _ _ _)

theorem grows_read (s : File N) (ptr : Option Buffer) (size count : Nat) : Grows s (s.read P ptr size count).2 := by
  have hbytes : ∀ attempted, Grows s (s.readBytes P attempted).2 := by
    intro attempted
    have hmd : Grows s (s.readMetaData attempted).1 := by
      unfold readMetaData
      split
      . exact .of_eq rfl rfl
      . exact .refl s
    exact hmd.trans (grows_readLoop P _ _ _ _)
  unfold read
  split
  . exact .refl s
  split
  . exact .refl s
  split
  . exact .of_eq rfl rfl
  split
  . exact .refl s
  split
  . exact .of_eq rfl rfl
  have h := hbytes (min (size * count) (s.encryptedPartPlain.size - s.offset))
  dsimp only
  generalize s.readBytes P _ = res at h ⊢
  split
  . exact h.trans (.of_eq rfl rfl)
  . exact h

theorem grows_clearError (s : File N) : Grows s (s.clearError P) := by
  rcases clearError_eq P s with hframe | ⟨u, hframe, heq⟩
  . exact .of_frame hframe
  rw [heq]
  exact (Grows.of_frame hframe).trans (.of_eq rfl rfl)

theorem grows_settle (s : File N) : Grows s (s.settle P) := by
  unfold settle
  split
  . exact grows_clearError P s
  . exact .of_frame (frame_internalFlush P s true)

theorem log_apply (s : File N) (op : Op) : s.encryptLog ⊆ (s.apply P op).encryptLog := by
  cases op with
  | write ptr size count => exact (grows_write P s ptr size count).log
  | read ptr size count => exact (grows_read P s ptr size count).log
  | tell =>
    simp only [apply, tell]
    split <;> exact List.Subset.refl _
  | seek newOffset origin =>
    simp only [apply, seek]
    split
    . exact List.Subset.refl _
    . split <;> exact List.Subset.refl _
  | getEof => exact List.Subset.refl _
  | getError => exact List.Subset.refl _
  | clearError => exact (grows_clearError P s).log
  | clearCache =>
    intro e he
    exact log_clearCache ((grows_settle P s).log he)
  | flush => exact (frame_flush P s).log
  | preClose exportKey importing =>
    rw [apply, preClose_eq]
    have hmark := Grows.of_frame (frame_markImported s importing)
    exact ((hmark.trans (grows_settle P _)).trans (.of_frame (frame_finishClose _ exportKey))).log

theorem log_step (s : File N) (st : Step N) : s.encryptLog ⊆ (s.step P st).encryptLog :=
  log_apply P (s.begin st.outside) st.op

theorem log_run (ts : List (Step N)) : ∀ s : File N, s.encryptLog ⊆ (s.run P ts).encryptLog := by
  induction ts with
  | nil => exact fun s => List.Subset.refl _
  | cons st ts ih => exact fun s => List.Subset.trans (log_step P s st) (ih _)

end Log

inductive Authentic (P : Platform N) (E : Key × N → Prop) (s : File N) (bytes : List UInt8) : Prop where
  | works (t : Tree) (works : Works P E s t) (contents : s.contents t = bytes)
    (atEnd : s.endOfFile = true → s.offset = s.encryptedPartPlain.size)
  | ended (ended : Ended s)

section Session

variable {P : Platform N} {E : Key × N → Prop} {s : File N} {bytes : List UInt8}

theorem Forged.ended {s' : File N} (h : Forged P s s') (ho : s.outside.Succeeds) : Ended s' := by
  rcases h with ⟨⟨s1, fuel, hstatus, houtside, rfl⟩, -⟩
  have hsteady := steady_evict P fuel (s := s1) (houtside ▸ ho)
  exact ended_of_eq (hsteady.fileStatus.trans hstatus) (.inr (.inr rfl))

theorem getError_of_ne_ok (h : s.fileStatus ≠ .ok) : s.getError ≠ 0 := by
  rw [getError]
  split
  . next he => exact he
  . simp [sgxErrorFileBadStatus]

theorem getError_fail {e : Error} (he : e ≠ 0) : (s.fail e).getError ≠ 0 := by
  have hlast : (s.fail e).lastError ≠ 0 := he
  rw [getError, if_pos hlast]
  exact he

theorem readRefused_ne_zero {outside : Bool} {size count : Nat} {e : Error}
    (h : s.readRefused outside size count = some e) : e ≠ 0 := by
  unfold readRefused at h
  repeat' split at h
  all_goals first | (cases h; decide) | cases h

def ReadsBytes (bytes : List UInt8) (s : File N) (requested : Nat) (r : (Nat × List UInt8) × File N) : Prop :=
  r.1.2 = (bytes.drop s.offset).take r.1.2.length
    ∧ (r.1.2.length = min requested (bytes.length - s.offset) ∨ r.2.getError ≠ 0)

theorem readsBytes_nil {r : (Nat × List UInt8) × File N} {requested : Nat} (hout : r.1.2 = [])
    (h : requested = 0 ∨ bytes.length ≤ s.offset ∨ r.2.getError ≠ 0) :
    ReadsBytes bytes s requested r := by
  rw [ReadsBytes, hout]
  refine ⟨by simp, ?_⟩
  rcases h with h | h | h
  . left
    simp [h]
  . left
    rw [length_nil]
    omega
  . exact .inr h

theorem Works.eof {s2 : File N} {t t' : Tree} {size count : Nat} (hs2 : Works P E s2 t')
    (hmoves : Moves s t (s.attempted size count) s2 t') (hcontents : s.contents t = bytes)
    (heof : s.endOfFile = false) :
    Authentic P E (s2.setEofIf (s.attempted size count ≠ size * count)) bytes := by
  have hcontents2 : s2.contents t' = bytes := hmoves.contents.trans hcontents
  have hin := hs2.live.inside
  rw [setEofIf]
  split
  . next hless =>
    refine .works t' (hs2.of_sameFile (sameFile_setEof s2 true) rfl hin) hcontents2 ?_
    intro _
    have hend : s2.offset = s2.encryptedPartPlain.size := by
      rw [hmoves.offset, hmoves.size] at *
      rw [attempted] at *
      omega
    exact hend
  . refine .works t' hs2 hcontents2 ?_
    intro heof2
    have hsame : s2.endOfFile = s.endOfFile := congrArg Fixed.endOfFile hmoves.fixed
    rw [hsame, heof] at heof2
    cases heof2

theorem Authentic.read [LawfulPlatform P] (hP : P.GcmCorrect) (hs : Authentic P E s bytes)
    (ho : s.outside.Succeeds) (hforged : s.outside.Unforged P E) (buffer : Buffer) (size count : Nat)
    (hE : ∀ e ∈ (s.read P (some buffer) size count).2.encryptLog, E e) :
    ReadsBytes bytes s (size * count) (s.read P (some buffer) size count)
      ∧ Authentic P E (s.read P (some buffer) size count).2 bytes := by
  by_cases hempty : size = 0 ∨ count = 0
  . rw [File.read, if_pos hempty]
    refine ⟨readsBytes_nil rfl (.inl ?_), hs⟩
    rcases hempty with rfl | rfl <;> simp
  cases hrefused : s.readRefused buffer.outside size count with
  | some e =>
    rw [File.read, if_neg hempty, hrefused]
    refine ⟨readsBytes_nil rfl (.inr (.inr (getError_fail (readRefused_ne_zero hrefused)))), ?_⟩
    cases hs with
    | works t hworks hcontents hend =>
      exact .works t (hworks.of_sameFile (sameFile_fail s e) rfl hworks.live.inside) hcontents hend
    | ended hended => exact .ended hended
  | none =>
    cases hs with
    | ended hended => exact absurd (status_of_readRefused hrefused) hended.ne_ok
    | works t hworks hcontents hend =>
      have hlength : bytes.length = s.encryptedPartPlain.size := by rw [← hcontents, length_contents]
      by_cases hat : s.offset = s.encryptedPartPlain.size
      . rw [File.read, if_neg hempty, hrefused]
        dsimp only
        by_cases heof : s.endOfFile = true
        . rw [if_pos heof]
          exact ⟨readsBytes_nil rfl (.inr (.inl (by omega))), .works t hworks hcontents hend⟩
        rw [if_neg heof, if_pos hat]
        refine ⟨readsBytes_nil rfl (.inr (.inl (by omega))), .works t ?_ hcontents ?_⟩
        . exact hworks.of_sameFile (sameFile_setEof s true) rfl hworks.live.inside
        . exact fun _ => hat
      have heof : s.endOfFile = false := by
        rw [← Bool.not_eq_true]
        exact fun heof => hat (hend heof)
      rcases hworks.reads hP ⟨ho.calls, hforged⟩ ho.ocalls (by omega) hrefused ⟨heof, hat⟩ hE
        with ⟨s2, t', heq, hmoves, hworks2⟩ | ⟨k, s2, hk, heq, hforged'⟩
      . rw [heq]
        have hin := hworks.live.inside
        have hout : ((bytes.drop s.offset).take (s.attempted size count)).length = s.attempted size count := by
          rw [length_take, length_drop, attempted]
          omega
        rw [hcontents]
        refine ⟨⟨by rw [hout], .inl ?_⟩, ?_⟩
        . dsimp only
          rw [hout, attempted, hlength]
        . exact hworks2.eof hmoves hcontents heof
      . rw [heq, hcontents]
        refine ⟨⟨?_, .inr (getError_of_ne_ok (hforged'.ended ho).ne_ok)⟩, .ended (hforged'.ended ho)⟩
        dsimp only
        rw [length_take, take_eq_take_iff]
        omega

theorem Authentic.same {s' : File N} (hs : Authentic P E s bytes) (h : SameFile s s')
    (hstatus : s'.fileStatus = s.fileStatus) (hoffset : s'.offset = s.offset)
    (heof : s'.endOfFile = true → s.endOfFile = true) : Authentic P E s' bytes := by
  have hmd : s'.encryptedPartPlain = s.encryptedPartPlain := congrArg (fun m => m.2.2.2.2.1) h.memory
  cases hs with
  | works t hworks hcontents hend =>
    refine .works t (hworks.of_sameFile h hstatus ?_) ?_ ?_
    . rw [hoffset, hmd]
      exact hworks.live.inside
    . rw [← hcontents, contents, contents, hmd]
    intro heof'
    rw [hoffset, hmd]
    exact hend (heof heof')
  | ended hended =>
    rw [Ended, ← hstatus] at hended
    exact .ended hended

theorem Works.authentic {s' : File N} {t t' : Tree} (hs : Works P E s' t')
    (hcontents : s.contents t = bytes) (hdata : t'.data = t.data) (hfixed : s'.fixed = s.fixed)
    (hend : s.endOfFile = true → s.offset = s.encryptedPartPlain.size) : Authentic P E s' bytes := by
  have hstays := Stays.of_fixed hdata hfixed
  have heof : s'.endOfFile = s.endOfFile := congrArg Fixed.endOfFile hfixed
  refine .works t' hs (hstays.contents.trans hcontents) ?_
  rw [heof, hstays.offset, hstays.size]
  exact hend

theorem Authentic.write [LawfulPlatform P] (hP : P.GcmCorrect) (hs : Authentic P E s bytes)
    (ho : s.outside.Succeeds) (hforged : s.outside.Unforged P E) {ptr : Option Buffer}
    {size count : Nat} (hhigh : s.writeEnd (.write ptr size count) < 2 ^ 63)
    (hE : ∀ e ∈ (s.write P ptr size count).2.encryptLog, E e) :
    Authentic P E (s.write P ptr size count).2
      (absorb bytes s (s.write P ptr size count).2 (.write ptr size count)) := by
  cases hs with
  | ended hended => exact .ended (hended.apply (P := P) (.write ptr size count)).2
  | works t hworks hcontents hend =>
    have hin := hworks.live.inside
    cases ptr with
    | none => exact .works t hworks hcontents hend
    | some buffer =>
      by_cases hempty : size = 0 ∨ count = 0
      . rw [File.write, if_pos hempty, absorb_of_offset hin rfl]
        exact .works t hworks hcontents hend
      cases hrefused : s.writeRefused buffer size count with
      | some e =>
        rw [File.write, if_neg hempty, hrefused]
        dsimp only
        rw [absorb_of_offset hin (show (s.fail e).offset = s.offset from rfl)]
        exact .works t (hworks.of_sameFile (sameFile_fail s e) rfl hin) hcontents hend
      | none =>
        rcases hworks.writes hP ⟨ho.calls, hforged⟩ ho.ocalls (by omega) hrefused hhigh hE
          with ⟨t', -, hwrites, hworks'⟩ | hforged'
        . have hstart := live_seekToStart (Kept.trivial P E) hworks.live
          have hoffset := hwrites.offset
          have hsize := hwrites.size
          rw [offset_seekToStart] at hoffset
          rw [offset_seekToStart, size_seekToStart] at hsize
          have hfirst := writeStart_ge hin
          refine .works t' hworks' ?_ ?_
          . rw [hwrites.contents hstart.inside, absorb, hoffset, Nat.add_sub_cancel_left,
              offset_seekToStart, ← hcontents]
            congr 1
            unfold seekToStart
            split <;> rfl
          have heof : s.seekToStart.endOfFile = s.endOfFile := by
            unfold seekToStart
            split <;> rfl
          have heof' : (s.write P (some buffer) size count).2.endOfFile = s.endOfFile :=
            (congrArg Fixed.endOfFile hwrites.opened).trans heof
          rw [heof']
          intro h
          have hat := hend h
          omega
        . exact .ended (hforged'.ended ho)

theorem Authentic.step [LawfulPlatform P] (hP : P.GcmCorrect) (hs : Authentic P E s bytes)
    {st : Step N} (ho : st.outside.Succeeds) (hforged : st.outside.Unforged P E)
    (hhigh : s.writeEnd st.op < 2 ^ 63) (hE : ∀ e ∈ (s.step P st).encryptLog, E e) :
    Authentic P E (s.step P st) (absorb bytes s (s.step P st) st.op) := by
  have hbegin : Authentic P E (s.begin st.outside) bytes :=
    hs.same ⟨rfl, rfl, rfl, rfl⟩ rfl rfl id
  unfold File.step at hE ⊢
  cases hbegin with
  | ended hended => exact .ended (hended.apply (P := P) st.op).2
  | works t hworks hcontents hend =>
    have hbegin : Authentic P E (s.begin st.outside) bytes := .works t hworks hcontents hend
    cases hop : st.op with
    | write ptr size count =>
      rw [hop] at hhigh hE
      exact hbegin.write hP ho hforged hhigh hE
    | read ptr size count =>
      cases ptr with
      | none => exact hbegin
      | some buffer =>
        rw [hop] at hE
        exact (hbegin.read hP ho hforged buffer size count hE).2
    | tell =>
      simp only [apply, tell]
      split
      . exact hbegin.same (sameFile_fail _ _) rfl rfl id
      . exact hbegin
    | seek newOffset origin =>
      simp only [apply, seek]
      split
      . exact hbegin.same (sameFile_fail _ _) rfl rfl id
      split
      . next offset htarget =>
        have hin := seekTarget_le htarget
        refine .works t (hworks.of_sameFile ⟨rfl, rfl, rfl, rfl⟩ rfl hin) hcontents ?_
        intro h
        cases h
      . exact hbegin.same (sameFile_fail _ _) rfl rfl id
    | getEof => exact hbegin
    | getError => exact hbegin
    | clearError =>
      have heq : (s.begin st.outside).clearError P = ((s.begin st.outside).fail 0).setEof false := by
        rw [File.clearError, hworks.status]
        simp only [repair_of_ok hworks.status, hworks.status, if_true]
      rw [apply, heq]
      refine (hbegin.same (sameFile_fail _ 0) rfl rfl id).same (sameFile_setEof _ false) rfl rfl ?_
      intro h
      cases h
    | clearCache =>
      rw [hop] at hE
      rcases hworks.clearCache ho hE with ⟨s', t', heq, hdata, hfixed, hworks'⟩
      rw [apply, heq]
      exact hworks'.authentic hcontents hdata hfixed hend
    | flush =>
      rw [hop] at hE
      rcases hworks.flush ho hE with ⟨s', t', heq, hdata, hfixed, hworks'⟩
      rw [apply, heq]
      exact hworks'.authentic hcontents hdata hfixed hend
    | preClose exportKey importing => exact .ended (ended_of_eq rfl (.inl rfl))

structure Answered (P : Platform N) (E : Key × N → Prop) (s : File N) (st : Step N) : Prop where
  succeeds : st.outside.Succeeds
  ideal : st.outside.Ideal P E
  high : s.writeEnd st.op < 2 ^ 63

theorem Authentic.run [LawfulPlatform P] (hP : P.GcmCorrect) (ts : List (Step N)) :
    ∀ {s : File N} {bytes : List UInt8}, Authentic P E s bytes → RunMeets P (Answered P E) s ts →
      (∀ e ∈ (s.run P ts).encryptLog, E e) → Authentic P E (s.run P ts) (accepted P s ts bytes) := by
  induction ts with
  | nil =>
    intro s bytes hs _ _
    exact hs
  | cons st ts ih =>
    intro s bytes hs hmeets hE
    have hstep := hs.step hP hmeets.1.succeeds hmeets.1.ideal.unforged hmeets.1.high
      (fun e he => hE e (log_run P ts _ he))
    exact ih hstep hmeets.2 hE

end Session

section Create

variable {P : Platform N} {E : Key × N → Prop} {args : OpenArgs} {h : Host N} {outside : Outside N}

theorem Opened.authentic {cleanFilename : List Char} {mode : OpenMode} {s : File N} {t : Tree}
    (hs : Opened P E args cleanFilename mode s t) (hunread : Unread s)
    (hhigh : s.encryptedPartPlain.size < 2 ^ 63) : Authentic P E s (s.contents t) := by
  refine .works t ⟨hs.status, hs.live, hunread.cacheInv, ?_, hhigh⟩ rfl ?_
  . intro i hi
    rw [hunread.cache] at hi
    cases hi
  intro heof
  rw [hs.endOfFile] at heof
  cases heof

theorem Authentic.create [LawfulPlatform P] (hP : P.GcmCorrect) (himport : args.importKey = none)
    {stored : List UInt8} (hdisk : Disk P E args.kdkKey h.main stored)
    (hcalls : outside.CallsSucceed) (hhonest : outside.Honest) {cleanFilename : List Char}
    {mode : OpenMode} (hparse : parseArgs args = .ok (cleanFilename, mode)) :
    Authentic P E (create P args h outside) (openContents mode stored) := by
  have hunread := unread_create P args h outside
  rcases create_opened hP himport hdisk hcalls hhonest hparse with hrefused | ⟨t, hopened, hcontents, hhigh⟩
  . exact .ended (ended_of_eq hrefused.status (.inr (.inl rfl)))
  rw [← hcontents]
  exact hopened.authentic hunread hhigh

/--
Reads are authentic. The file was opened on an undisturbed host. After any run of operations with a
host that makes up the nodes it returns, the bytes that a read copies out are those of the contents
of the session behind the cursor, and it copies as many as were asked for and are left, or reports an
error.
-/
theorem read_authentic [LawfulPlatform P] (hP : P.GcmCorrect) (himport : args.importKey = none)
    {stored : List UInt8} (hdisk : Disk P E args.kdkKey h.main stored)
    (hcreate : outside.Undisturbed) {cleanFilename : List Char} {mode : OpenMode}
    (hparse : parseArgs args = .ok (cleanFilename, mode)) (ts : List (Step N))
    (hmeets : RunMeets P (Answered P E) (create P args h outside) ts) {last : Outside N}
    (hlast : last.Succeeds ∧ last.Ideal P E) (buffer : Buffer) (size count : Nat)
    (hE : ∀ e ∈ ((((create P args h outside).run P ts).begin last).read P (some buffer) size
      count).2.encryptLog, E e) :
    ReadsBytes (accepted P (create P args h outside) ts (openContents mode stored))
      ((create P args h outside).run P ts) (size * count)
      ((((create P args h outside).run P ts).begin last).read P (some buffer) size count) := by
  have hstart := Authentic.create (E := E) hP himport hdisk hcreate.succeeds.calls hcreate.honest
    hparse
  have hlog : ∀ e ∈ ((create P args h outside).run P ts).encryptLog, E e := by
    intro e he
    exact hE e ((grows_read P _ (some buffer) size count).log he)
  have hrun : Authentic P E (((create P args h outside).run P ts).begin last) _ :=
    (hstart.run hP ts hmeets hlog).same ⟨rfl, rfl, rfl, rfl⟩ rfl rfl id
  exact (hrun.read hP hlast.1 hlast.2.unforged buffer size count hE).1

end Create

def freshKeys (first : Nat) : Outside Reference.Blob :=
  { success with call := fun j => ⟨0, BitVec.ofNat 256 (first + j % 100)⟩ }

theorem succeeds_freshKeys {first : Nat} (hpos : 0 < first) (hlt : first < 1000) : (freshKeys first).Succeeds := by
  refine ⟨fun k => ⟨rfl, fun h => ?_⟩, fun _ => ⟨rfl, rfl⟩⟩
  have := congrArg BitVec.toNat h
  simp only [freshKeys, BitVec.toNat_ofNat, BitVec.ofNat_eq_ofNat, Nat.zero_mod] at this
  omega

-- two data nodes are flushed twice, under other keys each time
def rewritten : List (Step Reference.Blob) :=
  [⟨.write (bytes 7) 1 11264, freshKeys 100⟩, ⟨.flush, freshKeys 200⟩, ⟨.seek 3072 .set, freshKeys 300⟩,
    ⟨.write (bytes 9) 1 8192, freshKeys 400⟩, ⟨.flush, freshKeys 500⟩, ⟨.clearCache, freshKeys 600⟩,
    ⟨.seek 7162 .set, freshKeys 700⟩]

-- the second node that is read comes back as it was flushed first
def stale : Outside Reference.Blob :=
  { success with
    ocall := fun k => ⟨0, 0, if k = 1 then
        (newFile.run platform rewritten).encryptLog.head?.map fun e => .cipher e.1 e.2
      else none⟩ }

theorem ideal_stale (log : List (Key × Reference.Blob)) (hsubset : (newFile.run platform rewritten).encryptLog ⊆ log)
    (hkeys : (log.map Prod.fst).Nodup) : stale.Ideal platform (· ∈ log) := by
  refine ⟨?_, fun _ _ he he' => inj_on_of_nodup_map hkeys he he'⟩
  intro k b _ hb key gmac plain hdecrypt
  simp only [stale] at hb
  split at hb
  . rcases Option.map_eq_some_iff.mp hb with ⟨e, he, rfl⟩
    simp only [platform] at hdecrypt
    split at hdecrypt
    . next hkey =>
      exact ⟨e, hsubset (mem_of_mem_head? he), hkey.1.symm, by rw [hkey.2]; rfl⟩
    . cases hdecrypt
  . cases hb

def staleRead : (Nat × List UInt8) × File Reference.Blob :=
  ((newFile.run platform rewritten).begin stale).read platform (some ⟨fun _ => 0, false⟩) 1 20

def produced (e : Key × Reference.Blob) : Prop := e ∈ staleRead.2.encryptLog

theorem ideal_produced : stale.Ideal platform produced := by
  have hgrows (s : File Reference.Blob) (ptr : Option Buffer) :
      s.encryptLog ⊆ ((s.begin stale).read platform ptr 1 20).2.encryptLog :=
    (grows_read platform (s.begin stale) ptr 1 20).log
  refine ideal_stale staleRead.2.encryptLog ?_ (by decide +kernel)
  rw [staleRead]
  exact hgrows _ _

theorem answered_freshKeys {s : File Reference.Blob} {op : Op} {first : Nat} (hpos : 0 < first)
    (hlt : first < 1000) (hhigh : s.writeEnd op < 2 ^ 63) :
    Answered platform produced s ⟨op, freshKeys first⟩ := by
  refine ⟨succeeds_freshKeys hpos hlt, ⟨?_, ideal_produced.keys⟩, hhigh⟩
  intro k b _ hb
  cases hb

theorem answered_rewritten : RunMeets platform (Answered platform produced) newFile rewritten := by
  refine ⟨answered_freshKeys ?_ ?_ ?_, answered_freshKeys ?_ ?_ ?_, answered_freshKeys ?_ ?_ ?_,
    answered_freshKeys ?_ ?_ ?_, answered_freshKeys ?_ ?_ ?_, answered_freshKeys ?_ ?_ ?_,
    answered_freshKeys ?_ ?_ ?_, trivial⟩ <;> decide +kernel

theorem read_authentic_stale :
    ReadsBytes (accepted platform newFile rewritten []) (newFile.run platform rewritten) (1 * 20) staleRead
      ∧ staleRead.1 = (6, replicate 6 9) ∧ staleRead.2.fileStatus ≠ .ok := by
  refine ⟨?_, by decide +kernel, by decide +kernel⟩
  have hparse : parseArgs (args ['w', '+']) = .ok (['f'], ⟨false, true, false, false, true⟩) := rfl
  have hsucceeds : stale.Succeeds := ⟨callsSucceed_success, fun _ => ⟨rfl, rfl⟩⟩
  have h := read_authentic gcmCorrect rfl (.inl ⟨rfl, rfl⟩) undisturbed_success hparse rewritten
    answered_rewritten ⟨hsucceeds, ideal_produced⟩ ⟨fun _ => 0, false⟩ 1 20
  rw [openContents, if_pos rfl, ← newFile, ← staleRead] at h
  apply h
  intro e he
  exact he

end File
end ProtectedFs
