import SrasMage.ProtectedFs.Lemmas.Steps

/-!
This module contains what a run of operations does to the contents of a file, from the constructor on.
-/

namespace ProtectedFs

open Bytes

variable {N : Type}

namespace File

section Ended

def Ended (s : File N) : Prop :=
  s.fileStatus ≠ .ok ∧ s.fileStatus ≠ .flushError ∧ s.fileStatus ≠ .writeToDiskFailed

variable {P : Platform N} {s : File N}

theorem Ended.ne_ok (hs : Ended s) : s.fileStatus ≠ .ok := hs.1

theorem ended_of_eq {status : FileStatus} (h : s.fileStatus = status)
    (hstatus : status = .closed ∨ status = .notInitialized ∨ status = .corrupted) : Ended s := by
  rcases hstatus with rfl | rfl | rfl <;> simp [Ended, h]

theorem Ended.clearError (hs : Ended s) : s.clearError P = s := by
  rw [File.clearError]
  split
  . rfl
  . rfl
  . rfl
  . rfl
  . rfl
  . next h => exact absurd h hs.1
  . next h => exact absurd h hs.2.1
  . next h => exact absurd h hs.2.2

theorem Ended.settle (hs : Ended s) : s.settle P = s := by rw [File.settle, if_pos hs.ne_ok, hs.clearError]

theorem Ended.markImported (hs : Ended s) (importing : Bool) : Ended (s.markImported importing) := by
  unfold File.markImported
  split <;> exact hs

theorem frame_markImported (s : File N) (importing : Bool) : Frame s (s.markImported importing) := by
  unfold markImported
  split
  . exact frame_setNeedWritingFlag s true
  . exact Frame.refl s

theorem Ended.preClose (hs : Ended s) (exportKey importing : Bool) : (s.preClose P exportKey importing).1.1 = false
      ∧ Frame s (s.preClose P exportKey importing).2
      ∧ Ended (s.preClose P exportKey importing).2 := by
  have hs' := hs.markImported importing
  rw [preClose_eq]
  dsimp only
  rw [hs'.settle]
  refine ⟨by simp [hs'.ne_ok], ?_, ended_of_eq rfl (.inl rfl)⟩
  exact (frame_markImported s importing).trans (frame_finishClose _ exportKey)

theorem Ended.apply (hs : Ended s) (op : Op) : Frame s (s.apply P op) ∧ Ended (s.apply P op) := by
  have hsame : Frame s s ∧ Ended s := ⟨Frame.refl s, hs⟩
  have hfail : ∀ e, Frame s (s.fail e) ∧ Ended (s.fail e) := fun e => ⟨frame_fail s e, hs⟩
  cases op with
  | write ptr size count =>
    cases ptr with
    | none => exact hsame
    | some buffer =>
      simp only [File.apply, File.write]
      split
      . exact hsame
      split
      . exact hfail _
      . next h => exact absurd (status_of_writeRefused h) hs.ne_ok
  | read ptr size count =>
    cases ptr with
    | none => exact hsame
    | some buffer =>
      simp only [File.apply, File.read]
      split
      . exact hsame
      split
      . exact hfail _
      . next h => exact absurd (status_of_readRefused h) hs.ne_ok
  | tell =>
    rw [File.apply, File.tell, if_pos hs.ne_ok]
    exact hfail _
  | seek newOffset origin =>
    rw [File.apply, File.seek, if_pos hs.ne_ok]
    exact hfail _
  | getEof => exact hsame
  | getError => exact hsame
  | clearError =>
    rw [File.apply, hs.clearError]
    exact hsame
  | clearCache =>
    rw [File.apply, File.clearCache, hs.settle, if_pos hs.ne_ok]
    exact hsame
  | flush =>
    rw [File.apply, File.flush, if_pos hs.ne_ok]
    exact hfail _
  | preClose exportKey importing => exact (hs.preClose exportKey importing).2

end Ended

structure Regular (P : Platform N) (s : File N) (st : Step N) : Prop where
  calls : st.outside.CallsSucceed
  honest : st.outside.Honest
  noOrphan : ExtendsWithoutOrphan s st
  high : s.writeEnd st.op < 2 ^ 63
  through : ∀ u ∈ (s.begin st.outside).lookups P st.op, u.ReadsThrough

def anyNode (_ : Key × N) : Prop := True

inductive Tracks (P : Platform N) (s : File N) (bytes : List UInt8)
    (identity : OpenMode × Option Key × List Char × Bool) : Prop where
  | «open» (t : Tree) (session : Session P anyNode s t) (cacheInv : CacheInv s)
    (contents : s.contents t = bytes) (identity : s.identity = identity)
    (high : s.encryptedPartPlain.size < 2 ^ 63)
  | ended (ended : Ended s) (ordered : s.cache = Lru.Cache.empty ∨ Linked s ∧ Ordered s)
    (diverged : s.diverged = identity.2.2.2)

section Run

variable {P : Platform N} {s : File N} {bytes : List UInt8}
  {identity : OpenMode × Option Key × List Char × Bool}

theorem Regular.admits {st : Step N} (h : Regular P s st) : Admits P anyNode s st :=
  ⟨⟨h.calls, h.honest.unforged P _⟩, h.noOrphan, h.high, h.through⟩

theorem Frame.cache_ordered {s' : File N} (h : Frame s s') (hs : s.cache = Lru.Cache.empty ∨ Linked s ∧ Ordered s) :
    s'.cache = Lru.Cache.empty ∨ Linked s' ∧ Ordered s' := by
  rcases hs with hs | hs
  . exact .inl (h.cache.trans hs)
  . exact .inr (h.linked_ordered hs)

theorem Tracks.step [LawfulPlatform P] (hP : P.GcmCorrect) (hs : Tracks P s bytes identity)
    {st : Step N} (h : Regular P s st) :
    Tracks P (s.step P st) (absorb bytes s (s.step P st) st.op) identity := by
  cases hs with
  | «open» t hsession hinv hcontents hidentity hhigh =>
    by_cases hopen : st.op.keepsOpen = true
    . cases hsession.step hP hinv hhigh h.admits hopen (fun _ _ => trivial) with
      | session t' hsession' hcontents' hidentity' hhigh' =>
        refine .open t' hsession' (cacheInv_step P hinv h.noOrphan) ?_ (hidentity'.trans hidentity)
          hhigh'
        rw [hcontents', ← hcontents]
        rfl
      | forged hforged =>
        rcases hforged.2 with ⟨k, hserved, hbytes⟩
        exact absurd (h.honest k hserved) hbytes
    rcases hop : st.op with _ | _ | _ | _ | _ | _ | _ | _ | _ | ⟨exportKey, importing⟩
    all_goals try
      rw [hop] at hopen
      exact absurd rfl hopen
    have hcloses := (hsession.begin st.outside).preClose h.calls exportKey importing
      (fun _ _ => trivial)
    have heq : s.step P st = ((s.begin st.outside).preClose P exportKey importing).2 := by
      rw [File.step, hop]
      rfl
    rw [heq]
    refine .ended (ended_of_eq hcloses.status (.inl rfl)) (.inr hcloses.linked) ?_
    exact congrArg (fun x => x.2.2.2) (hcloses.identity.trans hidentity)
  | ended hended hordered hdiverged =>
    have hbegin : Ended (s.begin st.outside) := hended
    rcases hbegin.apply (P := P) st.op with ⟨hframe, hended'⟩
    refine .ended hended' (hframe.cache_ordered ?_) ?_
    . rcases hordered with hempty | ⟨hlinked, hord⟩
      . exact .inl hempty
      . exact .inr ⟨⟨hlinked.wf, hlinked.keys, hlinked.addr, hlinked.shape⟩, hord⟩
    . exact Eq.trans (congrArg Fixed.diverged hframe.fixed) hdiverged

def accepted (P : Platform N) : File N → List (Step N) → List UInt8 → List UInt8
  | _, [], bytes => bytes
  | s, st :: ts, bytes => accepted P (s.step P st) ts (absorb bytes s (s.step P st) st.op)

theorem Tracks.run [LawfulPlatform P] (hP : P.GcmCorrect) (ts : List (Step N)) :
    ∀ {s : File N} {bytes : List UInt8}, Tracks P s bytes identity →
      RunMeets P (Regular P) s ts → Tracks P (s.run P ts) (accepted P s ts bytes) identity := by
  induction ts with
  | nil =>
    intro s bytes hs _
    exact hs
  | cons st ts ih =>
    intro s bytes hs hmeets
    exact ih (hs.step hP hmeets.1) hmeets.2

end Run

section Create

variable {P : Platform N} {E : Key × N → Prop} {args : OpenArgs} {h : Host N} {outside : Outside N}

def Disk (P : Platform N) (E : Key × N → Prop) (kdk : Option Key) (main : Option (HostFile N))
    (stored : List UInt8) : Prop :=
  (main = none ∧ stored = []) ∨ ∃ f md t, main = some f ∧ Image P E kdk f md t
    ∧ md.size < 2 ^ 63 ∧ t.bytes md.data md.size = stored

def openContents (mode : OpenMode) (stored : List UInt8) : List UInt8 :=
  if mode.write then [] else stored

theorem Refused.tracks {s : File N} (hs : Refused s) {bytes : List UInt8}
    {identity : OpenMode × Option Key × List Char × Bool} (hidentity : identity.2.2.2 = false) :
    Tracks P s bytes identity :=
  .ended (ended_of_eq hs.status (.inr (.inl rfl))) (.inl hs.cache) (hs.diverged.trans hidentity.symm)

variable {cleanFilename : List Char} {mode : OpenMode}

theorem Opened.tracks {s : File N} {t : Tree} (hs : Opened P anyNode args cleanFilename mode s t)
    (hinv : CacheInv s) (hhigh : s.encryptedPartPlain.size < 2 ^ 63) :
    Tracks P s (s.contents t) (mode, args.kdkKey, cleanFilename, false) := by
  refine .open t (.live hs.status hs.live) hinv rfl ?_ hhigh
  rw [identity, hs.openMode, hs.kdk, hs.cleanFilename, hs.diverged]

theorem create_opened [LawfulPlatform P] (hP : P.GcmCorrect) (himport : args.importKey = none)
    {stored : List UInt8} (hdisk : Disk P E args.kdkKey h.main stored) (hcalls : outside.CallsSucceed)
    (hhonest : outside.Honest) (hparse : parseArgs args = .ok (cleanFilename, mode)) :
    Refused (create P args h outside) ∨ ∃ t, Opened P E args cleanFilename mode (create P args h outside) t
        ∧ (create P args h outside).contents t = openContents mode stored
        ∧ (create P args h outside).encryptedPartPlain.size < 2 ^ 63 := by
  rcases create_cases (P := P) hcalls args h with ⟨hrefused, -⟩
    | ⟨name, mode', s, -, hparse', hhull, hhost, heq⟩
  . exact .inl hrefused
  rw [hparse, Except.ok.injEq, Prod.mk.injEq] at hparse'
  rcases hparse' with ⟨rfl, rfl⟩
  rw [heq, himport]
  by_cases hnew : s.host.main = none ∨ mode.write = true
  . rcases createFile_new (E := E) hhull hnew cleanFilename with ⟨hrefused, -⟩ | ⟨s', heq', hopened, hsize, -⟩
    . exact .inl hrefused
    have hbytes : openContents mode stored = [] := by
      rw [openContents]
      split
      . rfl
      next hwrite =>
      rcases hdisk with ⟨-, hstored⟩ | ⟨f, md, t, hf, -⟩
      . exact hstored
      . rw [hhost, hf] at hnew
        simp [hwrite] at hnew
    rw [heq']
    refine .inr ⟨Tree.zero, hopened, ?_, by omega⟩
    rw [contents, hsize, hbytes]
    rfl
  . rw [not_or, Bool.not_eq_true] at hnew
    rcases hdisk with ⟨hnone, -⟩ | ⟨f, md, t, hf, himage, hhigh, hstored⟩
    . exact absurd (hhost ▸ hnone) hnew.1
    rcases createFile_existing hP hhull hcalls hhonest hnew.2 (hhost ▸ hf) himage cleanFilename
      with ⟨hrefused, -⟩ | ⟨s', heq', hopened, hmd, -⟩
    . exact .inl hrefused
    rw [heq']
    refine .inr ⟨t, hopened, ?_, hmd ▸ hhigh⟩
    rw [openContents, if_neg (by simp [hnew.2]), contents, hmd, hstored]

theorem Tracks.create [LawfulPlatform P] (hP : P.GcmCorrect) (himport : args.importKey = none)
    {stored : List UInt8} (hdisk : Disk P anyNode args.kdkKey h.main stored) (hcalls : outside.CallsSucceed)
    (hhonest : outside.Honest) (hparse : parseArgs args = .ok (cleanFilename, mode)) :
    Tracks P (create P args h outside) (openContents mode stored) (mode, args.kdkKey, cleanFilename, false) := by
  have hinv := cacheInv_create P args h outside
  rcases create_opened (E := anyNode) hP himport hdisk hcalls hhonest hparse
    with hrefused | ⟨t, hopened, hcontents, hhigh⟩
  . exact hrefused.tracks rfl
  . rw [← hcontents]
    exact hopened.tracks hinv hhigh

end Create

end File
end ProtectedFs
