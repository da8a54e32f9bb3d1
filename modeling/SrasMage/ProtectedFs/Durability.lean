import SrasMage.ProtectedFs.ReferenceLemmas

/-!
This module contains the proof that a file which was closed successfully holds the bytes that the writes of
its last session were allowed to put into it, whatever failed and was repaired in between.
-/

namespace ProtectedFs

open Reference List
open Bytes

variable {N : Type}

namespace File

def Yields (P : Platform N) (args : OpenArgs) (h : Host N) (bytes : List UInt8) : Prop :=
  ∀ outside : Outside N, outside.Undisturbed → (create P args h outside).fileStatus = .ok
    ∧ (create P args h outside).encryptedPartPlain.size = bytes.length
    ∧ ∀ (offset n : Nat) (o₁ o₂ : Outside N) (buffer : Buffer), offset ≤ bytes.length →
      n ≤ uint32Max → o₂.Undisturbed → buffer.outside = false →
      ((((create P args h outside).step P ⟨.seek offset .set, o₁⟩).begin o₂).read P (some buffer)
        1 n).1 = (min n (bytes.length - offset), (bytes.drop offset).take n)

section Yields

variable {P : Platform N} {s : File N} {t : Tree}

theorem Works.read_contents [LawfulPlatform P] (hP : P.GcmCorrect) (hs : Works P anyNode s t)
    (ho : s.outside.Undisturbed) (hmode : s.openMode.read = true ∨ s.openMode.update = true)
    (heof : s.endOfFile = false) {buffer : Buffer} (hinside : buffer.outside = false) {n : Nat}
    (hn : n ≤ uint32Max) :
    (s.read P (some buffer) 1 n).1
      = (min n (s.encryptedPartPlain.size - s.offset), ((s.contents t).drop s.offset).take n) := by
  have hin := hs.live.inside
  have hlength := length_contents s t
  have hrefused : s.readRefused buffer.outside 1 n = none := by
    rw [readRefused, if_neg (by simp only [uint32Max] at *; omega), if_neg (by simp [hinside]),
      if_neg (not_not.2 hs.status), if_neg]
    rintro ⟨hread, hupdate⟩
    rcases hmode with h | h
    . rw [hread] at h
      cases h
    rw [hupdate] at h
    cases h
  by_cases hzero : n = 0
  . subst hzero
    rw [File.read, if_pos (.inr rfl)]
    simp
  by_cases hend : s.offset = s.encryptedPartPlain.size
  . rw [File.read, if_neg (by omega), hrefused]
    dsimp only
    rw [if_neg (by simp [heof]), if_pos hend, drop_eq_nil_of_le (by omega), hend]
    simp
  rcases hs.read hP ho ⟨Nat.one_ne_zero, hzero⟩ hrefused ⟨heof, hend⟩ with ⟨s2, t', heq, -, -⟩
  rw [heq]
  simp only [attempted, Nat.one_mul, Nat.div_one, Prod.mk.injEq, true_and]
  rw [← take_take]
  congr 1
  apply take_of_length_le
  rw [length_drop]
  omega

theorem seek_set (hok : s.fileStatus = .ok) {offset : Nat} (hin : offset ≤ s.encryptedPartPlain.size) (o : Outside N) :
    s.step P ⟨.seek offset .set, o⟩ = ((s.begin o).setOffset offset).setEof false := by
  have htarget : (s.begin o).seekTarget offset .set = some offset := by
    have hsize : (s.begin o).encryptedPartPlain.size = s.encryptedPartPlain.size := rfl
    rw [seekTarget, if_pos (by omega)]
    rfl
  have hok' : ¬ (s.begin o).fileStatus ≠ .ok := not_not.2 hok
  simp only [step, apply, seek, if_neg hok', htarget]

theorem Works.read_back [LawfulPlatform P] (hP : P.GcmCorrect) (hs : Works P anyNode s t)
    (hmode : s.openMode.read = true ∨ s.openMode.update = true) {offset n : Nat}
    (hoffset : offset ≤ s.encryptedPartPlain.size) (hn : n ≤ uint32Max) (o₁ : Outside N)
    {o₂ : Outside N} (ho2 : o₂.Undisturbed) {buffer : Buffer} (hinside : buffer.outside = false) :
    (((s.step P ⟨.seek offset .set, o₁⟩).begin o₂).read P (some buffer) 1 n).1
      = (min n (s.encryptedPartPlain.size - offset), ((s.contents t).drop offset).take n) := by
  rw [seek_set hs.status hoffset]
  have hworks : Works P anyNode ((((s.begin o₁).setOffset offset).setEof false).begin o₂) t := by
    apply Works.begin
    exact hs.of_sameFile ⟨rfl, rfl, rfl, rfl⟩ rfl hoffset
  exact hworks.read_contents hP ho2 hmode rfl hinside hn

theorem Stores.yields [LawfulPlatform P] (hP : P.GcmCorrect) {args : OpenArgs} {h : Host N}
    {cleanFilename : List Char} {mode : OpenMode} {bytes : List UInt8}
    (hstores : Stores P anyNode args.kdkKey cleanFilename bytes h.main)
    (hhigh : bytes.length < 2 ^ 63) (himport : args.importKey = none)
    (hcheck : checkArgs args = none) (hparse : parseArgs args = .ok (cleanFilename, mode))
    (hwrite : mode.write = false) (hmode : mode.read = true ∨ mode.update = true) :
    Yields P args h bytes := by
  intro outside ho
  rcases create_existing hP himport hcheck hparse ho hwrite hstores hhigh with ⟨t, hstarts⟩
  generalize create P args h outside = s at hstarts ⊢
  have hsize : s.encryptedPartPlain.size = bytes.length := by rw [← hstarts.contents, length_contents]
  refine ⟨hstarts.works.status, hsize, ?_⟩
  intro offset n o₁ o₂ buffer hoffset hn ho2 hinside
  rw [hstarts.works.read_back hP (hstarts.openMode.symm ▸ hmode) (hsize.symm ▸ hoffset) hn o₁ ho2
    hinside, hstarts.contents, hsize]

end Yields

/--
A run whose steps keep to `Regular`, with any number of failures and repairs: no lookup loops for ever,
and if the file can be closed, it yields the bytes that its writes have moved the cursor over.
-/
theorem run_durable (P : Platform N) [LawfulPlatform P] (hP : P.GcmCorrect) (args : OpenArgs)
    (h : Host N) (outside : Outside N) (ts : List (Step N)) {stored : List UInt8}
    {cleanFilename : List Char} {mode : OpenMode} (himport : args.importKey = none)
    (hparse : parseArgs args = .ok (cleanFilename, mode))
    (hdisk : Disk P anyNode args.kdkKey h.main stored) (hcalls : outside.CallsSucceed)
    (hhonest : outside.Honest) (hmeets : RunMeets P (Regular P) (create P args h outside) ts) :
    ((create P args h outside).run P ts).diverged = false
    ∧ ∀ (o : Outside N) (exportKey importing : Bool), o.CallsSucceed →
      ((((create P args h outside).run P ts).begin o).preClose P exportKey importing).1.1 = true →
      ∀ (args' : OpenArgs) (mode' : OpenMode), args'.importKey = none →
        args'.kdkKey = args.kdkKey → checkArgs args' = none →
        parseArgs args' = .ok (cleanFilename, mode') → mode'.write = false →
        (mode'.read = true ∨ mode'.update = true) →
        Yields P args'
          ((((create P args h outside).run P ts).begin o).preClose P exportKey importing).2.host
          (accepted P (create P args h outside) ts (openContents mode stored)) := by
  have htracks := (Tracks.create hP himport hdisk hcalls hhonest hparse).run hP ts hmeets
  generalize (create P args h outside).run P ts = s at htracks ⊢
  cases htracks with
  | «open» t hsession _ hcontents hidentity hhigh =>
    refine ⟨congrArg (fun x => x.2.2.2) hidentity, ?_⟩
    intro o exportKey importing ho htrue args' mode' himport' hkdk hcheck hparse' hwrite hmode
    have hcloses := (hsession.begin o).preClose ho exportKey importing (fun _ _ => trivial)
    have hstores := hcloses.stores htrue
    have hkdk' : (s.begin o).kdk = args'.kdkKey :=
      (congrArg (fun x => x.2.1) hidentity).trans hkdk.symm
    have hname : (s.begin o).encryptedPartPlain.cleanFilename = cleanFilename :=
      congrArg (fun x => x.2.2.1) hidentity
    have hbytes : (s.begin o).contents t
        = accepted P (create P args h outside) ts (openContents mode stored) := hcontents
    rw [hkdk', hname, hbytes] at hstores
    refine Stores.yields hP hstores ?_ himport' hcheck hparse' hwrite hmode
    rw [← hcontents, length_contents]
    exact hhigh
  | ended hended _ hdiverged =>
    refine ⟨hdiverged, ?_⟩
    intro o exportKey importing _ htrue
    have hended' : Ended (s.begin o) := hended
    rw [(hended'.preClose exportKey importing).1] at htrue
    cases htrue

-- a flush fails and is repeated, a write stops at a node that cannot be read and is resumed
def resumed : List (Step Reference.Blob) :=
  [⟨.write (bytes 7) 1 11264, success⟩, ⟨.flush, failOcall 0⟩, ⟨.clearError, success⟩,
    ⟨.clearCache, success⟩, ⟨.seek 4000 .set, success⟩, ⟨.write (bytes 9) 1 5000, failOcall 1⟩,
    ⟨.clearError, success⟩, ⟨.write (bytes 9) 1 1832, success⟩]

theorem regular_resumed : RunMeets platform (Regular platform) newFile resumed := by
  have hc := callsSucceed_success
  have hh := honest_success
  have hextends : NoOrphan newFile := noOrphan_of_keys (by decide +kernel)
  refine ⟨⟨hc, hh, fun _ => .inr hextends, by decide +kernel, by decide +kernel⟩,
    ⟨callsSucceed_failOcall 0, honest_failOcall 0, trivial, by decide +kernel, by decide +kernel⟩,
    ⟨hc, hh, trivial, by decide +kernel, by decide +kernel⟩,
    ⟨hc, hh, trivial, by decide +kernel, by decide +kernel⟩,
    ⟨hc, hh, trivial, by decide +kernel, by decide +kernel⟩,
    ⟨callsSucceed_failOcall 1, honest_failOcall 1, fun _ => .inl (by decide +kernel),
      by decide +kernel, by decide +kernel⟩,
    ⟨hc, hh, trivial, by decide +kernel, by decide +kernel⟩,
    ⟨hc, hh, fun _ => .inl (by decide +kernel), by decide +kernel, by decide +kernel⟩, trivial⟩

theorem run_durable_resumed :
    (newFile.run platform resumed).diverged = false
      ∧ Yields platform (args ['r'])
        (((newFile.run platform resumed).begin success).preClose platform false false).2.host
        (accepted platform newFile resumed [])
      ∧ (newFile.run platform (resumed.take 2)).fileStatus ≠ .ok
      ∧ (newFile.run platform (resumed.take 6)).offset = 7168
      ∧ (newFile.run platform resumed).offset = 9000 := by
  have hparse : parseArgs (args ['w', '+']) = .ok (['f'], ⟨false, true, false, false, true⟩) := rfl
  have h := run_durable platform gcmCorrect (args ['w', '+']) ⟨none, none⟩ success resumed rfl hparse
    (.inl ⟨rfl, rfl⟩) callsSucceed_success honest_success regular_resumed
  rw [openContents, if_pos rfl, ← newFile] at h
  refine ⟨h.1, ?_, by decide +kernel, by decide +kernel, by decide +kernel⟩
  exact h.2 success false false callsSucceed_success (by decide +kernel)
    (args ['r']) ⟨true, false, false, false, false⟩ rfl rfl rfl rfl rfl (.inl rfl)

theorem accepted_concat (P : Platform N) (st : Step N) (ts : List (Step N)) :
    ∀ (s : File N) (bytes : List UInt8), accepted P s (ts ++ [st]) bytes
      = absorb (accepted P s ts bytes) (s.run P ts) ((s.run P ts).step P st) st.op := by
  induction ts with
  | nil =>
    intro s bytes
    rfl
  | cons st' ts ih =>
    intro s bytes
    exact ih _ _

theorem absorb_write {bytes : List UInt8} {s s' : File N} {w n : Nat} (hstart : s.writeStart = w)
    (hoffset : s'.offset = w + n) {buffer : Buffer} {size count : Nat} :
    absorb bytes s s' (.write (some buffer) size count) = overwrite bytes w (tabulate buffer.bytes n) := by
  rw [absorb, hstart, hoffset, Nat.add_sub_cancel_left]

theorem overwrite_drop {bytes ys : List UInt8} {offset : Nat} (h : offset ≤ bytes.length) :
    (overwrite bytes offset ys).drop offset = ys ++ bytes.drop (offset + ys.length) := by
  rw [overwrite, append_assoc, drop_left']
  rw [length_take, Nat.min_eq_left h]

def repeatedAppend : List (Step Reference.Blob) :=
  [⟨.seek 3072 .set, success⟩, ⟨.write (bytes 7) 1 1, success⟩, ⟨.seek 7168 .set, success⟩,
   ⟨.read (bytes 0) 1 (47 * 4096), success⟩,
   ⟨.write (bytes 8) 1 1, failOcall 0⟩,
   ⟨.clearError, success⟩,
   ⟨.write (bytes 8) 1 1, success⟩,
   ⟨.clearCache, success⟩,
   ⟨.seek 3072 .set, success⟩,
   ⟨.read (bytes 0) 1 (47 * 4096), success⟩,
   ⟨.seek 0 .end, success⟩]

def lastWrite : Step Reference.Blob := ⟨.write (bytes 9) 1 1, success⟩

def afterRepeatedAppend : File Reference.Blob :=
  (openImage ['r', '+'] (3072 + 48 * 4096)).run platform repeatedAppend

def closedRepeatedAppend : (Bool × Option Key) × File Reference.Blob :=
  ((afterRepeatedAppend.step platform lastWrite).begin success).preClose platform false false

theorem repeated_append_loses_update :
    closedRepeatedAppend.1.1 = true
      ∧ ∀ stored : List UInt8, ¬ Yields platform (args ['r'])
        closedRepeatedAppend.2.host
        (accepted platform (openImage ['r', '+'] (3072 + 48 * 4096))
          (repeatedAppend ++ [lastWrite]) stored) := by
  have hfacts : afterRepeatedAppend.writeStart = 199681
      ∧ (afterRepeatedAppend.step platform lastWrite).offset = 199682
      ∧ closedRepeatedAppend.1.1 = true
      ∧ (create platform (args ['r']) closedRepeatedAppend.2.host
        success).encryptedPartPlain.size = 199682
      ∧ ((((create platform (args ['r']) closedRepeatedAppend.2.host
        success).step platform ⟨.seek 199681 .set, success⟩).begin
          success).read platform (bytes 0) 1 1).1 = (1, [0]) := by
    decide +kernel
  rcases hfacts with ⟨hstart, hoffset, htrue, hsize, hread⟩
  refine ⟨htrue, ?_⟩
  intro stored hyields
  rcases hyields success undisturbed_success with ⟨-, hlength, hbytes⟩
  rw [hsize] at hlength
  have hback := hbytes 199681 1 success success ⟨fun _ => 0, false⟩ (by omega)
    (by decide) undisturbed_success rfl
  have hlast : accepted platform (openImage ['r', '+'] (3072 + 48 * 4096))
      (repeatedAppend ++ [lastWrite]) stored
        = overwrite (accepted platform (openImage ['r', '+'] (3072 + 48 * 4096))
          repeatedAppend stored) 199681 [9] := by
    rw [accepted_concat]
    exact absorb_write hstart (n := 1) hoffset
  rw [hlast] at hlength hback
  generalize accepted platform _ repeatedAppend stored = bytes at hlength hback
  have hin : 199681 ≤ bytes.length := by
    by_contra hlt
    simp only [overwrite, length_append, length_take, length_drop,
      length_singleton] at hlength
    omega
  rw [overwrite_drop hin] at hback
  have hnine := hread.symm.trans hback
  simp at hnine

end File
end ProtectedFs
