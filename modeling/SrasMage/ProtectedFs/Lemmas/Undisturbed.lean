import SrasMage.ProtectedFs.Lemmas.Runs

/-!
This module contains the specification of the operations if nothing fails.
-/

namespace ProtectedFs

open Bytes Nat

variable {N : Type}

structure Outside.Undisturbed (o : Outside N) : Prop where
  succeeds : o.Succeeds
  honest : o.Honest

theorem Outside.Undisturbed.serves {o : Outside N} (h : o.Undisturbed) (P : Platform N)
    (E : Key × N → Prop) : o.Serves P E :=
  ⟨h.succeeds.calls, h.honest.unforged P E⟩

namespace File

structure Works (P : Platform N) (E : Key × N → Prop) (s : File N) (t : Tree) : Prop where
  status : s.fileStatus = .ok
  live : Live P E (fun _ => True) s t
  cacheInv : CacheInv s
  noOrphan : NoOrphan s
  high : s.encryptedPartPlain.size < 2 ^ 63

section

variable {P : Platform N} {E : Key × N → Prop} {s s' : File N} {t t' : Tree}

theorem Ends.complete {J : File N → Prop} {c : Prop} (h : Ends P E J s s' t' c) (ho : s.outside.OcallsSucceed) :
    c ∧ Live P E J s' t' ∧ s'.fileStatus = s.fileStatus := by
  cases h with
  | live hlive hstatus hcomplete => exact ⟨hcomplete ho, hlive, hstatus⟩
  | broken _ _ hfails => exact absurd ho hfails

theorem not_forged (h : s.outside.Honest) : ¬ Forged P s s' := by
  rintro ⟨-, k, hserved, hbytes⟩
  exact hbytes (h k hserved)

theorem readsThrough_of_lookup (h : s.outside.OcallsSucceed) {op : Op} {u : File N}
    (hu : u ∈ s.lookups P op) : u.ReadsThrough := by
  intro j _ _ _
  rw [outside_lookups P hu]
  exact h.error32 _ _

theorem NoOrphan.of_keys (h : NoOrphan s) (hkeys : ∀ key ∈ s'.cache.keys, key ∈ s.cache.keys)
    (hsize : s.encryptedPartPlain.size ≤ s'.encryptedPartPlain.size) : NoOrphan s' := by
  intro i hi
  exact lt_of_lt_of_le (h i (hkeys _ hi)) hsize

theorem noOrphan_writeNode (hs : CacheInv s) (horphan : NoOrphan s)
    (hoffset : mdUserDataSize ≤ s.offset) {n : Nat} (hn : 0 < n) (a : Addr) (data : Nat → UInt8) :
    NoOrphan (((s.getDataNode P).2.storeData a data n).markDirty a) := by
  have hmay : MayWrite s (n + (s.encryptedPartPlain.size + 1)) := Or.inr horphan
  have hkeep := keeps_getDataNode_of_mayWrite P hs hoffset _ (by omega) hmay
  rcases mayWrite_writeNode P hs hoffset hmay n hn (by omega) a data with hin | h
  . rw [offset_writeNode, size_writeNode, offset_eq_of_cursor hkeep.2, size_eq_of_cursor hkeep.2] at hin
    omega
  . exact h

theorem noOrphan_writeLoop (data : Nat → UInt8) (fuel : Nat) :
    ∀ {s : File N} {done left : Nat}, CacheInv s → NoOrphan s → mdUserDataSize ≤ s.offset →
      (s.writeLoop P fuel data done left).1 = 0 →
      NoOrphan (s.writeLoop P fuel data done left).2 := by
  induction fuel with
  | zero =>
    intro s done left _ horphan _ _
    exact horphan
  | succ fuel ih =>
    intro s done left hs horphan hoffset hzero
    rw [writeLoop] at hzero ⊢
    split
    . exact horphan
    next hleft =>
    rw [if_neg hleft] at hzero
    have hkeep := keeps_getDataNode_of_mayWrite P hs hoffset 1 (by omega) (.inr horphan)
    have hstep := fun n (hn : 0 < n) => noOrphan_writeNode (P := P) hs horphan hoffset hn
    generalize s.getDataNode P = res at hkeep hstep hzero ⊢
    rcases res with ⟨_ | a, s1⟩
    . exact absurd hzero hleft
    have hroom : (s1.offset - mdUserDataSize) % nodeSize < nodeSize := mod_lt _ (by decide)
    apply ih (cacheInv_writeNode (hs.of_keeps hkeep) _ _ _) (hstep _ (by omega) a _) _ hzero
    rw [offset_writeNode, offset_eq_of_cursor hkeep.2]
    omega

theorem noOrphan_write (hs : CacheInv s) (horphan : NoOrphan s) (data : Nat → UInt8) {left : Nat}
    (hzero : (s.writeBytes P data left).1 = 0) : NoOrphan (s.writeBytes P data left).2 := by
  have hmay : MayWrite s left := Or.inr horphan
  rcases cacheInv_writeMetaData hs hmay data with ⟨hinv, -, hlow⟩
  have horphan' : NoOrphan (s.writeMetaData data left).1 := by
    unfold writeMetaData
    split
    . exact horphan.of_keys (fun _ h => h) (le_max_left _ _)
    . exact horphan
  unfold writeBytes at hzero ⊢
  generalize s.writeMetaData data left = res at hinv hlow horphan' hzero ⊢
  rcases res with ⟨s1, n⟩
  dsimp only at hinv hlow horphan' hzero ⊢
  by_cases hleft : left - n = 0
  . rw [hleft]
    exact horphan'
  . exact noOrphan_writeLoop data _ hinv horphan' (hlow hleft) hzero

theorem length_contents (s : File N) (t : Tree) : (s.contents t).length = s.encryptedPartPlain.size :=
  length_tabulate _ _

theorem ahead_eq {k : Nat} (h : s.offset + k ≤ s.encryptedPartPlain.size) :
    s.ahead t k = ((s.contents t).drop s.offset).take k :=
  (take_drop_tabulate _ h).symm

theorem Works.writes [LawfulPlatform P] (hP : P.GcmCorrect) (hs : Works P E s t)
    (hserves : s.outside.Serves P E) (ho : s.outside.OcallsSucceed) {buffer : Buffer}
    {size count : Nat} (hnonempty : size ≠ 0 ∧ count ≠ 0)
    (haccepted : s.writeRefused buffer size count = none)
    (hhigh : s.writeStart + size * count < 2 ^ 63)
    (hE : ∀ e ∈ (s.write P (some buffer) size count).2.encryptLog, E e) :
    (∃ t', (s.write P (some buffer) size count).1 = count
      ∧ Writes s.seekToStart t buffer.bytes (size * count) (s.write P (some buffer) size count).2 t'
      ∧ Works P E (s.write P (some buffer) size count).2 t')
    ∨ Forged P s (s.write P (some buffer) size count).2 := by
  have hargs : WriteArgs P E s buffer size count :=
    ⟨hnonempty, haccepted, .inr hs.noOrphan, hhigh, hserves, fun u hu => readsThrough_of_lookup ho hu⟩
  rcases (write_spec hP (Kept.trivial P _) hs.live hs.cacheInv hargs hE).1
    with ⟨k, t', -, hcount, hwrites, hends⟩ | hforged
  . rcases hends.complete ho with ⟨rfl, hlive, hstatus⟩
    rw [Nat.mul_div_cancel_left _ (Nat.pos_of_ne_zero hnonempty.1)] at hcount
    have hinv := cacheInv_write P hs.cacheInv buffer size count (fun _ => .inr hs.noOrphan)
    have hsize := hwrites.size
    rw [offset_seekToStart, size_seekToStart] at hsize
    have hold := hs.high
    refine .inl ⟨t', hcount, hwrites, hstatus.trans hs.status, hlive, hinv, ?_, by omega⟩
    have hempty : ¬ (size = 0 ∨ count = 0) := by omega
    have horphan : NoOrphan s.seekToStart := by
      refine hs.noOrphan.of_keys ?_ (by rw [size_seekToStart])
      intro key hkey
      rw [(sameNodes_seekToStart s).cache] at hkey
      exact hkey
    unfold File.write at hcount ⊢
    simp only [if_neg hempty, haccepted] at hcount ⊢
    apply noOrphan_write (cacheInv_seekToStart hs.cacheInv) horphan
    have hpos : 0 < size * count := by
      rw [pos_iff_ne_zero]
      exact mul_ne_zero hnonempty.1 hnonempty.2
    have hle := (le_div_iff_mul_le (pos_of_ne_zero hnonempty.1)).1 hcount.ge
    rw [mul_comm] at hle
    omega
  . exact .inr hforged

theorem Works.write [LawfulPlatform P] (hP : P.GcmCorrect) (hs : Works P anyNode s t)
    (ho : s.outside.Undisturbed) {buffer : Buffer} {size count : Nat}
    (hnonempty : size ≠ 0 ∧ count ≠ 0) (haccepted : s.writeRefused buffer size count = none)
    (hhigh : s.writeStart + size * count < 2 ^ 63) :
    ∃ t', (s.write P (some buffer) size count).1 = count
      ∧ Writes s.seekToStart t buffer.bytes (size * count) (s.write P (some buffer) size count).2 t'
      ∧ Works P anyNode (s.write P (some buffer) size count).2 t' :=
  (hs.writes hP (ho.serves P _) ho.succeeds.ocalls hnonempty haccepted hhigh
    (fun _ _ => trivial)).resolve_right (not_forged ho.honest)

theorem NoOrphan.setOffset (h : NoOrphan s) (offset : Nat) : NoOrphan (s.setOffset offset) := h

theorem noOrphan_readLoop (fuel : Nat) : ∀ {s : File N} {out : List UInt8} {left : Nat}, CacheInv s → NoOrphan s →
      (left ≠ 0 → mdUserDataSize ≤ s.offset) → s.offset + left ≤ s.encryptedPartPlain.size →
      NoOrphan (s.readLoop P fuel out left).2 := by
  induction fuel with
  | zero =>
    intro s out left _ horphan _ _
    exact horphan
  | succ fuel ih =>
    intro s out left hs horphan hlow hin
    rw [readLoop]
    split
    . exact horphan
    next hleft =>
    have hkeep := keeps_getDataNode_of_in P hs (hlow hleft) (by omega)
    generalize s.getDataNode P = res at hkeep ⊢
    rcases res with ⟨_ | a, s1⟩
    . have h := (hkeep.2 horphan).1
      rw [← size_eq_of_cursor hkeep.1.2] at h
      exact h.noOrphan
    have h := (hkeep.2 horphan).1
    rw [← size_eq_of_cursor hkeep.1.2] at h
    have hoffset : s1.offset = s.offset := offset_eq_of_cursor hkeep.1.2
    have hsize : s1.encryptedPartPlain.size = s.encryptedPartPlain.size :=
      size_eq_of_cursor hkeep.1.2
    have hn := min_le_left left (nodeSize - (s1.offset - mdUserDataSize) % nodeSize)
    apply ih
    . apply cacheInv_setOffset (hs.of_keeps hkeep.1)
      dsimp only
      omega
    . exact h.noOrphan.setOffset _
    . intro _
      have := hlow hleft
      simp only [File.setOffset]
      omega
    . simp only [File.setOffset]
      omega

theorem noOrphan_readBytes (hs : CacheInv s) (horphan : NoOrphan s) (attempted : Nat)
    (hin : s.offset + attempted ≤ s.encryptedPartPlain.size) :
    NoOrphan (s.readBytes P attempted).2 := by
  have hmd := cacheInv_readMetaData hs hin
  have horphan' : NoOrphan (s.readMetaData attempted).1 := by
    unfold readMetaData
    split
    . exact horphan.setOffset _
    . exact horphan
  unfold readBytes
  generalize s.readMetaData attempted = res at hmd horphan'
  rcases res with ⟨s1, out⟩
  exact noOrphan_readLoop _ hmd.1 horphan' hmd.2.2 hmd.2.1

theorem noOrphan_read (hs : CacheInv s) (horphan : NoOrphan s) (buffer : Buffer) (size count : Nat) :
    NoOrphan (s.read P (some buffer) size count).2 := by
  have hin := hs.offset
  have hbytes := noOrphan_readBytes (P := P) hs horphan
    (min (size * count) (s.encryptedPartPlain.size - s.offset)) (by omega)
  unfold read
  split
  . exact horphan
  split
  . exact horphan
  split
  . exact horphan
  split
  . exact horphan
  split
  . exact horphan
  dsimp only
  generalize s.readBytes P _ = res at hbytes ⊢
  split <;> exact hbytes

theorem Works.reads [LawfulPlatform P] (hP : P.GcmCorrect) (hs : Works P E s t)
    (hserves : s.outside.Serves P E) (ho : s.outside.OcallsSucceed) {buffer : Buffer}
    {size count : Nat} (hnonempty : size ≠ 0 ∧ count ≠ 0)
    (haccepted : s.readRefused buffer.outside size count = none)
    (hbefore : s.endOfFile = false ∧ s.offset ≠ s.encryptedPartPlain.size)
    (hE : ∀ e ∈ (s.read P (some buffer) size count).2.encryptLog, E e) :
    (∃ s2 t', s.read P (some buffer) size count = ((s.attempted size count / size,
            ((s.contents t).drop s.offset).take (s.attempted size count)),
          s2.setEofIf (s.attempted size count ≠ size * count))
      ∧ Moves s t (s.attempted size count) s2 t' ∧ Works P E s2 t')
    ∨ ∃ k s2, k < s.attempted size count ∧ s.read P (some buffer) size count
        = ((k / size, ((s.contents t).drop s.offset).take k), s2)
      ∧ Forged P s s2 := by
  have hargs : ReadArgs P E s buffer size count :=
    ⟨hnonempty, haccepted, hbefore, hs.high, hserves, fun u hu => readsThrough_of_lookup ho hu⟩
  have hin : s.offset + s.attempted size count ≤ s.encryptedPartPlain.size := by
    have := hs.live.inside
    rw [attempted]
    omega
  rcases (read_spec hP (Kept.trivial P _) hs.live hargs hE).1
    with ⟨k, s2, hk, heq, ⟨t', hmoves, hends⟩ | ⟨hne, hforged⟩⟩
  . rcases hends.complete ho with ⟨rfl, hlive, hstatus⟩
    have hinv := cacheInv_read P hs.cacheInv (some buffer) size count
    have horphan := noOrphan_read (P := P) hs.cacheInv hs.noOrphan buffer size count
    rw [heq] at hinv horphan
    rw [ahead_eq hin] at heq
    simp only [true_and] at heq hinv horphan
    refine .inl ⟨s2, t', heq, hmoves, hstatus.trans hs.status, hlive, ?_, ?_, hmoves.size ▸ hs.high⟩
    . rw [setEofIf] at hinv
      split at hinv
      . exact hinv.of_sameNodes ⟨rfl, rfl, fun _ => rfl⟩ le_rfl hinv.offset
      . exact hinv
    . rw [setEofIf] at horphan
      split at horphan <;> exact horphan
  . rw [ahead_eq (by omega), setEofIf, if_neg (fun h => hne h.1)] at heq
    exact .inr ⟨k, s2, by omega, heq, hforged⟩

theorem Works.read [LawfulPlatform P] (hP : P.GcmCorrect) (hs : Works P anyNode s t)
    (ho : s.outside.Undisturbed) {buffer : Buffer} {size count : Nat}
    (hnonempty : size ≠ 0 ∧ count ≠ 0)
    (haccepted : s.readRefused buffer.outside size count = none)
    (hbefore : s.endOfFile = false ∧ s.offset ≠ s.encryptedPartPlain.size) :
    ∃ s2 t', s.read P (some buffer) size count
        = ((s.attempted size count / size, ((s.contents t).drop s.offset).take (s.attempted size count)),
          s2.setEofIf (s.attempted size count ≠ size * count))
      ∧ Moves s t (s.attempted size count) s2 t' ∧ Works P anyNode s2 t' := by
  rcases hs.reads hP (ho.serves P _) ho.succeeds.ocalls hnonempty haccepted hbefore
    (fun _ _ => trivial) with hread | ⟨k, s2, -, -, hforged⟩
  . exact hread
  . exact absurd hforged (not_forged ho.honest)

section

variable (hs : Works P E s t)
include hs

theorem Works.of_sameFile (h : SameFile s s')
    (hstatus : s'.fileStatus = s.fileStatus) (hin : s'.offset ≤ s'.encryptedPartPlain.size) :
    Works P E s' t := by
  have hmd : s'.encryptedPartPlain = s.encryptedPartPlain := congrArg (fun m => m.2.2.2.2.1) h.memory
  have hcache : s'.cache = s.cache := congrArg (fun m => m.1) h.memory
  have hheap : s'.heap = s.heap := congrArg (fun m => m.2.2.1) h.memory
  refine ⟨hstatus.trans hs.status, h.live (Kept.trivial P _) hs.live hin, ?_, ?_, hmd ▸ hs.high⟩
  . exact hs.cacheInv.of_sameNodes
      ⟨hcache, congrArg (fun m => m.2.1) h.memory, fun a => by rw [hheap]⟩ (by rw [hmd]) hin
  . exact hs.noOrphan.of_keys (fun _ hkey => hcache ▸ hkey) (by rw [hmd])

theorem Works.begin (outside : Outside N) : Works P E (s.begin outside) t :=
  hs.of_sameFile ⟨rfl, rfl, rfl, rfl⟩ rfl hs.live.inside

theorem Works.frame (hframe : Frame s s') (hstatus : s'.fileStatus = .ok)
    (hlive : Live P E (fun _ => True) s' t') : Works P E s' t' where
  status := hstatus
  live := hlive
  cacheInv := hs.cacheInv.frame hframe
  noOrphan := hs.noOrphan.of_keys (fun _ hkey => hframe.cache ▸ hkey) (le_of_eq hframe.size.symm)
  high := by
    rw [hframe.size]
    exact hs.high

theorem Works.internalFlush (ho : s.outside.Succeeds) (hE : ∀ e ∈ (s.internalFlush P true).2.encryptLog, E e) :
    ∃ s' t', s.internalFlush P true = (true, s') ∧ t'.data = t.data ∧ s'.fixed = s.fixed
      ∧ Works P E s' t' ∧ s'.needWriting = false := by
  have hframe := frame_internalFlush P s true
  rcases internalFlush_eq_true ho P true with ⟨s', heq, hsteady⟩
  rcases internalFlush_rests (Kept.trivial P E) hs.live ho.calls true hE with ⟨r, s2, t', heq2, ⟨hdata, hfixed, -⟩, hr⟩
  rw [heq, Prod.mk.injEq] at heq2
  rcases heq2 with ⟨rfl, rfl⟩
  rw [heq] at hframe
  exact ⟨s', t', heq, hdata, hfixed, hs.frame hframe (hr.1.trans hs.status) hr.2.2, hr.2.1⟩

theorem flush_eq {s' : File N} (h : s.internalFlush P true = (true, s')) : s.flush P = (true, s') := by
  rw [File.flush, if_neg (not_not.2 hs.status), h]

theorem Works.flush (ho : s.outside.Succeeds) (hE : ∀ e ∈ (s.flush P).2.encryptLog, E e) :
    ∃ s' t', s.flush P = (true, s') ∧ t'.data = t.data ∧ s'.fixed = s.fixed ∧ Works P E s' t' := by
  rcases internalFlush_eq_true ho P true with ⟨s1, heq1, -⟩
  rw [flush_eq hs heq1] at hE
  rcases hs.internalFlush ho (by rw [heq1]; exact hE) with ⟨s', t', heq, hdata, hfixed, hworks, -⟩
  exact ⟨s', t', flush_eq hs heq, hdata, hfixed, hworks⟩

theorem Works.settle (ho : s.outside.Succeeds) (hE : ∀ e ∈ (s.settle P).encryptLog, E e) :
    ∃ t', t'.data = t.data ∧ (s.settle P).fixed = s.fixed ∧ Works P E (s.settle P) t'
      ∧ (s.settle P).needWriting = false := by
  rw [File.settle, if_neg (not_not.2 hs.status)] at hE ⊢
  rcases hs.internalFlush ho hE with ⟨s', t', heq, hdata, hfixed, hworks, hneed⟩
  rw [heq]
  exact ⟨t', hdata, hfixed, hworks, hneed⟩

theorem Works.clearCache (ho : s.outside.Succeeds) (hE : ∀ e ∈ (s.clearCache P).2.encryptLog, E e) :
    ∃ s' t', s.clearCache P = (0, s') ∧ t'.data = t.data ∧ s'.fixed = s.fixed ∧ Works P E s' t' := by
  rcases hs.settle ho (fun e he => hE e (log_clearCache he)) with ⟨t', hdata, hfixed, hworks, hneed⟩
  have hinv := cacheInv_clearCache P hs.cacheInv
  rcases evictAll_spec (Kept.trivial P E) _ hworks.live hneed le_rfl with ⟨s', heq, hlive, hfixed', hstatus, hkeys⟩
  have hclear : s.clearCache P = (0, s') := by rw [File.clearCache, if_neg (not_not.2 hworks.status), heq]
  have hsize : s'.encryptedPartPlain.size = (s.settle P).encryptedPartPlain.size :=
    congrArg Fixed.size hfixed'
  rw [hclear] at hinv
  refine ⟨s', t', hclear, hdata, hfixed'.trans hfixed, hstatus.trans hworks.status, hlive, hinv, ?_, ?_⟩
  . exact hworks.noOrphan.of_keys (fun _ hkey => hkeys.subset hkey) (le_of_eq hsize.symm)
  rw [hsize]
  exact hworks.high

end

theorem Works.preClose (hs : Works P anyNode s t) (ho : s.outside.Succeeds) : (s.preClose P false false).1.1 = true
      ∧ Stores P anyNode s.kdk s.encryptedPartPlain.cleanFilename (s.contents t)
        (s.preClose P false false).2.host.main := by
  have hsession : Session P anyNode s t := .live hs.status hs.live
  rcases preClose_spec hsession ho.calls false false (fun _ _ => trivial) with ⟨-, -, -, -, hstores⟩
  have htrue : (s.preClose P false false).1.1 = true := by
    rcases hs.settle ho (fun _ _ => trivial) with ⟨t', -, hfixed, hworks, -⟩
    have ho' : (s.settle P).outside.OcallsSucceed := by
      have houtside : (s.settle P).outside = s.outside := congrArg Fixed.outside hfixed
      rw [houtside]
      exact ho.ocalls
    have hclose : (s.settle P).closeFile.1 = true := by
      unfold closeFile fclose
      rw [answer, ho'.error32]
      split <;> rfl
    rw [preClose_eq]
    simp only [File.markImported, Bool.false_and, Bool.false_eq_true, if_false, hworks.status,
      decide_true, Bool.not_false, Bool.true_and, finishClose, exportMetaDataKey, if_true,
      Bool.and_true]
    exact hclose
  exact ⟨htrue, hstores htrue⟩

structure Starts (P : Platform N) (args : OpenArgs) (cleanFilename : List Char) (mode : OpenMode)
    (bytes : List UInt8) (s : File N) (t : Tree) : Prop where
  works : Works P anyNode s t
  contents : s.contents t = bytes
  openMode : s.openMode = mode
  kdk : s.kdk = args.kdkKey
  cleanFilename : s.encryptedPartPlain.cleanFilename = cleanFilename
  endOfFile : s.endOfFile = false
  offset : s.offset = openOffset mode bytes.length

theorem Opened.starts {args : OpenArgs} {cleanFilename : List Char} {mode : OpenMode}
    (hs : Opened P anyNode args cleanFilename mode s t) (hunread : Unread s)
    (hhigh : s.encryptedPartPlain.size < 2 ^ 63)
    (hoffset : s.offset = openOffset mode s.encryptedPartPlain.size) :
    Starts P args cleanFilename mode (s.contents t) s t := by
  refine ⟨⟨hs.status, hs.live, hunread.cacheInv, ?_, hhigh⟩, rfl, hs.openMode, hs.kdk,
    hs.cleanFilename, hs.endOfFile, ?_⟩
  . intro i hi
    rw [hunread.cache] at hi
    cases hi
  . rw [length_contents]
    exact hoffset

section Create

variable {args : OpenArgs} {h : Host N} {outside : Outside N} {cleanFilename : List Char}
  {mode : OpenMode}

theorem create_existing [LawfulPlatform P] (hP : P.GcmCorrect) (himport : args.importKey = none)
    (hcheck : checkArgs args = none) (hparse : parseArgs args = .ok (cleanFilename, mode))
    (ho : outside.Undisturbed) (hwrite : mode.write = false) {bytes : List UInt8}
    (hstores : Stores P anyNode args.kdkKey cleanFilename bytes h.main)
    (hhigh : bytes.length < 2 ^ 63) :
    ∃ t, Starts P args cleanFilename mode bytes (create P args h outside) t := by
  have hunread := unread_create P args h outside
  rcases create_cases (P := P) ho.succeeds.calls args h with ⟨-, -, hwhy | ⟨e, hwhy⟩⟩
    | ⟨name, mode', s, -, hparse', hhull, hhost, heq⟩
  . exact absurd hcheck hwhy
  . rw [hparse] at hwhy
    cases hwhy
  rw [hparse, Except.ok.injEq, Prod.mk.injEq] at hparse'
  rcases hparse' with ⟨rfl, rfl⟩
  rcases hstores with ⟨f, md, t, hf, himage, hname, hbytes⟩
  rw [heq, himport] at hunread ⊢
  rcases createFile_existing hP hhull ho.succeeds.calls ho.honest hwrite (hhost ▸ hf) himage
    cleanFilename with ⟨-, hfails | hfails⟩ | ⟨s', heq', hopened, hmd, hoffset, -⟩
  . exact absurd ho.succeeds.ocalls hfails
  . exact absurd hname hfails
  have hcontents : s'.contents t = bytes := by rw [contents, hmd, hbytes]
  have hsize : md.size = bytes.length := by rw [← hcontents, length_contents, hmd]
  rw [heq'] at hunread ⊢
  refine ⟨t, hcontents ▸ hopened.starts hunread ?_ ?_⟩
  . rw [hmd, hsize]
    exact hhigh
  . rw [hoffset, hmd]

theorem create_new (P : Platform N) (himport : args.importKey = none)
    (hcheck : checkArgs args = none) (hparse : parseArgs args = .ok (cleanFilename, mode))
    (ho : outside.Undisturbed) (hnew : h.main = none ∨ mode.write = true)
    (hread : mode.read = false) :
    Starts P args cleanFilename mode [] (create P args h outside) Tree.zero := by
  have hunread := unread_create P args h outside
  rcases create_cases (P := P) ho.succeeds.calls args h with ⟨-, -, hwhy | ⟨e, hwhy⟩⟩
    | ⟨name, mode', s, -, hparse', hhull, hhost, heq⟩
  . exact absurd hcheck hwhy
  . rw [hparse] at hwhy
    cases hwhy
  rw [hparse, Except.ok.injEq, Prod.mk.injEq] at hparse'
  rcases hparse' with ⟨rfl, rfl⟩
  rw [heq, himport] at hunread ⊢
  rcases createFile_new (E := anyNode) hhull (hhost ▸ hnew) cleanFilename
    with ⟨-, hfails | hfails⟩ | ⟨s', heq', hopened, hsize, hoffset⟩
  . exact absurd ho.succeeds.ocalls hfails
  . rw [hread] at hfails
    cases hfails
  have hcontents : s'.contents Tree.zero = [] := by
    rw [contents, hsize]
    rfl
  have hzero : openOffset mode 0 = 0 := le_zero.1 (openOffset_le mode 0)
  rw [heq'] at hunread ⊢
  rw [← hcontents]
  apply hopened.starts hunread
  . rw [hsize]
    decide
  rw [hsize, hzero]
  exact hoffset

end Create

end

end File
end ProtectedFs
