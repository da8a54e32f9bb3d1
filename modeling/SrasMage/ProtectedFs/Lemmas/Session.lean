import SrasMage.ProtectedFs.Lemmas.FlushSpec
import SrasMage.ProtectedFs.Lemmas.Transfer

/-!
This module contains the files on the disk that a successful flush leaves behind, and the specification of the public
operations on a file that can be used.
-/

namespace ProtectedFs

open Bytes

variable {N : Type}

structure Image (P : Platform N) (E : Key × N → Prop) (kdk : Option Key) (f : HostFile N)
    (md : MetaDataEncrypted) (t : Tree) : Prop where
  metaData : ∃ m, 0 < f.count ∧ f.nodes 0 = P.packMetaData m ∧ m.Header kdk
    ∧ P.SealsMetaData E kdk m md
  root : t.root = ⟨md.mhtKey, md.mhtGmac⟩
  node : ∀ i : NodeId, i.firstOffset < md.size → i.physical < f.count
    ∧ P.Seals E (t.crypto i) (f.nodes i.physical) (P.pack (t.plain i))
  tail : ∀ i : NodeId, md.size ≤ i.firstOffset → t.plain i = i.zero

def Stores (P : Platform N) (E : Key × N → Prop) (kdk : Option Key) (cleanFilename : List Char)
    (bytes : List UInt8) (main : Option (HostFile N)) : Prop :=
  ∃ f md t, main = some f ∧ Image P E kdk f md t ∧ md.cleanFilename = cleanFilename ∧ t.bytes md.data md.size = bytes

namespace File

variable {P : Platform N} {E : Key × N → Prop} {J : File N → Prop} {s : File N} {t : Tree}

theorem Flushed.image (hs : Flushed P E s t) :
    ∃ f, s.host.main = some f ∧ Image P E s.kdk f s.encryptedPartPlain t := by
  have hsaved := hs.ready.saved hs.needWriting
  have hclean := hs.ready.not_dirty hs.needWriting
  rcases hsaved.onDisk with ⟨f, hf, hcount, hzero⟩
  refine ⟨f, hf, ⟨_, hcount, hzero, hs.ready.header, hsaved.seals⟩, hs.ready.holds.root, ?_, ?_⟩
  . intro i hi
    rcases hs.ready.holds.disk i hi (hclean i) with ⟨f', hf', hphysical, hseals⟩
    rw [hf, Option.some.injEq] at hf'
    subst hf'
    exact ⟨hphysical, hseals⟩
  . intro i hi
    exact hs.ready.holds.tail i (Nat.not_lt.2 hi)

section Write

theorem live_seekToStart (hJ : Kept P E J) (hs : Live P E J s t) : Live P E J s.seekToStart t := by
  have hin : s.seekToStart.offset ≤ s.seekToStart.encryptedPartPlain.size := by
    rw [offset_seekToStart, size_seekToStart, writeStart]
    split
    . exact le_rfl
    . exact hs.inside
  unfold seekToStart at hin ⊢
  split
  . next happend =>
    rw [if_pos happend] at hin
    exact (sameFile_setOffset s _).live hJ hs hin
  . exact hs

theorem steady_seekToStart (s : File N) : Steady s s.seekToStart := by
  unfold seekToStart
  split <;> exact ⟨rfl, rfl⟩

theorem mayWrite_seekToStart {left : Nat} (h : s.writeStart + left ≤ s.encryptedPartPlain.size ∨ NoOrphan s) :
    MayWrite s.seekToStart left := by
  rw [MayWrite, offset_seekToStart, size_seekToStart]
  apply h.imp_right
  intro h i hi
  rw [size_seekToStart]
  rw [(sameNodes_seekToStart s).cache] at hi
  exact h i hi

structure WriteArgs (P : Platform N) (E : Key × N → Prop) (s : File N) (buffer : Buffer)
    (size count : Nat) : Prop where
  nonempty : size ≠ 0 ∧ count ≠ 0
  accepted : s.writeRefused buffer size count = none
  noOrphan : s.writeStart + size * count ≤ s.encryptedPartPlain.size ∨ NoOrphan s
  high : s.writeStart + size * count < 2 ^ 63
  serves : s.outside.Serves P E
  through : ∀ u ∈ s.lookups P (.write (some buffer) size count), u.ReadsThrough

theorem write_spec [LawfulPlatform P] (hP : P.GcmCorrect) (hJ : Kept P E J) (hs : Live P E J s t)
    (hinv : CacheInv s) {buffer : Buffer} {size count : Nat} (h : WriteArgs P E s buffer size count)
    (hE : ∀ e ∈ (s.write P (some buffer) size count).2.encryptLog, E e) :
    ((∃ k t', k ≤ size * count ∧ (s.write P (some buffer) size count).1 = k / size
        ∧ Writes s.seekToStart t buffer.bytes k (s.write P (some buffer) size count).2 t'
        ∧ Ends P E J s (s.write P (some buffer) size count).2 t' (k = size * count))
      ∨ Forged P s (s.write P (some buffer) size count).2)
    ∧ ∀ u ∈ s.lookups P (.write (some buffer) size count), ∃ left t', left ≠ 0 ∧ Writing P E J u t' left := by
  have hempty : ¬ (size = 0 ∨ count = 0) := by
    have := h.nonempty
    omega
  have hlookups : ¬ (size = 0 ∨ count = 0 ∨ (s.writeRefused buffer size count).isSome = true) := by
    have := h.nonempty
    simp [h.accepted, this]
  have hthrough := h.through
  rw [lookups, if_neg hlookups] at hthrough ⊢
  unfold write at hE ⊢
  simp only [if_neg hempty, h.accepted] at hE ⊢
  have hsteady := steady_seekToStart s
  rcases writeBytes_spec hP hJ (live_seekToStart hJ hs) (cacheInv_seekToStart hinv)
    (mayWrite_seekToStart h.noOrphan) (by rw [offset_seekToStart]; exact h.high)
    (hsteady.outside ▸ h.serves) buffer.bytes hthrough hE with ⟨hmain, htrace⟩
  refine ⟨?_, htrace⟩
  rcases hmain with ⟨k, t', hk, hrest, hwrites, hends⟩ | hforged
  . refine .inl ⟨k, t', hk, ?_, hwrites, hends.of_steady hsteady (fun h => h)⟩
    rw [hrest, Nat.sub_sub_self hk]
  . exact .inr (hforged.of_outside hsteady.outside)

end Write

section Read

structure ReadArgs (P : Platform N) (E : Key × N → Prop) (s : File N) (buffer : Buffer)
    (size count : Nat) : Prop where
  nonempty : size ≠ 0 ∧ count ≠ 0
  accepted : s.readRefused buffer.outside size count = none
  before : s.endOfFile = false ∧ s.offset ≠ s.encryptedPartPlain.size
  high : s.encryptedPartPlain.size < 2 ^ 63
  serves : s.outside.Serves P E
  through : ∀ u ∈ s.lookups P (.read (some buffer) size count), u.ReadsThrough

def attempted (s : File N) (size count : Nat) : Nat :=
  min (size * count) (s.encryptedPartPlain.size - s.offset)

def setEofIf (s : File N) (c : Prop) [Decidable c] : File N := if c then s.setEof true else s

theorem read_spec [LawfulPlatform P] (hP : P.GcmCorrect) (hJ : Kept P E J) (hs : Live P E J s t)
    {buffer : Buffer} {size count : Nat} (h : ReadArgs P E s buffer size count)
    (hE : ∀ e ∈ (s.read P (some buffer) size count).2.encryptLog, E e) :
    (∃ k s2, k ≤ s.attempted size count ∧ s.read P (some buffer) size count = ((k / size, s.ahead t k),
        s2.setEofIf (k = s.attempted size count ∧ s.attempted size count ≠ size * count))
      ∧ ((∃ t', Moves s t k s2 t' ∧ Ends P E J s s2 t' (k = s.attempted size count))
        ∨ (k ≠ s.attempted size count ∧ Forged P s s2)))
    ∧ ∀ u ∈ s.lookups P (.read (some buffer) size count), ∃ left t', left ≠ 0 ∧ Reading P E J u t' left := by
  have hempty : ¬ (size = 0 ∨ count = 0) := by
    have := h.nonempty
    omega
  have heof : ¬ s.endOfFile = true := by simp [h.before.1]
  have hlookups : ¬ (size = 0 ∨ count = 0 ∨ (s.readRefused buffer.outside size count).isSome = true
      ∨ s.endOfFile = true ∨ s.offset = s.encryptedPartPlain.size) := by
    have := h.nonempty
    simp [h.accepted, this, h.before]
  have hin : s.offset + s.attempted size count ≤ s.encryptedPartPlain.size := by
    have := hs.inside
    rw [attempted]
    omega
  have hthrough := h.through
  rw [lookups, if_neg hlookups] at hthrough ⊢
  unfold read at hE ⊢
  simp only [if_neg hempty, h.accepted, if_neg heof, if_neg h.before.2] at hE ⊢
  change ∀ u ∈ (s.readMetaData (s.attempted size count)).1.readLookups P _ _, _ at hthrough
  have hlog : ∀ e ∈ (s.readBytes P (s.attempted size count)).2.encryptLog, E e := by
    intro e he
    apply hE
    rw [attempted] at he
    generalize s.readBytes P (min (size * count) (s.encryptedPartPlain.size - s.offset)) = res
      at he ⊢
    split <;> exact he
  rcases readBytes_spec hP hJ hs hin h.high h.serves hthrough hlog with ⟨⟨k, hk, hres, hmain⟩, htrace⟩
  refine ⟨⟨k, (s.readBytes P (s.attempted size count)).2, hk, ?_, hmain⟩, htrace⟩
  rw [← attempted]
  generalize s.readBytes P (s.attempted size count) = res at hres ⊢
  rcases res with ⟨⟨out, left⟩, s2⟩
  simp only [Prod.mk.injEq] at hres
  rcases hres with ⟨rfl, rfl⟩
  have hleft : s.attempted size count - k = 0 ↔ k = s.attempted size count := by omega
  simp only [setEofIf, hleft, Nat.sub_sub_self hk]

end Read

section Flush

def Rests (P : Platform N) (E : Key × N → Prop) (J : File N → Prop) (s : File N) (t : Tree)
    (s' : File N) (t' : Tree) : Prop :=
  t'.data = t.data ∧ s'.fixed = s.fixed ∧ Ends P E J s s' t' True

theorem internalFlush_rests (hJ : Kept P E J) (hs : Live P E J s t)
    (hcalls : s.outside.CallsSucceed) (flushToDisk : Bool)
    (hE : ∀ e ∈ (s.internalFlush P flushToDisk).2.encryptLog, E e) :
    ∃ r s' t', s.internalFlush P flushToDisk = (r, s') ∧ Rests P E J s t s' t'
      ∧ (if r then s'.fileStatus = s.fileStatus ∧ s'.needWriting = false ∧ Live P E J s' t' else Broken P E s' t') := by
  have hframe := frame_internalFlush P s flushToDisk
  rcases hs.internalFlush hJ hcalls flushToDisk hE
    with ⟨s', t', heq, hdata, hlive, hneed, hstatus⟩ | ⟨s', t', heq, hdata, hbroken, hordered⟩
  . rw [heq] at hframe
    exact ⟨true, s', t', heq, ⟨hdata, hframe.fixed, .live hlive hstatus (fun _ => trivial)⟩, hstatus, hneed, hlive⟩
  have hfails : ¬ s.outside.OcallsSucceed := by
    intro hocalls
    rcases internalFlush_eq_true ⟨hcalls, hocalls⟩ P flushToDisk with ⟨s2, heq2, -⟩
    rw [heq] at heq2
    cases heq2
  rw [heq] at hframe
  exact ⟨false, s', t', heq, ⟨hdata, hframe.fixed, .broken hbroken hordered hfails⟩, hbroken⟩

theorem Broken.status_ne_ok (h : Broken P E s t) : s.fileStatus ≠ .ok := by
  rcases h with ⟨h, -⟩ | ⟨h, -⟩ <;> simp [h]

theorem flush_spec (hJ : Kept P E J) (hs : Live P E J s t) (hok : s.fileStatus = .ok)
    (hcalls : s.outside.CallsSucceed) (hE : ∀ e ∈ (s.flush P).2.encryptLog, E e) :
    ∃ r s' t', s.flush P = (r, s') ∧ Rests P E J s t s' t' ∧ (r = true ↔ s'.fileStatus = .ok) := by
  unfold flush at hE ⊢
  simp only [hok, ne_eq, not_true_eq_false, if_false] at hE ⊢
  have hlog : ∀ e ∈ (s.internalFlush P true).2.encryptLog, E e := by
    intro e he
    apply hE
    generalize s.internalFlush P true = res at he ⊢
    rcases res with ⟨_ | _, s₁⟩
    . dsimp only
      split <;> exact he
    . exact he
  rcases internalFlush_rests hJ hs hcalls true hlog with ⟨r, s', t', heq, hrests, hr⟩
  rw [heq]
  cases r with
  | true => exact ⟨true, s', t', rfl, hrests, by simp [hr.1, hok]⟩
  | false =>
    have hne : s'.fileStatus ≠ .ok := Broken.status_ne_ok hr
    refine ⟨false, s', t', ?_, hrests, by simp [hne]⟩
    dsimp only
    rw [if_neg hne]

theorem evictAll_spec (hJ : Kept P E J) (fuel : Nat) :
    ∀ {s : File N}, Live P E J s t → s.needWriting = false → s.cache.size ≤ fuel →
      ∃ s', s.evictAll fuel = (0, s') ∧ Live P E J s' t ∧ s'.fixed = s.fixed
        ∧ s'.fileStatus = s.fileStatus ∧ s'.cache.keys <+: s.cache.keys := by
  induction fuel with
  | zero =>
    intro s hs _ hsize
    exact ⟨s, by rw [evictAll, if_pos (by omega)], hs, rfl, rfl, List.prefix_rfl⟩
  | succ fuel ih =>
    intro s hs hneed hsize
    rw [evictAll]
    split
    . exact ⟨s, rfl, hs, rfl, rfl, List.prefix_rfl⟩
    next hne =>
    rw [Lru.Cache.size_eq_length_keys] at hne
    rcases List.eq_nil_or_concat s.cache.keys with hnil | ⟨ks, key, hks⟩
    . simp [hnil] at hne
    rw [List.concat_eq_append] at hks
    have hlinked := hs.ready.holds.linked
    rcases hlinked.wf.getLast hks with ⟨a, hlast, hkey⟩
    rcases hlinked.keys key (by simp [hks]) with ⟨i, -, rfl⟩
    have hclean : (s.heap a).needWriting = false := by
      rw [← Bool.not_eq_true]
      intro hdirty
      exact hs.ready.not_dirty hneed i ((dirty_of_loc (hlinked.loc_of_cached hkey)).2 hdirty)
    rcases hs.evictLast hJ hlast hclean with ⟨hlive, hshrinks, -, hsize'⟩
    rcases ih hlive hneed (by omega) with ⟨s', heq, hs', hfixed, hstatus, hkeys⟩
    refine ⟨s', ?_, hs', hfixed.trans hshrinks.fixed, hstatus, hkeys.trans hshrinks.keys⟩
    rw [hlast]
    simp only [hclean, Bool.false_eq_true, if_false]
    exact heq

end Flush

section Repair

inductive Session (P : Platform N) (E : Key × N → Prop) (s : File N) (t : Tree) : Prop where
  | live (status : s.fileStatus = .ok) (live : Live P E (fun _ => True) s t)
  | broken (broken : Broken P E s t) (ordered : Ordered s)
    (inside : s.offset ≤ s.encryptedPartPlain.size)

theorem Ends.session {s' : File N} {t' : Tree} {c : Prop} (h : Ends P E (fun _ => True) s s' t' c)
    (hok : s.fileStatus = .ok) (hin : s'.offset ≤ s'.encryptedPartPlain.size) :
    Session P E s' t' := by
  cases h with
  | live hlive hstatus _ => exact .live (hstatus.trans hok) hlive
  | broken hbroken hordered _ => exact .broken hbroken hordered hin

structure Stays (s : File N) (t : Tree) (s' : File N) (t' : Tree) : Prop where
  data : t'.data = t.data
  fixed : { s'.fixed with endOfFile := false } = { s.fixed with endOfFile := false }

namespace Stays

variable {s s₁ s' : File N} {t t₁ t' : Tree}

theorem of_fixed (hdata : t'.data = t.data) (hfixed : s'.fixed = s.fixed) : Stays s t s' t' :=
  ⟨hdata, congrArg (fun f : Fixed N => { f with endOfFile := false }) hfixed⟩

theorem refl (s : File N) (t : Tree) : Stays s t s t := ⟨rfl, rfl⟩

theorem trans (h : Stays s t s₁ t₁) (h' : Stays s₁ t₁ s' t') : Stays s t s' t' :=
  ⟨h'.data.trans h.data, h'.fixed.trans h.fixed⟩

theorem congr {α : Type} (h : Stays s t s' t') {f : Fixed N → α}
    (hf : ∀ x : Fixed N, f { x with endOfFile := false } = f x) : f s'.fixed = f s.fixed := by rw [← hf, h.fixed, hf]

section

variable (h : Stays s t s' t')
include h

theorem offset : s'.offset = s.offset :=
  h.congr (f := Fixed.offset) (fun _ => rfl)

theorem size : s'.encryptedPartPlain.size = s.encryptedPartPlain.size :=
  h.congr (f := Fixed.size) (fun _ => rfl)

theorem outside : s'.outside = s.outside :=
  h.congr (f := Fixed.outside) (fun _ => rfl)

theorem cleanFilename : s'.encryptedPartPlain.cleanFilename = s.encryptedPartPlain.cleanFilename :=
  h.congr (f := Fixed.cleanFilename) (fun _ => rfl)

theorem kdk : s'.kdk = s.kdk :=
  h.congr (f := fun x => if x.useUserKdkKey then some x.userKdkKey else none) (fun _ => rfl)

theorem byte : s'.byte t' = s.byte t := by
  have hhead : s'.encryptedPartPlain.data = s.encryptedPartPlain.data :=
    h.congr (f := Fixed.data) (fun _ => rfl)
  funext o
  simp only [File.byte, Tree.byte, hhead, h.data]

theorem contents : s'.contents t' = s.contents t := by
  rw [File.contents, Tree.bytes, h.size]
  exact congrArg (fun f => tabulate f _) h.byte

end

end Stays

theorem Flushed.live (hs : Flushed P E s t) (hordered : Ordered s) (hin : s.offset ≤ s.encryptedPartPlain.size) :
    Live P E (fun _ => True) (s.setStatus .ok) t :=
  ⟨hs.ready.setStatus .ok, hordered, hin, trivial⟩

theorem repairWrite_spec (hs : Stuck P E s t) (hstatus : s.fileStatus = .writeToDiskFailed)
    (hordered : Ordered s) (hin : s.offset ≤ s.encryptedPartPlain.size) :
    Stays s t (s.repairWrite P) t ∧ ((Session P E (s.repairWrite P) t ∧ (s.repairWrite P).fileStatus ≠ .ok)
        ∨ (Live P E (fun _ => True) (s.repairWrite P) t ∧ (s.repairWrite P).fileStatus = .ok
          ∧ (s.repairWrite P).needWriting = false)) := by
  have hframe := frame_writeAllChangesToDisk P s true
  rw [repairWrite, if_pos hstatus]
  rcases hs.writeAllChangesToDisk true with ⟨r, s', heq, hstatus', -, hres⟩
  rw [heq] at hframe ⊢
  have hordered' : Ordered s' := by
    rw [Ordered, hframe.cache]
    exact hordered
  have hin' : s'.offset ≤ s'.encryptedPartPlain.size := by
    rw [hframe.offset, hframe.size]
    exact hin
  cases r with
  | true =>
    refine ⟨Stays.of_fixed rfl hframe.fixed, .inr ⟨?_, rfl, rfl⟩⟩
    exact Flushed.live hres hordered' hin'
  | false =>
    refine ⟨Stays.of_fixed rfl hframe.fixed, .inl ⟨?_, ?_⟩⟩
    . exact .broken (.writeToDiskFailed (hstatus'.trans hstatus) hres) hordered' hin'
    dsimp only
    rw [hstatus', hstatus]
    simp

theorem repairWrite_of_ne (h : s.fileStatus ≠ .writeToDiskFailed) : s.repairWrite P = s := by rw [repairWrite, if_neg h]

theorem repair_spec (hb : Broken P E s t) (hordered : Ordered s)
    (hin : s.offset ≤ s.encryptedPartPlain.size) (hcalls : s.outside.CallsSucceed)
    (hE : ∀ e ∈ (s.repair P).encryptLog, E e) :
    ∃ t', Stays s t (s.repair P) t'
      ∧ ((Session P E (s.repair P) t' ∧ (s.repair P).fileStatus ≠ .ok)
        ∨ (Live P E (fun _ => True) (s.repair P) t' ∧ (s.repair P).fileStatus = .ok
          ∧ (s.repair P).needWriting = false)) := by
  rcases hb with ⟨hstatus, hready⟩ | ⟨hstatus, hstuck⟩
  . have hframe := frame_internalFlush P s true
    rw [repair, repairFlush, if_pos hstatus] at hE ⊢
    have hlog : ∀ e ∈ (s.internalFlush P true).2.encryptLog, E e := by
      intro e he
      apply hE
      generalize s.internalFlush P true = res at he ⊢
      rcases res with ⟨_ | _, s₁⟩
      . exact (frame_repairWrite P s₁).log he
      . exact (frame_repairWrite P (s₁.setStatus .ok)).log he
    rcases internalFlush_spec hready hcalls true hlog
      with ⟨s₁, t₁, heq, hdata, hflushed, -⟩ | ⟨s₁, t₁, heq, hdata, hbroken⟩
    all_goals
      rw [heq] at hframe ⊢
      have hordered1 : Ordered s₁ := by
        rw [Ordered, hframe.cache]
        exact hordered
      have hin1 : s₁.offset ≤ s₁.encryptedPartPlain.size := by
        rw [hframe.offset, hframe.size]
        exact hin
      dsimp only
    . rw [repairWrite_of_ne (by simp)]
      refine ⟨t₁, Stays.of_fixed hdata hframe.fixed, .inr ⟨?_, rfl, hflushed.needWriting⟩⟩
      exact hflushed.live hordered1 hin1
    . rcases hbroken with ⟨hstatus1, hready1⟩ | ⟨hstatus1, hstuck1⟩
      . rw [repairWrite_of_ne (by simp [hstatus1])]
        refine ⟨t₁, Stays.of_fixed hdata hframe.fixed, .inl ⟨?_, by simp [hstatus1]⟩⟩
        exact .broken (.flushError hstatus1 hready1) hordered1 hin1
      . rcases repairWrite_spec hstuck1 hstatus1 hordered1 hin1 with ⟨hstays, hres⟩
        exact ⟨t₁, (Stays.of_fixed hdata hframe.fixed).trans hstays, hres⟩
  . rw [repair, repairFlush, if_neg (by simp [hstatus])]
    exact ⟨t, repairWrite_spec hstuck hstatus hordered hin⟩

theorem Session.inside (hs : Session P E s t) : s.offset ≤ s.encryptedPartPlain.size := by
  cases hs with
  | live _ hlive => exact hlive.inside
  | broken _ _ hin => exact hin

theorem Session.broken_of_ne (hs : Session P E s t) (hne : s.fileStatus ≠ .ok) : Broken P E s t ∧ Ordered s := by
  cases hs with
  | live hok _ => exact absurd hok hne
  | broken hbroken hordered _ => exact ⟨hbroken, hordered⟩

theorem Session.live_of_ok (hs : Session P E s t) (hok : s.fileStatus = .ok) : Live P E (fun _ => True) s t := by
  cases hs with
  | live _ hlive => exact hlive
  | broken hbroken _ _ => exact absurd hok hbroken.status_ne_ok

theorem repair_of_ok (hok : s.fileStatus = .ok) : s.repair P = s := by
  rw [repair, repairFlush, if_neg (by simp [hok]), repairWrite_of_ne (by simp [hok])]

theorem live_clearError {u : File N} {t' : Tree} (h : Live P E (fun _ => True) u t') :
    Live P E (fun _ => True) ((u.fail 0).setEof false) t' :=
  (sameFile_setEof _ false).live (Kept.trivial P E) ((sameFile_fail u 0).live (Kept.trivial P E) h h.inside) h.inside

theorem stays_clearError (u : File N) (t : Tree) : Stays u t ((u.fail 0).setEof false) t := ⟨rfl, rfl⟩

theorem clearError_broken (hb : Broken P E s t) : s.clearError P
    = if (s.repair P).fileStatus = .ok then ((s.repair P).fail 0).setEof false else s.repair P := by
  rcases hb with ⟨h, -⟩ | ⟨h, -⟩ <;> rw [clearError, h]

theorem clearError_spec (hs : Session P E s t) (hcalls : s.outside.CallsSucceed)
    (hE : ∀ e ∈ (s.clearError P).encryptLog, E e) :
    ∃ t', Stays s t (s.clearError P) t' ∧ Session P E (s.clearError P) t'
      ∧ (s.fileStatus ≠ .ok → (s.clearError P).fileStatus = .ok → (s.clearError P).needWriting = false) := by
  by_cases hok : s.fileStatus = .ok
  . have heq : s.clearError P = (s.fail 0).setEof false := by
      rw [clearError, hok]
      simp only [repair_of_ok hok, hok, if_true]
    rw [heq]
    exact ⟨t, stays_clearError s t, .live hok (live_clearError (hs.live_of_ok hok)), fun h => absurd hok h⟩
  rcases hs.broken_of_ne hok with ⟨hbroken, hordered⟩
  have hlog : ∀ e ∈ (s.repair P).encryptLog, E e := by
    intro e he
    apply hE
    rw [clearError_broken hbroken]
    split <;> exact he
  rcases repair_spec hbroken hordered hs.inside hcalls hlog with ⟨t', hstays, ⟨hsession, hne⟩ | ⟨hlive, hok', hneed⟩⟩
  . rw [clearError_broken hbroken, if_neg hne]
    exact ⟨t', hstays, hsession, fun _ h => absurd h hne⟩
  . rw [clearError_broken hbroken, if_pos hok']
    exact ⟨t', hstays.trans (stays_clearError _ t'), .live hok' (live_clearError hlive), fun _ _ => hneed⟩

theorem settle_spec (hs : Session P E s t) (hcalls : s.outside.CallsSucceed) (hE : ∀ e ∈ (s.settle P).encryptLog, E e) :
    ∃ t', Stays s t (s.settle P) t' ∧ Session P E (s.settle P) t'
      ∧ ((s.settle P).fileStatus = .ok → (s.settle P).needWriting = false) := by
  by_cases hok : s.fileStatus = .ok
  . have heq : s.settle P = (s.internalFlush P true).2 := by rw [settle, if_neg (not_not.2 hok)]
    rw [heq] at hE ⊢
    rcases internalFlush_rests (Kept.trivial P E) (hs.live_of_ok hok) hcalls true hE
      with ⟨r, s', t', hflush, ⟨hdata, hfixed, hends⟩, hr⟩
    rw [hflush]
    have hstays := Stays.of_fixed hdata hfixed
    refine ⟨t', hstays, hends.session hok ?_, ?_⟩
    . rw [hstays.offset, hstays.size]
      exact hs.inside
    intro hok'
    cases r with
    | true => exact hr.2.1
    | false => exact absurd hok' (Broken.status_ne_ok hr)
  . have heq : s.settle P = s.clearError P := by rw [settle, if_pos hok]
    rw [heq] at hE ⊢
    rcases clearError_spec hs hcalls hE with ⟨t', hstays, hsession, hneed⟩
    exact ⟨t', hstays, hsession, hneed hok⟩

theorem clearCache_spec (hs : Session P E s t) (hcalls : s.outside.CallsSucceed)
    (hE : ∀ e ∈ (s.settle P).encryptLog, E e) :
    ∃ t', Stays s t (s.clearCache P).2 t' ∧ Session P E (s.clearCache P).2 t' := by
  rcases settle_spec hs hcalls hE with ⟨t', hstays, hsession, hneed⟩
  rw [clearCache]
  split
  . exact ⟨t', hstays, hsession⟩
  next hok =>
  rw [not_not] at hok
  rcases evictAll_spec (Kept.trivial P E) _ (hsession.live_of_ok hok) (hneed hok) le_rfl
    with ⟨s', heq, hlive, hfixed, hstatus, -⟩
  rw [heq]
  exact ⟨t', hstays.trans (Stays.of_fixed rfl hfixed), .live (hstatus.trans hok) hlive⟩

end Repair

section PreClose

theorem Ready.setNeedWritingFlag (hs : Ready P E s t) : Ready P E (s.setNeedWritingFlag true) t where
  holds := hs.holds.of_memory rfl
  closed := hs.closed.of_memory rfl (fun _ => rfl)
  header := hs.header
  saved h := by cases h
  cipher := hs.cipher

theorem Session.setNeedWritingFlag (hs : Session P E s t) : Session P E (s.setNeedWritingFlag true) t := by
  cases hs with
  | live hok hlive =>
    exact .live hok ⟨hlive.ready.setNeedWritingFlag, hlive.ordered, hlive.inside, trivial⟩
  | broken hbroken hordered hin =>
    refine .broken ?_ hordered hin
    rcases hbroken with ⟨hstatus, hready⟩ | ⟨hstatus, hstuck⟩
    . exact .flushError hstatus hready.setNeedWritingFlag
    . exact .writeToDiskFailed hstatus ⟨hstuck.sealed.of_memory rfl, hstuck.header, hstuck.seals⟩

theorem Session.linked (hs : Session P E s t) : Linked s ∧ Ordered s := by
  cases hs with
  | live _ hlive => exact ⟨hlive.ready.holds.linked, hlive.ordered⟩
  | broken hbroken hordered _ =>
    refine ⟨?_, hordered⟩
    rcases hbroken with ⟨-, hready⟩ | ⟨-, hstuck⟩
    . exact hready.holds.linked
    . exact hstuck.sealed.holds.linked

theorem Frame.linked_ordered {s' : File N} (h : Frame s s') (hs : Linked s ∧ Ordered s) : Linked s' ∧ Ordered s' := by
  refine ⟨hs.1.frame h, ?_⟩
  rw [Ordered, h.cache]
  exact hs.2

def finishClose (P : Platform N) (s : File N) (exportKey : Bool) : (Bool × Bool × Option Key) × File N :=
  let (closed, s) := s.closeFile
  let ((exported, key), s) := s.eraseRecoveryFile.exportMetaDataKey P exportKey
  ((closed, exported, key), s.setStatus .closed)

theorem frame_finishClose (s : File N) (exportKey : Bool) : Frame s (s.finishClose P exportKey).2 :=
  (((frame_closeFile s).trans (frame_eraseRecoveryFile _)).trans
    (frame_exportMetaDataKey P _ exportKey)).trans (frame_setStatus _ _)

theorem main_closeFile (s : File N) : s.closeFile.2.host.main = s.host.main := by
  unfold closeFile fclose
  split
  . cases s.answer.error32 sgxErrorFileCloseFailed <;> rfl
  . rfl

theorem main_eraseRecoveryFile (s : File N) : s.eraseRecoveryFile.host.main = s.host.main := by
  unfold eraseRecoveryFile
  split
  . exact (congrArg (fun u => u.host.main) (core_removeRecoveryFile s) :)
  . rfl

theorem quiet_restoreCurrentMetaDataKey (s : File N) : (s.restoreCurrentMetaDataKey P none).2.quiet = s.quiet := by
  unfold restoreCurrentMetaDataKey
  dsimp only
  split
  . unfold generateSecureBlobFromUserKdk cmac
    simp only [↓reduceIte]
    by_cases h : s.outcome.status ≠ 0
    . rw [if_pos h]
      rfl
    . rw [if_neg h]
      rfl
  split
  . rfl
  unfold getKey
  by_cases h : s.outcome.status ≠ 0
  . rw [if_pos h]
    rfl
  . rw [if_neg h]
    rfl

theorem main_exportMetaDataKey (s : File N) (exportKey : Bool) :
    (s.exportMetaDataKey P exportKey).2.host.main = s.host.main := by
  have hrestore : (s.restoreCurrentMetaDataKey P none).2.host.main = s.host.main :=
    (congrArg (fun u => u.host.main) (quiet_restoreCurrentMetaDataKey s) :)
  unfold exportMetaDataKey
  split
  . rfl
  split
  . rfl
  . generalize s.restoreCurrentMetaDataKey P none = res at hrestore ⊢
    rcases res with ⟨_ | _, s'⟩ <;> exact hrestore

theorem main_finishClose (s : File N) (exportKey : Bool) : (s.finishClose P exportKey).2.host.main = s.host.main :=
  ((main_exportMetaDataKey _ exportKey).trans (main_eraseRecoveryFile _)).trans (main_closeFile s)

def markImported (s : File N) (importing : Bool) : File N :=
  if importing && !s.useUserKdkKey then s.setNeedWritingFlag true else s

theorem preClose_eq (s : File N) (exportKey importing : Bool) : s.preClose P exportKey importing =
    let u := (s.markImported importing).settle P
    let r := u.finishClose P exportKey
    ((!(importing && s.useUserKdkKey) && decide (u.fileStatus = .ok) && r.1.1 && r.1.2.1, r.1.2.2), r.2) := rfl

theorem preClose_spec (hs : Session P E s t) (hcalls : s.outside.CallsSucceed) (exportKey importing : Bool)
    (hE : ∀ e ∈ (s.preClose P exportKey importing).2.encryptLog, E e) :
    ∃ t', Stays s t (s.preClose P exportKey importing).2 t' ∧ (s.preClose P exportKey importing).2.fileStatus = .closed
      ∧ (Linked (s.preClose P exportKey importing).2 ∧ Ordered (s.preClose P exportKey importing).2)
      ∧ ((s.preClose P exportKey importing).1.1 = true →
        Stores P E s.kdk s.encryptedPartPlain.cleanFilename (s.contents t)
          (s.preClose P exportKey importing).2.host.main) := by
  have himported : Session P E (s.markImported importing) t ∧ Stays s t (s.markImported importing) t := by
    unfold markImported
    split
    . exact ⟨hs.setNeedWritingFlag, ⟨rfl, rfl⟩⟩
    . exact ⟨hs, Stays.refl s t⟩
  rcases himported with ⟨hs0, hstays0⟩
  rw [preClose_eq] at hE ⊢
  dsimp only at hE ⊢
  have hframe := frame_finishClose (P := P) ((s.markImported importing).settle P) exportKey
  rcases settle_spec hs0 (hstays0.outside ▸ hcalls) (fun e he => hE e (hframe.log he))
    with ⟨t', hstays, hsession, hneed⟩
  refine ⟨t', (hstays0.trans hstays).trans (Stays.of_fixed rfl hframe.fixed), rfl,
    hframe.linked_ordered hsession.linked, ?_⟩
  intro hres
  simp only [Bool.and_eq_true, decide_eq_true_eq] at hres
  have hok : ((s.markImported importing).settle P).fileStatus = .ok := hres.1.1.2
  have hflushed : Flushed P E ((s.markImported importing).settle P) t' :=
    ⟨(hsession.live_of_ok hok).ready, hneed hok⟩
  rcases hflushed.image with ⟨f, hf, himage⟩
  rw [← (hstays0.trans hstays).kdk, ← (hstays0.trans hstays).contents, main_finishClose]
  exact ⟨f, _, t', hf, himage, (hstays0.trans hstays).cleanFilename, rfl⟩

end PreClose

end File
end ProtectedFs
