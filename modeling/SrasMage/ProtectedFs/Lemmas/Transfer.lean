import SrasMage.ProtectedFs.CacheInvariant
import SrasMage.ProtectedFs.Lemmas.Evict

/-!
This module contains the specification of the loops of `read` and `write`.
-/

namespace ProtectedFs

open Bytes List Nat

namespace Tree

variable (t : Tree) (head : Fin mdUserDataSize → UInt8)

theorem byte_writtenData {offset n : Nat} (hmin : mdUserDataSize ≤ offset)
    (hle : n ≤ nodeSize - (offset - mdUserDataSize) % nodeSize) (data : Nat → UInt8) :
    (File.writtenData t offset data n).byte head = splice (t.byte head) offset n data := by
  funext o
  simp only [mdUserDataSize, nodeSize] at hmin hle
  by_cases ho : o < mdUserDataSize
  . simp only [mdUserDataSize] at ho
    rw [splice_of_lt _ _ (by omega), byte, byte, dif_pos ho, dif_pos ho]
  rw [byte, dif_neg ho, splice, byte, dif_neg ho]
  simp only [File.writtenData, setData, getNodeNumbers, mdUserDataSize, nodeSize] at ho ⊢
  by_cases hd : (o - 3072) / 4096 = (offset - 3072) / 4096
  . rw [hd, Function.update_self, memcpy]
    have hval : (Fin.ofNat 4096 ((o - 3072) % 4096)).val = (o - 3072) % 4096 :=
      mod_mod _ _
    rw [hval]
    by_cases hin : offset ≤ o ∧ o < offset + n
    . rw [if_pos hin, if_pos (by omega)]
      exact congrArg data (by omega)
    . rw [if_neg hin, if_neg (by omega)]
  . rw [Function.update_of_ne hd, if_neg (by omega)]

theorem byte_memcpy {offset n : Nat} (h : offset + n ≤ mdUserDataSize) (data : Nat → UInt8) :
    t.byte (memcpy head offset n data) = splice (t.byte head) offset n data := by
  funext o
  rw [splice, byte, byte]
  by_cases ho : o < mdUserDataSize
  . rw [dif_pos ho, dif_pos ho]
    rfl
  . rw [dif_neg ho, dif_neg ho, if_neg (by omega)]

theorem slice_data {offset n : Nat} (hmin : mdUserDataSize ≤ offset)
    (hle : n ≤ nodeSize - (offset - mdUserDataSize) % nodeSize) :
    slice (t.data (getNodeNumbers offset).dataNodeNumber) ((offset - mdUserDataSize) % nodeSize) n =
    tabulate (fun i => t.byte head (offset + i)) n := by
  apply tabulate_congr
  intro i hi
  have hne : ¬ offset + i < mdUserDataSize := by omega
  simp only [byte, dif_neg hne]
  simp only [getNodeNumbers, mdUserDataSize, nodeSize] at *
  have hnode : (offset + i - 3072) / 4096 = (offset - 3072) / 4096 := by omega
  have hpos : (offset + i - 3072) % 4096 = (offset - 3072) % 4096 + i := by omega
  rw [hnode, hpos]

theorem slice_head {offset n : Nat} (h : offset + n ≤ mdUserDataSize) :
    slice head offset n = tabulate (fun i => t.byte head (offset + i)) n := by
  apply tabulate_congr
  intro i hi
  have hlt : offset + i < mdUserDataSize := by omega
  simp only [byte, dif_pos hlt]
  congr 1
  exact Fin.ext (mod_eq_of_lt hlt)

end Tree

variable {N : Type}

namespace File

def byte (s : File N) (t : Tree) : Nat → UInt8 := t.byte s.encryptedPartPlain.data

def contents (s : File N) (t : Tree) : List UInt8 :=
  t.bytes s.encryptedPartPlain.data s.encryptedPartPlain.size

def opened (s : File N) : Fixed N :=
  { s.fixed with offset := 0, size := 0, data := fun _ => 0 }

theorem opened_of_fixed {s s' : File N} (h : s'.fixed = s.fixed) : s'.opened = s.opened :=
  congrArg (fun f : Fixed N => { f with offset := 0, size := 0, data := fun _ => 0 }) h

theorem byte_of_fixed {s s' : File N} {t t' : Tree} (h : s'.fixed = s.fixed)
    (hdata : t'.data = t.data) : s'.byte t' = s.byte t := by
  have hhead : s'.encryptedPartPlain.data = s.encryptedPartPlain.data := congrArg Fixed.data h
  funext o
  simp only [byte, Tree.byte, hhead, hdata]

structure Writes (s : File N) (t : Tree) (data : Nat → UInt8) (k : Nat) (s' : File N) (t' : Tree) :
    Prop where
  offset : s'.offset = s.offset + k
  size : s'.encryptedPartPlain.size = max s.encryptedPartPlain.size (s.offset + k)
  byte : s'.byte t' = splice (s.byte t) s.offset k data
  opened : s'.opened = s.opened

namespace Writes

variable {s s₁ s' : File N} {t t₁ t' : Tree} {data : Nat → UInt8} {k m : Nat}

theorem trans (h : Writes s t data k s₁ t₁) (h' : Writes s₁ t₁ (fun i => data (k + i)) m s' t') :
    Writes s t data (k + m) s' t' where
  offset := by
    rw [h'.offset, h.offset]
    omega
  size := by
    rw [h'.size, h.size, h.offset]
    omega
  byte := by rw [h'.byte, h.byte, h.offset, splice_splice]
  opened := h'.opened.trans h.opened

theorem zero (hin : s.offset ≤ s.encryptedPartPlain.size) (hfixed : s'.fixed = s.fixed)
    (hdata : t'.data = t.data) : Writes s t data 0 s' t' where
  offset := congrArg Fixed.offset hfixed
  size := by
    have hsize : s'.encryptedPartPlain.size = s.encryptedPartPlain.size :=
      congrArg Fixed.size hfixed
    rw [hsize]
    omega
  byte := by rw [splice_zero, byte_of_fixed hfixed hdata]
  opened := opened_of_fixed hfixed

theorem of_fixed (hfixed : s₁.fixed = s.fixed) (hdata : t₁.data = t.data)
    (h : Writes s₁ t₁ data k s' t') : Writes s t data k s' t' := by
  have hoffset : s₁.offset = s.offset := congrArg Fixed.offset hfixed
  have hsize : s₁.encryptedPartPlain.size = s.encryptedPartPlain.size := congrArg Fixed.size hfixed
  refine ⟨?_, ?_, ?_, h.opened.trans (opened_of_fixed hfixed)⟩
  . rw [h.offset, hoffset]
  . rw [h.size, hoffset, hsize]
  . rw [h.byte, hoffset, byte_of_fixed hfixed hdata]

theorem contents (h : Writes s t data k s' t') (hin : s.offset ≤ s.encryptedPartPlain.size) :
    s'.contents t' = overwrite (s.contents t) s.offset (tabulate data k) := by
  rw [File.contents, Tree.bytes, h.size]
  exact (congrArg (fun f => tabulate f _) h.byte).trans (tabulate_splice _ _ hin)

end Writes

def Forged (P : Platform N) (s s' : File N) : Prop :=
  (∃ (s₁ : File N) (fuel : Nat), s₁.fileStatus = .corrupted ∧ s₁.outside = s.outside ∧ s' = (s₁.evict P fuel).2)
  ∧ ∃ k, (s.outside.ocall k).error32 eio = none ∧ (s.outside.ocall k).bytes ≠ none

inductive Ends (P : Platform N) (E : Key × N → Prop) (J : File N → Prop) (s s' : File N) (t' : Tree)
    (complete : Prop) : Prop where
  | live (live : Live P E J s' t') (status : s'.fileStatus = s.fileStatus)
    (complete : s.outside.OcallsSucceed → complete)
  | broken (broken : Broken P E s' t') (ordered : Ordered s') (fails : ¬ s.outside.OcallsSucceed)

theorem Forged.of_outside {P : Platform N} {s s₁ s' : File N} (h : Forged P s₁ s')
    (houtside : s₁.outside = s.outside) : Forged P s s' := by
  rw [Forged, houtside] at h
  exact h

theorem Ends.of_steady {P : Platform N} {E : Key × N → Prop} {J : File N → Prop} {s s₁ s' : File N}
    {t' : Tree} {c c' : Prop} (h : Ends P E J s₁ s' t' c) (hsteady : Steady s s₁) (hc : c → c') :
    Ends P E J s s' t' c' := by
  cases h with
  | live hlive hstatus hcomplete =>
    exact .live hlive (hstatus.trans hsteady.fileStatus) (fun ho => hc (hcomplete (hsteady.outside ▸ ho)))
  | broken hbroken hordered hfails =>
    exact .broken hbroken hordered (hsteady.outside ▸ hfails)

theorem steady_storeData (s : File N) (a : Addr) (data : Nat → UInt8) (n : Nat) :
    Steady s ((s.storeData a data n).markDirty a) := by
  rcases markDirty_eq (s.storeData a data n) a with ⟨heap, root, flag, heq⟩
  rw [heq]
  exact ⟨rfl, rfl⟩

theorem chunk_spec (offset : Nat) {left : Nat} (hleft : left ≠ 0) : 0 < min left (nodeSize - offset % nodeSize)
      ∧ min left (nodeSize - offset % nodeSize) ≤ nodeSize - offset % nodeSize
      ∧ min left (nodeSize - offset % nodeSize) ≤ left := by
  simp only [nodeSize]
  omega

section WriteLoop

variable {P : Platform N} {E : Key × N → Prop} {J : File N → Prop} {s : File N} {t : Tree}
  {left : Nat}

structure Writing (P : Platform N) (E : Key × N → Prop) (J : File N → Prop) (s : File N) (t : Tree)
    (left : Nat) : Prop where
  live : Live P E J s t
  cacheInv : CacheInv s
  mayWrite : MayWrite s left
  low : left ≠ 0 → mdUserDataSize ≤ s.offset
  high : s.offset + left < 2 ^ 63
  serves : s.outside.Serves P E

theorem Writing.has_of_appends (h : Writing P E J s t left) (hleft : left ≠ 0) (happends : s.Appends)
    (i : NodeId) (a : Addr) (hi : s.cached i = some a) : s.Has i := by
  rcases h.mayWrite with hin | horphan
  . have := happends.2
    omega
  . exact horphan i (h.live.ready.holds.linked.wf.mem_keys hi)

theorem Writing.lookup [LawfulPlatform P] (hP : P.GcmCorrect) (hJ : Kept P E J)
    (h : Writing P E J s t left) (hleft : left ≠ 0) (hthrough : s.ReadsThrough)
    (hE : ∀ e ∈ (s.getDataNode P).2.encryptLog, E e) : Lookup P E J s t (s.getDataNode P) := by
  have hhigh := h.high
  exact getDataNode_spec hP hJ h.live h.serves (h.low hleft) (by omega)
    (fun happends => h.has_of_appends hleft happends) hthrough hE

theorem Live.storeData (hJ : Kept P E J) (hs : Live P E J s t) {a : Addr}
    (hi : s.cached (.atOffset s.offset) = some a) (hmin : mdUserDataSize ≤ s.offset) {n : Nat}
    (hpos : 0 < n) (hle : n ≤ nodeSize - (s.offset - mdUserDataSize) % nodeSize)
    (data : Nat → UInt8) :
    Live P E J ((s.storeData a data n).markDirty a) (writtenData t s.offset data n) where
  ready := hs.ready.storeData hi hmin hs.inside hpos hle data
  ordered := by
    rw [Ordered, (frame_markDirty _ a).cache]
    exact hs.ordered
  inside := by
    rw [offset_writeNode, size_writeNode]
    omega
  kept := hJ.touches hs.ready hs.kept
    (touches_storeData hs.ready.holds.linked hs.ready.closed hi hmin hs.inside hpos hle data)

theorem writes_storeData {a : Addr} (hmin : mdUserDataSize ≤ s.offset) {n : Nat}
    (hle : n ≤ nodeSize - (s.offset - mdUserDataSize) % nodeSize) (data : Nat → UInt8) :
    Writes s t data n ((s.storeData a data n).markDirty a) (writtenData t s.offset data n) where
  offset := offset_writeNode s a data n
  size := size_writeNode s a data n
  byte := by
    have hhead : ((s.storeData a data n).markDirty a).encryptedPartPlain.data
        = s.encryptedPartPlain.data := congrArg Fixed.data (frame_markDirty _ a).fixed
    rw [File.byte, hhead]
    exact Tree.byte_writtenData t _ hmin hle data
  opened := (opened_of_fixed (frame_markDirty (s.storeData a data n) a).fixed).trans rfl

theorem Writing.storeData (hJ : Kept P E J) (h : Writing P E J s t left) (hleft : left ≠ 0) {n : Nat}
    (hpos : 0 < n) (hn : n ≤ left) {s₁ : File N} {t₁ : Tree} {a : Addr}
    (hget : s.getDataNode P = (some a, s₁)) (hs1 : Live P E J s₁ t₁) (hfixed : s₁.fixed = s.fixed)
    (hi : s₁.cached (.atOffset s.offset) = some a)
    (hle : n ≤ nodeSize - (s₁.offset - mdUserDataSize) % nodeSize) (data : Nat → UInt8) :
    Writing P E J ((s₁.storeData a data n).markDirty a) (writtenData t₁ s₁.offset data n) (left - n) := by
  have hoffset : s₁.offset = s.offset := congrArg Fixed.offset hfixed
  have houtside : s₁.outside = s.outside := congrArg Fixed.outside hfixed
  have hlow := h.low hleft
  have hhigh := h.high
  have hkeeps := keeps_getDataNode_of_mayWrite P h.cacheInv hlow left hleft h.mayWrite
  have hmay := mayWrite_writeNode P h.cacheInv hlow h.mayWrite n hpos hn a data
  rw [hget] at hkeeps hmay
  have hmin : mdUserDataSize ≤ s₁.offset := hoffset ▸ hlow
  refine ⟨hs1.storeData hJ (hoffset ▸ hi) hmin hpos hle data, ?_, hmay, ?_, ?_, ?_⟩
  . exact cacheInv_writeNode (h.cacheInv.of_keeps hkeeps) a data n
  . intro _
    rw [offset_writeNode]
    omega
  . rw [offset_writeNode, hoffset]
    omega
  . rw [(frame_markDirty _ a).outside]
    exact houtside ▸ h.serves

theorem writeLoop_spec [LawfulPlatform P] (hP : P.GcmCorrect) (hJ : Kept P E J) (data : Nat → UInt8) (fuel : Nat) :
    ∀ {s : File N} {t : Tree} {done left : Nat}, left ≤ fuel → Writing P E J s t left →
      (∀ u ∈ s.writeLookups P fuel data done left, u.ReadsThrough) →
      (∀ e ∈ (s.writeLoop P fuel data done left).2.encryptLog, E e) →
      ((∃ k t', k ≤ left ∧ (s.writeLoop P fuel data done left).1 = left - k
          ∧ Writes s t (fun i => data (done + i)) k (s.writeLoop P fuel data done left).2 t'
          ∧ Ends P E J s (s.writeLoop P fuel data done left).2 t' (k = left))
        ∨ Forged P s (s.writeLoop P fuel data done left).2)
      ∧ ∀ u ∈ s.writeLookups P fuel data done left, ∃ left' t', left' ≠ 0 ∧ Writing P E J u t' left' := by
  induction fuel with
  | zero =>
    intro s t done left hfuel h _ _
    have hleft : left = 0 := by omega
    subst hleft
    refine ⟨.inl ⟨0, t, le_rfl, rfl, Writes.zero h.live.inside rfl rfl, ?_⟩, by simp [writeLookups]⟩
    exact .live h.live rfl (fun _ => rfl)
  | succ fuel ih =>
    intro s t done left hfuel h hthrough hE
    by_cases hleft : left = 0
    . subst hleft
      rw [writeLoop, writeLookups, if_pos rfl, if_pos rfl]
      refine ⟨.inl ⟨0, t, le_rfl, rfl, Writes.zero h.live.inside rfl rfl, ?_⟩, by simp⟩
      exact .live h.live rfl (fun _ => rfl)
    rw [writeLoop, if_neg hleft] at hE ⊢
    rw [writeLookups, if_neg hleft] at hthrough ⊢
    have hlog : ∀ e ∈ (s.getDataNode P).2.encryptLog, E e := by
      intro e he
      apply hE
      generalize s.getDataNode P = res at he ⊢
      rcases res with ⟨_ | a, s₁⟩
      . exact he
      . exact (grows_writeLoop P data fuel _ _ _).log ((grows_storeData s₁ a _ _).log he)
    have hlookup := h.lookup hP hJ hleft (hthrough s (by simp)) hlog
    have hself : ∃ left' t', left' ≠ 0 ∧ Writing P E J s t' left' := ⟨left, t, hleft, h⟩
    generalize hget : s.getDataNode P = res at hlookup hE hthrough ⊢
    cases hlookup with
    | missed hdata hlive hfixed hstatus hfails =>
      refine ⟨.inl ⟨0, _, zero_le _, rfl, Writes.zero h.live.inside hfixed hdata, ?_⟩, ?_⟩
      . exact .live hlive hstatus (fun ho => absurd ho hfails)
      . exact forall_mem_singleton.2 hself
    | broken hdata hbroken hordered hfixed hfails =>
      refine ⟨.inl ⟨0, _, zero_le _, rfl, Writes.zero h.live.inside hfixed hdata, ?_⟩, ?_⟩
      . exact .broken hbroken hordered hfails
      . exact forall_mem_singleton.2 hself
    | forged hstatus houtside hbytes =>
      refine ⟨.inr ⟨⟨_, _, hstatus, houtside, rfl⟩, hbytes⟩, ?_⟩
      exact forall_mem_singleton.2 hself
    | @found a s₁ t₁ hdata hlive hfixed hstatus hcached =>
      dsimp only at hE hthrough ⊢
      have hoffset : s₁.offset = s.offset := congrArg Fixed.offset hfixed
      obtain ⟨hpos, hle, hn⟩ := chunk_spec (s₁.offset - mdUserDataSize) hleft
      generalize min left (nodeSize - (s₁.offset - mdUserDataSize) % nodeSize) = n at *
      have hnext := h.storeData hJ hleft hpos hn hget hlive hfixed hcached hle (fun i => data (done + i))
      have hsteady : Steady s ((s₁.storeData a (fun i => data (done + i)) n).markDirty a) :=
        Steady.trans ⟨hstatus, congrArg Fixed.outside hfixed⟩ (steady_storeData s₁ a _ n)
      rcases ih (by omega) hnext (fun u hu => hthrough u (mem_cons_of_mem _ hu)) hE with ⟨hmain, htrace⟩
      refine ⟨?_, ?_⟩
      . rcases hmain with ⟨k, t', hk, hrest, hwrites, hends⟩ | hforged
        . refine .inl ⟨n + k, t', by omega, by omega, ?_, ?_⟩
          . apply Writes.of_fixed hfixed hdata
            apply (writes_storeData (hoffset ▸ h.low hleft) hle (fun i => data (done + i))).trans
            simpa only [add_assoc] using hwrites
          . exact hends.of_steady hsteady (by omega)
        . exact .inr (hforged.of_outside hsteady.outside)
      . exact forall_mem_cons.2 ⟨hself, htrace⟩

end WriteLoop

section Write

variable {P : Platform N} {E : Key × N → Prop} {J : File N → Prop} {s : File N} {t : Tree}

theorem Live.storeMetaData (hJ : Kept P E J) (hs : Live P E J s t) {n : Nat}
    (hn : s.offset + n ≤ mdUserDataSize) (data : Nat → UInt8) :
    Live P E J (s.storeMetaData data n) t := by
  have htouches := touches_storeMetaData hs.ready.holds.linked hn data
  refine ⟨htouches.ready hs.ready rfl (fun _ => rfl) (fun _ _ => rfl) ?_, hs.ordered, ?_, ?_⟩
  . exact hs.ready.holds.plain
  . exact le_max_right _ _
  . exact hJ.touches hs.ready hs.kept htouches

theorem writes_storeMetaData {n : Nat} (hn : s.offset + n ≤ mdUserDataSize) (data : Nat → UInt8) :
    Writes s t data n (s.storeMetaData data n) t where
  offset := rfl
  size := rfl
  byte := Tree.byte_memcpy t _ hn data
  opened := rfl

theorem writeMetaData_spec (hJ : Kept P E J) (hs : Live P E J s t) (hinv : CacheInv s) {left : Nat}
    (hmay : MayWrite s left) (hhigh : s.offset + left < 2 ^ 63) (hserves : s.outside.Serves P E)
    (data : Nat → UInt8) :
    Writing P E J (s.writeMetaData data left).1 t (left - (s.writeMetaData data left).2)
      ∧ Writes s t data (s.writeMetaData data left).2 (s.writeMetaData data left).1 t
      ∧ Steady s (s.writeMetaData data left).1 ∧ (s.writeMetaData data left).2 ≤ left := by
  rcases cacheInv_writeMetaData hinv hmay data with ⟨hinv', hmay', hlow⟩
  unfold writeMetaData at hinv' hmay' hlow ⊢
  by_cases hoffset : s.offset < mdUserDataSize
  . simp only [if_pos hoffset] at hinv' hmay' hlow ⊢
    have hn : s.offset + min left (mdUserDataSize - s.offset) ≤ mdUserDataSize := by omega
    refine ⟨⟨hs.storeMetaData hJ hn data, hinv', hmay', hlow, ?_, hserves⟩,
      writes_storeMetaData hn data, ⟨rfl, rfl⟩, min_le_left _ _⟩
    rw [offset_storeMetaData]
    omega
  . simp only [if_neg hoffset] at hinv' hmay' hlow ⊢
    exact ⟨⟨hs, hinv', hmay', hlow, hhigh, hserves⟩, Writes.zero hs.inside rfl rfl, Steady.refl s, zero_le _⟩

theorem writeBytes_spec [LawfulPlatform P] (hP : P.GcmCorrect) (hJ : Kept P E J)
    (hs : Live P E J s t) (hinv : CacheInv s) {left : Nat} (hmay : MayWrite s left)
    (hhigh : s.offset + left < 2 ^ 63) (hserves : s.outside.Serves P E) (data : Nat → UInt8)
    (hthrough : ∀ u ∈ (s.writeMetaData data left).1.writeLookups P
      (left - (s.writeMetaData data left).2) data (s.writeMetaData data left).2
      (left - (s.writeMetaData data left).2), u.ReadsThrough)
    (hE : ∀ e ∈ (s.writeBytes P data left).2.encryptLog, E e) :
    ((∃ k t', k ≤ left ∧ (s.writeBytes P data left).1 = left - k ∧ Writes s t data k (s.writeBytes P data left).2 t'
        ∧ Ends P E J s (s.writeBytes P data left).2 t' (k = left))
      ∨ Forged P s (s.writeBytes P data left).2)
    ∧ ∀ u ∈ (s.writeMetaData data left).1.writeLookups P (left - (s.writeMetaData data left).2) data
      (s.writeMetaData data left).2 (left - (s.writeMetaData data left).2),
      ∃ left' t', left' ≠ 0 ∧ Writing P E J u t' left' := by
  rcases writeMetaData_spec hJ hs hinv hmay hhigh hserves data with ⟨h, hfirst, hsteady, hn⟩
  unfold writeBytes at hE ⊢
  generalize s.writeMetaData data left = res at *
  rcases res with ⟨s₁, n⟩
  dsimp only at *
  rcases writeLoop_spec hP hJ data (left - n) le_rfl h hthrough hE with ⟨hmain, htrace⟩
  refine ⟨?_, htrace⟩
  rcases hmain with ⟨k, t', hk, hrest, hwrites, hends⟩ | hforged
  . refine .inl ⟨n + k, t', by omega, by omega, hfirst.trans hwrites, ?_⟩
    exact hends.of_steady hsteady (by omega)
  . exact .inr (hforged.of_outside hsteady.outside)

end Write

section Congr

variable {P : Platform N} {E : Key × N → Prop} {J : File N → Prop} {s s' : File N} {t : Tree}

structure SameFile (s s' : File N) : Prop where
  memory : s'.memory = s.memory
  fileMetaData : s'.fileMetaData = s.fileMetaData
  kdk : s'.kdk = s.kdk
  needWriting : s'.needWriting = s.needWriting

theorem SameFile.ready (h : SameFile s s') (hs : Ready P E s t) : Ready P E s' t := by
  have hmain : s'.host.main = s.host.main := congrArg (fun m => m.2.2.2.2.2) h.memory
  have hmd : s'.encryptedPartPlain = s.encryptedPartPlain :=
    congrArg (fun m => m.2.2.2.2.1) h.memory
  refine ⟨hs.holds.of_memory h.memory, hs.closed.of_memory h.memory (by simp [h.needWriting]), ?_, ?_, ?_⟩
  . rw [h.fileMetaData, h.kdk]
    exact hs.header
  . intro hneed
    rw [h.needWriting] at hneed
    refine ⟨?_, ?_⟩
    . rw [MetaOnDisk, hmain, h.fileMetaData]
      exact (hs.saved hneed).onDisk
    rw [h.fileMetaData, h.kdk, hmd]
    exact (hs.saved hneed).seals
  . intro i n hn hold
    rw [node?_of_memory h.memory] at hn
    rw [SameCipher, hmain]
    exact hs.cipher i n hn hold

theorem SameFile.live (h : SameFile s s') (hJ : Kept P E J) (hs : Live P E J s t)
    (hin : s'.offset ≤ s'.encryptedPartPlain.size) : Live P E J s' t where
  ready := h.ready hs.ready
  ordered := by
    have hcache : s'.cache = s.cache := congrArg (fun m => m.1) h.memory
    rw [Ordered, hcache]
    exact hs.ordered
  inside := hin
  kept := hJ.congr hs.kept h.memory h.fileMetaData h.kdk

theorem sameFile_setOffset (s : File N) (offset : Nat) : SameFile s (s.setOffset offset) :=
  ⟨rfl, rfl, rfl, rfl⟩

theorem sameFile_setEof (s : File N) (b : Bool) : SameFile s (s.setEof b) :=
  ⟨rfl, rfl, rfl, rfl⟩

theorem sameFile_fail (s : File N) (e : Error) : SameFile s (s.fail e) :=
  ⟨rfl, rfl, rfl, rfl⟩

end Congr

section ReadLoop

variable {P : Platform N} {E : Key × N → Prop} {J : File N → Prop} {s : File N} {t : Tree}
  {left : Nat}

structure Reading (P : Platform N) (E : Key × N → Prop) (J : File N → Prop) (s : File N) (t : Tree)
    (left : Nat) : Prop where
  live : Live P E J s t
  low : left ≠ 0 → mdUserDataSize ≤ s.offset
  inside : s.offset + left ≤ s.encryptedPartPlain.size
  high : s.encryptedPartPlain.size < 2 ^ 63
  serves : s.outside.Serves P E

theorem Reading.lookup [LawfulPlatform P] (hP : P.GcmCorrect) (hJ : Kept P E J)
    (h : Reading P E J s t left) (hleft : left ≠ 0) (hthrough : s.ReadsThrough)
    (hE : ∀ e ∈ (s.getDataNode P).2.encryptLog, E e) : Lookup P E J s t (s.getDataNode P) := by
  have hhigh := h.high
  have hin := h.inside
  refine getDataNode_spec hP hJ h.live h.serves (h.low hleft) (by omega) ?_ hthrough hE
  intro happends
  have := happends.2
  omega

structure Moves (s : File N) (t : Tree) (k : Nat) (s' : File N) (t' : Tree) : Prop where
  fixed : s'.fixed = { s.fixed with offset := s.offset + k }
  data : t'.data = t.data

namespace Moves

variable {s s₁ s' : File N} {t t₁ t' : Tree} {k m : Nat}

theorem offset (h : Moves s t k s' t') : s'.offset = s.offset + k := congrArg Fixed.offset h.fixed

theorem size (h : Moves s t k s' t') : s'.encryptedPartPlain.size = s.encryptedPartPlain.size :=
  congrArg Fixed.size h.fixed

theorem byte (h : Moves s t k s' t') : s'.byte t' = s.byte t := by
  have hhead : s'.encryptedPartPlain.data = s.encryptedPartPlain.data :=
    congrArg Fixed.data h.fixed
  funext o
  simp only [File.byte, Tree.byte, hhead, h.data]

theorem contents (h : Moves s t k s' t') : s'.contents t' = s.contents t := by
  rw [File.contents, Tree.bytes, h.size]
  exact congrArg (fun f => tabulate f _) h.byte

theorem of_fixed (hfixed : s'.fixed = s.fixed) (hdata : t'.data = t.data) : Moves s t 0 s' t' :=
  ⟨hfixed, hdata⟩

theorem trans (h : Moves s t k s₁ t₁) (h' : Moves s₁ t₁ m s' t') : Moves s t (k + m) s' t' where
  fixed := by rw [h'.fixed, h.offset, h.fixed, add_assoc]
  data := h'.data.trans h.data

end Moves

def ahead (s : File N) (t : Tree) (k : Nat) : List UInt8 :=
  tabulate (fun i => s.byte t (s.offset + i)) k

theorem ahead_add {s₁ : File N} {t₁ : Tree} {k : Nat} (h : Moves s t k s₁ t₁) (m : Nat) :
    s.ahead t (k + m) = s.ahead t k ++ s₁.ahead t₁ m := by
  rw [ahead, tabulate_add, ahead, ahead, h.byte, h.offset]
  simp only [add_assoc]

theorem Live.slice (hs : Live P E J s t) {a : Addr} (hi : s.cached (.atOffset s.offset) = some a)
    (hmin : mdUserDataSize ≤ s.offset) {n : Nat}
    (hle : n ≤ nodeSize - (s.offset - mdUserDataSize) % nodeSize) :
    slice (s.heap a).plain.toData ((s.offset - mdUserDataSize) % nodeSize) n = s.ahead t n := by
  rw [hs.ready.holds.heap_plain (hs.ready.holds.linked.loc_of_cached hi)]
  exact t.slice_data _ hmin hle

theorem Reading.step (hJ : Kept P E J) (h : Reading P E J s t left) (hleft : left ≠ 0) {n : Nat}
    (hn : n ≤ left) {s₁ : File N} {t₁ : Tree} (hs1 : Live P E J s₁ t₁) (hfixed : s₁.fixed = s.fixed)
    (hdata : t₁.data = t.data) :
    Reading P E J (s₁.setOffset (s₁.offset + n)) t₁ (left - n) ∧ Moves s t n (s₁.setOffset (s₁.offset + n)) t₁ := by
  have hoffset : s₁.offset = s.offset := congrArg Fixed.offset hfixed
  have hsize : s₁.encryptedPartPlain.size = s.encryptedPartPlain.size := congrArg Fixed.size hfixed
  have houtside : s₁.outside = s.outside := congrArg Fixed.outside hfixed
  have hin := h.inside
  have hlow := h.low hleft
  have hmoves : Moves s₁ t₁ n (s₁.setOffset (s₁.offset + n)) t₁ := ⟨rfl, rfl⟩
  have hmoves' := (Moves.of_fixed hfixed hdata).trans hmoves
  rw [zero_add] at hmoves'
  refine ⟨⟨(sameFile_setOffset s₁ _).live hJ hs1 ?_, ?_, ?_, ?_, ?_⟩, hmoves'⟩
  . rw [hmoves'.offset, hmoves'.size]
    omega
  . intro _
    rw [hmoves'.offset]
    omega
  . rw [hmoves'.offset, hmoves'.size]
    omega
  . rw [hmoves'.size]
    exact h.high
  . exact houtside ▸ h.serves

theorem readLoop_spec [LawfulPlatform P] (hP : P.GcmCorrect) (hJ : Kept P E J) (fuel : Nat) :
    ∀ {s : File N} {t : Tree} {out : List UInt8} {left : Nat}, left ≤ fuel → Reading P E J s t left →
      (∀ u ∈ s.readLookups P fuel left, u.ReadsThrough) →
      (∀ e ∈ (s.readLoop P fuel out left).2.encryptLog, E e) →
      (∃ k, k ≤ left ∧ (s.readLoop P fuel out left).1 = (out ++ s.ahead t k, left - k)
        ∧ ((∃ t', Moves s t k (s.readLoop P fuel out left).2 t'
            ∧ Ends P E J s (s.readLoop P fuel out left).2 t' (k = left))
          ∨ (k ≠ left ∧ Forged P s (s.readLoop P fuel out left).2)))
      ∧ ∀ u ∈ s.readLookups P fuel left, ∃ left' t', left' ≠ 0 ∧ Reading P E J u t' left' := by
  induction fuel with
  | zero =>
    intro s t out left hfuel h _ _
    have hleft : left = 0 := by omega
    subst hleft
    refine ⟨⟨0, le_rfl, by simp [readLoop, ahead], .inl ⟨t, Moves.of_fixed rfl rfl, ?_⟩⟩, by simp [readLookups]⟩
    exact .live h.live rfl (fun _ => rfl)
  | succ fuel ih =>
    intro s t out left hfuel h hthrough hE
    by_cases hleft : left = 0
    . subst hleft
      rw [readLoop, readLookups, if_pos rfl, if_pos rfl]
      refine ⟨⟨0, le_rfl, by simp [ahead], .inl ⟨t, Moves.of_fixed rfl rfl, ?_⟩⟩, by simp⟩
      exact .live h.live rfl (fun _ => rfl)
    rw [readLoop, if_neg hleft] at hE ⊢
    rw [readLookups, if_neg hleft] at hthrough ⊢
    have hlog : ∀ e ∈ (s.getDataNode P).2.encryptLog, E e := by
      intro e he
      apply hE
      generalize s.getDataNode P = res at he ⊢
      rcases res with ⟨_ | a, s₁⟩
      . exact he
      . exact (grows_readLoop P fuel (s₁.setOffset _) _ _).log he
    have hlookup := h.lookup hP hJ hleft (hthrough s (by simp)) hlog
    have hself : ∃ left' t', left' ≠ 0 ∧ Reading P E J s t' left' := ⟨left, t, hleft, h⟩
    have hzero : (out, left) = (out ++ s.ahead t 0, left - 0) := by simp [ahead]
    generalize hget : s.getDataNode P = res at hlookup hE hthrough ⊢
    cases hlookup with
    | missed hdata hlive hfixed hstatus hfails =>
      refine ⟨⟨0, zero_le _, hzero, .inl ⟨_, Moves.of_fixed hfixed hdata, ?_⟩⟩, forall_mem_singleton.2 hself⟩
      exact .live hlive hstatus (fun ho => absurd ho hfails)
    | broken hdata hbroken hordered hfixed hfails =>
      refine ⟨⟨0, zero_le _, hzero, .inl ⟨_, Moves.of_fixed hfixed hdata, ?_⟩⟩, forall_mem_singleton.2 hself⟩
      exact .broken hbroken hordered hfails
    | forged hstatus houtside hbytes =>
      refine ⟨⟨0, zero_le _, hzero, .inr ⟨Ne.symm hleft, ?_⟩⟩, forall_mem_singleton.2 hself⟩
      exact ⟨⟨_, _, hstatus, houtside, rfl⟩, hbytes⟩
    | @found a s₁ t₁ hdata hlive hfixed hstatus hcached =>
      dsimp only at hE hthrough ⊢
      have hoffset : s₁.offset = s.offset := congrArg Fixed.offset hfixed
      obtain ⟨hpos, hle, hn⟩ := chunk_spec (s₁.offset - mdUserDataSize) hleft
      generalize min left (nodeSize - (s₁.offset - mdUserDataSize) % nodeSize) = n at *
      rcases h.step hJ hleft hn hlive hfixed hdata with ⟨hnext, hmoves⟩
      have hbytes : slice (s₁.heap a).plain.toData ((s₁.offset - mdUserDataSize) % nodeSize) n = s.ahead t n := by
        rw [hlive.slice (hoffset ▸ hcached) (hoffset ▸ h.low hleft) hle, ahead, ahead, hoffset,
          byte_of_fixed hfixed hdata]
      rw [hbytes] at hE ⊢
      have hsteady : Steady s (s₁.setOffset (s₁.offset + n)) :=
        ⟨hstatus, congrArg Fixed.outside hfixed⟩
      rcases ih (by omega) hnext (fun u hu => hthrough u (mem_cons_of_mem _ hu)) hE with ⟨⟨k, hk, hres, hmain⟩, htrace⟩
      refine ⟨⟨n + k, by omega, ?_, ?_⟩, ?_⟩
      . rw [hres, ahead_add hmoves, append_assoc, Nat.sub_sub]
      . rcases hmain with ⟨t', hmoves', hends⟩ | ⟨hne, hforged⟩
        . exact .inl ⟨t', hmoves.trans hmoves', hends.of_steady hsteady (by omega)⟩
        . exact .inr ⟨by omega, hforged.of_outside hsteady.outside⟩
      . exact forall_mem_cons.2 ⟨hself, htrace⟩

theorem readMetaData_spec (hJ : Kept P E J) (hs : Live P E J s t) (hin : s.offset + left ≤ s.encryptedPartPlain.size)
    (hhigh : s.encryptedPartPlain.size < 2 ^ 63) (hserves : s.outside.Serves P E) :
    ∃ n, n ≤ left ∧ (s.readMetaData left).2 = s.ahead t n
      ∧ Moves s t n (s.readMetaData left).1 t ∧ Steady s (s.readMetaData left).1
      ∧ Reading P E J (s.readMetaData left).1 t (left - n) := by
  unfold readMetaData
  split
  . next hoffset =>
    have hn : s.offset + min left (mdUserDataSize - s.offset) ≤ mdUserDataSize := by omega
    refine ⟨min left (mdUserDataSize - s.offset), min_le_left _ _, t.slice_head _ hn, ⟨rfl, rfl⟩, ⟨rfl, rfl⟩, ?_⟩
    have hcursor : (s.setOffset (s.offset + min left (mdUserDataSize - s.offset))).offset
        = s.offset + min left (mdUserDataSize - s.offset) := rfl
    have hsize : (s.setOffset (s.offset + min left
        (mdUserDataSize - s.offset))).encryptedPartPlain.size = s.encryptedPartPlain.size := rfl
    refine ⟨(sameFile_setOffset s _).live hJ hs ?_, ?_, ?_, hhigh, hserves⟩
    . rw [hcursor, hsize]
      omega
    . rw [hcursor]
      omega
    . rw [hcursor, hsize]
      omega
  . next hoffset =>
    refine ⟨0, zero_le _, by simp [ahead], Moves.of_fixed rfl rfl, Steady.refl s, hs, ?_, hin, hhigh, hserves⟩
    exact fun _ => not_lt.1 hoffset

theorem readBytes_spec [LawfulPlatform P] (hP : P.GcmCorrect) (hJ : Kept P E J)
    (hs : Live P E J s t) {attempted : Nat} (hin : s.offset + attempted ≤ s.encryptedPartPlain.size)
    (hhigh : s.encryptedPartPlain.size < 2 ^ 63) (hserves : s.outside.Serves P E)
    (hthrough : ∀ u ∈ (s.readMetaData attempted).1.readLookups P (attempted - (s.readMetaData attempted).2.length)
      (attempted - (s.readMetaData attempted).2.length), u.ReadsThrough)
    (hE : ∀ e ∈ (s.readBytes P attempted).2.encryptLog, E e) :
    (∃ k, k ≤ attempted ∧ (s.readBytes P attempted).1 = (s.ahead t k, attempted - k)
      ∧ ((∃ t', Moves s t k (s.readBytes P attempted).2 t'
          ∧ Ends P E J s (s.readBytes P attempted).2 t' (k = attempted))
        ∨ (k ≠ attempted ∧ Forged P s (s.readBytes P attempted).2)))
    ∧ ∀ u ∈ (s.readMetaData attempted).1.readLookups P (attempted - (s.readMetaData attempted).2.length)
      (attempted - (s.readMetaData attempted).2.length),
      ∃ left' t', left' ≠ 0 ∧ Reading P E J u t' left' := by
  rcases readMetaData_spec hJ hs hin hhigh hserves with ⟨n, hn, hout, hmoves, hsteady, h⟩
  have hlength : (s.readMetaData attempted).2.length = n := by simp [hout, ahead]
  unfold readBytes at hE ⊢
  generalize s.readMetaData attempted = res at *
  rcases res with ⟨s₁, out⟩
  dsimp only at *
  subst hout
  rw [hlength] at hE hthrough ⊢
  rcases readLoop_spec hP hJ (attempted - n) le_rfl h hthrough hE with ⟨⟨k, hk, hres, hmain⟩, htrace⟩
  refine ⟨⟨n + k, by omega, ?_, ?_⟩, htrace⟩
  . rw [hres, ahead_add hmoves, Nat.sub_sub]
  rcases hmain with ⟨t', hmoves', hends⟩ | ⟨hne, hforged⟩
  . exact .inl ⟨t', hmoves.trans hmoves', hends.of_steady hsteady (by omega)⟩
  . exact .inr ⟨by omega, hforged.of_outside hsteady.outside⟩

end ReadLoop

end File
end ProtectedFs
