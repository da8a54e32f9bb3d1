import SrasMage.ProtectedFs.ReferenceLemmas

/-!
This module contains the proof that parents outlive their children in the node cache.
-/

namespace ProtectedFs

open Reference List

variable {N : Type}

namespace File

structure ParentsFirst (s : File N) : Prop where
  before : ∀ key a p, s.cache.data? key = some a → (s.heap a).parent = .node p →
    ∃ key', s.cache.data? key' = some p ∧ s.cache.keys.idxOf key' < s.cache.keys.idxOf key
  last : ∀ key a b, s.cache.getLast = some a → s.cache.data? key = some b →
    (s.heap b).parent ≠ .node a

theorem parentsFirst_of_empty {s : File N} (h : s.cache = Lru.Cache.empty) : ParentsFirst s := by
  constructor
  . intro key a p hdata
    simp [h] at hdata
  intro key a b _ hdata
  simp [h] at hdata

theorem Linked.parent_cached {s : File N} (hs : Linked s) {i : NodeId} {a p : Addr}
    (hi : s.cached i = some a) (hp : (s.heap a).parent = .node p) :
    s.cached (.mht i.parent) = some p := by
  rcases hs.shape i _ (hs.loc_of_cached hi) with ⟨q, hq, hshape⟩
  have hparent : (s.heap a).parent = q := congrArg (fun x => x.2.1) hshape
  rw [hp] at hparent
  subst hparent
  by_cases hroot : NodeId.mht i.parent = .mht 0
  . rw [hroot, loc_root, Option.some.injEq] at hq
    cases hq
  rw [loc_of_ne hroot, Option.map_eq_some_iff] at hq
  rcases hq with ⟨p', hp', heq⟩
  cases heq
  exact hp'

theorem Ordered.idxOf_lt {s : File N} (hs : Ordered s) {i : NodeId} (hi : i.physical ∈ s.cache.keys)
    (hparent : (NodeId.mht i.parent).physical ∈ s.cache.keys) (hne : i ≠ .mht 0) :
    s.cache.keys.idxOf (NodeId.mht i.parent).physical < s.cache.keys.idxOf i.physical := by
  by_contra hle
  have hdiff : s.cache.keys.idxOf i.physical ≠ s.cache.keys.idxOf (NodeId.mht i.parent).physical := by
    intro h
    have hkeys := (idxOf_inj hi).1 h
    exact NodeId.parent_ne i hne (NodeId.physical_injective hkeys).symm
  rw [Ordered, pairwise_iff_getElem] at hs
  have hlt := idxOf_lt_length_of_mem hi
  have hlt' := idxOf_lt_length_of_mem hparent
  apply hs _ _ hlt hlt' (by omega) i
  . rw [getElem_idxOf hlt]
  . rw [getElem_idxOf hlt']

theorem Linked.parentsFirst {s : File N} (hs : Linked s) (hordered : Ordered s) : ParentsFirst s where
  before key a p ha hp := by
    rcases hs.keys key (hs.wf.mem_keys ha) with ⟨i, hne, rfl⟩
    have hparent := hs.parent_cached ha hp
    exact ⟨_, hparent, hordered.idxOf_lt (hs.wf.mem_keys ha) (hs.wf.mem_keys hparent) hne⟩
  last key a b hlast hb hparent := by
    rcases hs.keys key (hs.wf.mem_keys hb) with ⟨j, -, rfl⟩
    have hcached := hs.parent_cached hb hparent
    rcases eq_nil_or_concat s.cache.keys with hnil | ⟨ks, k, hks⟩
    . have := hs.wf.mem_keys hb
      simp [hnil] at this
    rw [concat_eq_append] at hks
    rcases hs.keys k (by simp [hks]) with ⟨i, -, rfl⟩
    rcases hs.wf.getLast hks with ⟨a', hlast', ha'⟩
    rw [hlast, Option.some.injEq] at hlast'
    subst hlast'
    have hi : s.cached i = some a := ha'
    exact hordered.last_childless hs hks j b hb (hs.loc_injective (hs.loc_of_cached hcached) (hs.loc_of_cached hi))

theorem Tracks.parentsFirst {P : Platform N} {s : File N} {bytes : List UInt8}
    {identity : OpenMode × Option Key × List Char × Bool} (hs : Tracks P s bytes identity) :
    ParentsFirst s := by
  cases hs with
  | «open» t hsession _ _ _ _ => exact hsession.linked.1.parentsFirst hsession.linked.2
  | ended _ hordered _ =>
    rcases hordered with hempty | ⟨hlinked, hordered⟩
    . exact parentsFirst_of_empty hempty
    . exact hlinked.parentsFirst hordered

theorem cache_settle (P : Platform N) (s : File N) : (s.settle P).cache = s.cache := by
  unfold settle
  split
  . rcases clearError_eq P s with hframe | ⟨t, hframe, heq⟩
    . exact hframe.cache
    rw [heq]
    exact hframe.cache
  . exact (frame_internalFlush P s true).cache

theorem cache_run_preClose (P : Platform N) (ts : List (Step N)) :
    ∀ {s : File N}, (∀ st ∈ ts, ∃ exportKey importing, st.op = .preClose exportKey importing) →
      (s.run P ts).cache = s.cache := by
  induction ts with
  | nil =>
    intro s _
    rfl
  | cons st ts ih =>
    intro s hclose
    rcases hclose st (by simp) with ⟨exportKey, importing, hop⟩
    have hstep : (s.step P st).cache = s.cache := by
      rw [step, hop, apply, preClose_eq]
      exact ((frame_finishClose _ exportKey).cache.trans (cache_settle P _)).trans
        (frame_markImported (s.begin st.outside) importing).cache
    rw [run, foldl_cons]
    exact (ih (fun st' hst' => hclose st' (mem_cons_of_mem _ hst'))).trans hstep

/--
Parents are in front of their children after every run whose steps keep to `Regular`. A file that was
opened with a key to import is only closed.
-/
theorem run_parentsFirst (P : Platform N) [LawfulPlatform P] (hP : P.GcmCorrect) (args : OpenArgs)
    (h : Host N) (outside : Outside N) (ts : List (Step N)) {stored : List UInt8}
    (hdisk : Disk P anyNode args.kdkKey h.main stored) (hcalls : outside.CallsSucceed)
    (hhonest : outside.Honest)
    (himport : args.importKey = none
      ∨ ∀ st ∈ ts, ∃ exportKey importing, st.op = .preClose exportKey importing)
    (hmeets : RunMeets P (Regular P) (create P args h outside) ts) :
    ParentsFirst ((create P args h outside).run P ts) := by
  rcases himport with himport | hclose
  . cases hparse : parseArgs args with
    | error e =>
      rcases create_cases (P := P) hcalls args h with ⟨hrefused, -⟩ | ⟨_, _, _, -, hparse', -⟩
      . have htracks : Tracks P (create P args h outside) [] (OpenMode.raw0, none, [], false) :=
          hrefused.tracks rfl
        exact (htracks.run hP ts hmeets).parentsFirst
      . rw [hparse] at hparse'
        cases hparse'
    | ok r =>
      have htracks := Tracks.create hP himport hdisk hcalls hhonest hparse
      exact (htracks.run hP ts hmeets).parentsFirst
  . apply parentsFirst_of_empty
    rw [cache_run_preClose P ts hclose]
    exact (unread_create P args h outside).cache

-- MHT node 1 is loaded, MHT node 33 below it cannot be read at first
def reread : List (Step Reference.Blob) :=
  [⟨.seek (3072 + 3168 * 4096) .set, success⟩, ⟨.read (bytes 0) 1 1, failOcall 1⟩,
    ⟨.clearError, success⟩, ⟨.read (bytes 0) 1 1, success⟩]

theorem run_parentsFirst_reread :
    ParentsFirst ((openImage ['r'] (3072 + 3169 * 4096)).run platform reread)
      ∧ ((openImage ['r'] (3072 + 3169 * 4096)).run platform (reread.take 2)).cache.keys
        = [physicalMhtNode 1]
      ∧ ((openImage ['r'] (3072 + 3169 * 4096)).run platform reread).cache.keys
        = [physicalMhtNode 1, physicalMhtNode 33, physicalDataNode 3168] := by
  refine ⟨?_, by decide +kernel, by decide +kernel⟩
  have hc := callsSucceed_success
  have hh := honest_success
  refine run_parentsFirst platform gcmCorrect (args ['r']) _ success reread (disk_image (by decide))
    hc hh (.inl rfl) ⟨⟨hc, hh, trivial, by decide +kernel, by decide +kernel⟩,
      ⟨callsSucceed_failOcall 1, honest_failOcall 1, trivial, by decide +kernel, by decide +kernel⟩,
      ⟨hc, hh, trivial, by decide +kernel, by decide +kernel⟩,
      ⟨hc, hh, trivial, by decide +kernel, by decide +kernel⟩, trivial⟩

theorem failed_lookup_leaves_child_first :
    ¬ ParentsFirst ((openImage ['r'] (3072 + 3169 * 4096)).run platform
      [⟨.seek (3072 + 3168 * 4096) .set, success⟩,
        ⟨.read (bytes 0) 1 1, failOcall 2⟩]) := by
  intro h
  have hbefore := h.before (physicalMhtNode 33) 1 0 (by decide +kernel) (by decide +kernel)
  rcases hbefore with ⟨key', -, hlt⟩
  rw [show idxOf (physicalMhtNode 33) _ = 0 by decide +kernel] at hlt
  exact Nat.not_lt_zero _ hlt

end File
end ProtectedFs
