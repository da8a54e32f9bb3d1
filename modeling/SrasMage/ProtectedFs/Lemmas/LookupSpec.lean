import SrasMage.ProtectedFs.Lemmas.Order

/-!
This module contains the specification of the lookup of nodes.
-/

namespace ProtectedFs

open NodeId List

variable {N : Type}

def Outside.Unforged (P : Platform N) (E : Key × N → Prop) (o : Outside N) : Prop :=
  ∀ k b, (o.ocall k).error32 eio = none → (o.ocall k).bytes = some b → ∀ e, E e → ∀ plain,
    P.rijndael128GcmDecrypt e.1 b (P.rijndael128GcmEncrypt e.1 e.2).2 = some plain →
    b = (P.rijndael128GcmEncrypt e.1 e.2).1

def Outside.Honest (o : Outside N) : Prop :=
  ∀ k, (o.ocall k).error32 eio = none → (o.ocall k).bytes = none

theorem Outside.Honest.unforged {o : Outside N} (h : o.Honest) (P : Platform N)
    (E : Key × N → Prop) : o.Unforged P E := by
  intro k b hserved hb
  rw [h k hserved] at hb
  cases hb

structure Outside.Serves (P : Platform N) (E : Key × N → Prop) (o : Outside N) : Prop where
  calls : o.CallsSucceed
  unforged : o.Unforged P E

namespace File

inductive ReadFails (s s' : File N) : Prop where
  | refused (answer : s.answer.error32 eio ≠ none) (status : s'.fileStatus = s.fileStatus)
  | forged (answer : s.answer.error32 eio = none) (bytes : s.answer.bytes ≠ none)
    (status : s'.fileStatus = .corrupted)

section Load

variable {P : Platform N} {E : Key × N → Prop} {s : File N} {t : Tree}

theorem freadNode_cases (s : File N) (k : Nat) :
    (∃ e, s.answer.error32 eio = some e ∧ s.freadNode k = (.error e, s.next))
    ∨ (s.answer.error32 eio = none ∧ ∃ b, s.answer.bytes = some b ∧ s.freadNode k = (.ok b, s.next))
    ∨ (s.answer.error32 eio = none ∧ s.answer.bytes = none
      ∧ ∀ f, s.host.main = some f → k < f.count → s.freadNode k = (.ok (f.nodes k), s.next)) := by
  unfold freadNode
  split
  . next e he => exact .inl ⟨e, he, rfl⟩
  next he =>
  split
  . next b hb => exact .inr (.inl ⟨he, b, hb, rfl⟩)
  next hb =>
  refine .inr (.inr ⟨he, hb, ?_⟩)
  intro f hf hk
  rw [hf]
  simp [hk]

def loaded (P : Platform N) (i : NodeId) (q : MhtPtr) (cipher plain : N) : FileNode N where
  number := i.number
  parent := q
  needWriting := false
  newNode := false
  physicalNodeNumber := i.physical
  encrypted := cipher
  plain := P.unpack plain i

theorem loadNode_eq (hcalls : s.outside.CallsSucceed) (i : NodeId) (q : MhtPtr) (c : GcmCryptoData) :
    s.loadNode P i.number i.physical q c (fun b => P.unpack b i) =
    match s.nextCall.freadNode i.physical with
    | (.error e, s) => (none, s.fail e)
    | (.ok cipher, s) =>
      match P.rijndael128GcmDecrypt c.key cipher c.gmac with
      | none => (none, (s.nextCall.fail sgxErrorMacMismatch).setStatus .corrupted)
      | some plain => s.nextCall.addNode (loaded P i q cipher plain) := by
  have hcall : ∀ k, (s.outside.call k).status = 0 := fun k => (hcalls k).1
  have hfread : ∀ k, (s.nextCall.freadNode k).2 = s.nextCall.next := by
    intro k
    unfold freadNode
    split
    . rfl
    split
    . rfl
    . split <;> rfl
  have hread := hfread i.physical
  unfold loadNode new
  simp only [outcome, hcall, decide_true]
  generalize s.nextCall.freadNode i.physical = res at hread ⊢
  rcases res with ⟨e | cipher, s1⟩
  . rfl
  dsimp only at hread ⊢
  subst hread
  unfold gcmDecrypt
  simp only [outcome, next, nextCall, hcall, ne_eq, not_true_eq_false, if_false]
  cases P.rijndael128GcmDecrypt c.key cipher c.gmac with
  | none => simp [setStatus, fail]
  | some plain => rfl

variable {i : NodeId} {q : MhtPtr}

theorem addNode_eq (hcalls : s.outside.CallsSucceed) {n : FileNode N} (hn : n.physicalNodeNumber = i.physical) :
    s.addNode n = (some s.nextAddr, s.nextCall.insertNode i n) := by
  unfold addNode new
  simp only [outcome, (hcalls s.calls).1, decide_true, hn]
  rfl

structure Fetches (t : Tree) (s s' : File N) (i : NodeId) (a : Addr) : Prop where
  evolves : Evolves t s s'
  cached : s'.cached i = some a
  keys : s'.cache.keys = i.physical :: s.cache.keys
  status : s'.fileStatus = s.fileStatus

theorem Fetches.insertNode (hs : Linked s) {s1 : File N} (h : Idle s s1)
    (hstatus : s1.fileStatus = s.fileStatus) {n : FileNode N} (hi : i ≠ .mht 0) (hnot : s.cached i = none)
    (hq : s.loc (.mht i.parent) = some q) (hshape : n.shape = (i.number, q, i.physical, i.isData))
    (hn : Fetched s t i n) : Fetches t s (s1.insertNode i n) i s1.nextAddr := by
  have h1 : Evolves t s s1 := Evolves.of_idle hs h
  have hcache := h.cache
  have hnot1 : s1.cached i = none := by
    rw [File.cached, hcache]
    exact hnot
  have hq1 : s1.loc (.mht i.parent) = some q := by rwa [loc_congr hcache]
  refine ⟨h1.trans (Evolves.insertNode h1.linked hi hnot1 hq1 hshape (h1.fetched_iff.2 hn)), ?_, ?_, ?_⟩
  . rw [Evolves.cached_insertNode, if_pos rfl]
  . rw [File.insertNode, setCache, Lru.Cache.keys_add, hcache]
  . rw [fileStatus_insertNode, hstatus]

variable [LawfulPlatform P]

theorem addNode_loaded (hs : Holds P E s t) (hcalls : s.outside.CallsSucceed) (hi : i ≠ .mht 0)
    (hnot : s.cached i = none) (hhas : s.Has i) (hq : s.loc (.mht i.parent) = some q) {f : HostFile N}
    (hf : s.host.main = some f) :
    ∃ a s', s.nextCall.next.nextCall.addNode (loaded P i q (f.nodes i.physical) (P.pack (t.plain i))) = (some a, s')
      ∧ Fetches t s s' i a ∧ s'.ocalls = s.ocalls + 1 := by
  have hidle : Idle s s.nextCall.next.nextCall.nextCall :=
    (((Idle.nextCall s).trans (Idle.next _)).trans (Idle.nextCall _)).trans (Idle.nextCall _)
  have hcalls' : s.nextCall.next.nextCall.outside.CallsSucceed := by simpa using hcalls
  refine ⟨_, _, addNode_eq (i := i) hcalls' rfl, ?_, rfl⟩
  apply Fetches.insertNode hs.linked hidle (by simp) hi hnot hq
  . simp only [FileNode.shape, loaded, P.unpack_pack, Tree.plain_isData]
  . exact ⟨rfl, P.unpack_pack t i, .inl ⟨rfl, hhas, f, hf, rfl⟩⟩

theorem loadNode_spec (hP : P.GcmCorrect) (hs : Holds P E s t) (henv : s.outside.Serves P E) (hi : i ≠ .mht 0)
    (hnot : s.cached i = none) (hhas : s.Has i) (hq : s.loc (.mht i.parent) = some q) :
    (∃ a s', s.loadNode P i.number i.physical q (t.crypto i) (fun b => P.unpack b i) = (some a, s')
      ∧ Fetches t s s' i a ∧ s'.ocalls = s.ocalls + 1 ∧ s.answer.error32 eio = none)
    ∨ ∃ s', s.loadNode P i.number i.physical q (t.crypto i) (fun b => P.unpack b i) = (none, s')
      ∧ Evolves t s s' ∧ s'.cache.keys = s.cache.keys ∧ ReadFails s s' := by
  have hclean : ¬ s.Dirty i := by
    rintro ⟨n, hn, -⟩
    rw [node?_of_ne hi, hnot] at hn
    cases hn
  rcases hs.disk i hhas hclean with ⟨f, hf, hcount, hseals⟩
  have hdecrypt := hseals.decrypt hP
  rcases addNode_loaded hs henv.calls hi hnot hhas hq hf with ⟨a, s', hadd, hfetches, hocalls⟩
  have hread : Idle s s.nextCall.next := (Idle.nextCall s).trans (Idle.next _)
  rw [loadNode_eq henv.calls]
  rcases freadNode_cases s.nextCall i.physical with ⟨e, hanswer, heq⟩ | ⟨hanswer, b, hb, heq⟩ | ⟨hanswer, hb, heq⟩
  . rw [heq]
    have hidle := hread.trans (Idle.fail _ e)
    refine .inr ⟨_, rfl, Evolves.of_idle hs.linked hidle, by rw [hidle.cache], .refused ?_ (by simp)⟩
    change s.answer.error32 eio = some e at hanswer
    simp [hanswer]
  . rw [heq]
    dsimp only
    cases hplain : P.rijndael128GcmDecrypt (t.crypto i).key b (t.crypto i).gmac with
    | none =>
      have hidle := ((hread.trans (Idle.nextCall _)).trans (Idle.fail _ sgxErrorMacMismatch)).trans
        (Idle.setStatus _ .corrupted)
      refine .inr ⟨_, rfl, Evolves.of_idle hs.linked hidle, by rw [hidle.cache], .forged hanswer ?_ rfl⟩
      change s.answer.bytes = some b at hb
      simp [hb]
    | some plain =>
      -- the only bytes that pass the check are those of the disk
      have hgmac : (P.rijndael128GcmEncrypt (t.crypto i).key (P.pack (t.plain i))).2
          = (t.crypto i).gmac := by rw [hseals.2]
      have hbytes := henv.unforged s.ocalls b hanswer hb _ hseals.1 plain (by rw [hgmac]; exact hplain)
      rw [hseals.2] at hbytes
      subst hbytes
      rw [hdecrypt, Option.some.injEq] at hplain
      subst hplain
      exact .inl ⟨a, s', hadd, hfetches, hocalls, hanswer⟩
  . rw [heq f hf hcount]
    dsimp only
    rw [hdecrypt]
    exact .inl ⟨a, s', hadd, hfetches, hocalls, hanswer⟩

end Load

def mhtLoads (s : File N) : Nat → Nat → List Nat
  | _, 0 => []
  | 0, _ + 1 => []
  | fuel + 1, m + 1 =>
    match s.cached (.mht (m + 1)) with
    | some _ => []
    | none => mhtLoads s fuel (mht (m + 1)).parent ++ [m + 1]

theorem mem_mhtLoads (s : File N) (fuel : Nat) : ∀ m, ∀ x ∈ mhtLoads s fuel m, x ∈ mhtChain fuel m := by
  induction fuel with
  | zero =>
    intro m x hx
    cases m <;> simp [mhtLoads] at hx
  | succ fuel ih =>
    intro m x hx
    cases m with
    | zero => simp [mhtLoads] at hx
    | succ m =>
      rw [mhtLoads] at hx
      rw [mhtChain, mem_cons]
      split at hx
      . simp at hx
      rw [mem_append, mem_singleton] at hx
      rcases hx with hx | hx
      . exact .inr (ih _ x hx)
      . exact .inl hx

structure Reads (t : Tree) (s s' : File N) (ms : List Nat) : Prop where
  evolves : Evolves t s s'
  keys : s'.cache.keys = (ms.map physicalMhtNode).reverse ++ s.cache.keys
  ocalls : s'.ocalls = s.ocalls + ms.length
  status : s'.fileStatus = s.fileStatus
  served : ∀ k < ms.length, (s.outside.ocall (s.ocalls + k)).error32 eio = none

theorem Reads.nil {t : Tree} {s : File N} (hs : Linked s) : Reads t s s [] :=
  ⟨Evolves.refl hs, rfl, rfl, rfl, by simp⟩

structure Stops (t : Tree) (s s' : File N) (ms : List Nat) : Prop where
  evolves : Evolves t s s'
  keys : s'.cache.keys = (ms.map physicalMhtNode).reverse ++ s.cache.keys
  served : ∀ k < ms.length, (s.outside.ocall (s.ocalls + k)).error32 eio = none
  fails :
    ((s.outside.ocall (s.ocalls + ms.length)).error32 eio ≠ none ∧ s'.fileStatus = s.fileStatus)
    ∨ ((s.outside.ocall (s.ocalls + ms.length)).error32 eio = none
      ∧ (s.outside.ocall (s.ocalls + ms.length)).bytes ≠ none ∧ s'.fileStatus = .corrupted)

theorem Reads.stops {t : Tree} {s s1 s' : File N} {ms : List Nat} (h : Reads t s s1 ms)
    (h' : Evolves t s1 s') (hkeys : s'.cache.keys = s1.cache.keys) (hfails : ReadFails s1 s') :
    Stops t s s' ms where
  evolves := h.evolves.trans h'
  keys := hkeys.trans h.keys
  served := h.served
  fails := by
    have hanswer : s1.answer = s.outside.ocall (s.ocalls + ms.length) := by rw [answer, h.evolves.outside, h.ocalls]
    rcases hfails with ⟨hr, hstatus⟩ | ⟨hr, hf, hstatus⟩
    . rw [hanswer] at hr
      exact .inl ⟨hr, hstatus.trans h.status⟩
    rw [hanswer] at hr hf
    exact .inr ⟨hr, hf, hstatus⟩

section ReadMht

variable {P : Platform N} [LawfulPlatform P] {E : Key × N → Prop} {t : Tree}

variable {s : File N} {m : Nat}

theorem Reads.concat {s1 s' : File N} {ms : List Nat} {a : Addr} (h : Reads t s s1 ms)
    (h' : Fetches t s1 s' (.mht m) a) (hocalls : s'.ocalls = s1.ocalls + 1)
    (hserved : s1.answer.error32 eio = none) : Reads t s s' (ms ++ [m]) where
  evolves := h.evolves.trans h'.evolves
  keys := by
    rw [h'.keys, h.keys]
    simp [physical]
  ocalls := by rw [hocalls, h.ocalls, length_append, length_singleton, Nat.add_assoc]
  status := h'.status.trans h.status
  served k hk := by
    rw [length_append, length_singleton] at hk
    by_cases hlast : k = ms.length
    . rw [answer, h.evolves.outside, h.ocalls] at hserved
      rw [hlast]
      exact hserved
    . exact h.served k (by omega)

theorem readMhtNode_go_spec (hP : P.GcmCorrect) (fuel : Nat) :
    ∀ (m : Nat) (s : File N), m ≤ fuel → Holds P E s t → s.outside.Serves P E → s.Has (.mht m) →
      (∃ p s', readMhtNode.go P fuel m s = (some p, s') ∧ s'.loc (.mht m) = some p ∧ Reads t s s' (mhtLoads s fuel m))
      ∨ ∃ ms s', readMhtNode.go P fuel m s = (none, s') ∧ Stops t s s' ms
        ∧ ms <+: mhtLoads s fuel m ∧ ms.length < (mhtLoads s fuel m).length := by
  induction fuel with
  | zero =>
    intro m s hm hs _ _
    have hm0 : m = 0 := by omega
    subst hm0
    exact .inl ⟨.root, s, rfl, loc_root s, Reads.nil hs.linked⟩
  | succ fuel ih =>
    intro m s hm hs henv hhas
    cases m with
    | zero => exact .inl ⟨.root, s, by simp [readMhtNode.go], loc_root s, Reads.nil hs.linked⟩
    | succ m =>
      rw [readMhtNode.go, mhtLoads]
      have hfind : s.cache.find (physicalMhtNode (m + 1)) = s.cached (.mht (m + 1)) := rfl
      rw [hfind]
      cases hcached : s.cached (.mht (m + 1)) with
      | some a =>
        exact .inl ⟨.node a, s, rfl, hs.linked.loc_of_cached hcached, Reads.nil hs.linked⟩
      | none =>
        dsimp only
        have hlt := parent_mht_lt (m := m + 1) (by omega)
        have hhas' : s.Has (.mht (mht (m + 1)).parent) :=
          Nat.lt_of_le_of_lt (firstOffset_parent_le (.mht (m + 1))) hhas
        rcases ih _ s (parent_mht_succ_le hm) hs henv hhas'
          with ⟨q, s1, heq, hloc, hreads⟩ | ⟨ms, s1, heq, hstops, hpre, hlen⟩
        . rw [heq]
          have hs1 := hreads.evolves.holds hs
          have hnot : s1.cached (.mht (m + 1)) = none := by
            rw [cached, hs1.linked.wf.data?_eq_none_iff, hreads.keys, mem_append, not_or]
            refine ⟨?_, (hs.linked.wf.data?_eq_none_iff _).1 hcached⟩
            rw [mem_reverse, mem_map]
            rintro ⟨x, hx, hxm⟩
            have hxm' : mht x = .mht (m + 1) := physical_injective hxm
            rw [mht.injEq] at hxm'
            have := mem_mhtChain_le fuel _ x (mem_mhtLoads s fuel _ x hx)
            omega
          have hcrypto : (s1.mhtNode q).plain.toMht.mhtCrypto (m + 1) = t.crypto (.mht (m + 1)) := by
            rw [hs1.plain _ _ (node?_of_loc hloc), Tree.crypto, if_neg (by simp)]
            rfl
          dsimp only
          rw [hcrypto]
          have henv1 : s1.outside.Serves P E := hreads.evolves.outside ▸ henv
          rcases loadNode_spec hP hs1 henv1 (by simp) hnot ((hreads.evolves.has_iff _).2 hhas) hloc
            with ⟨a, s', hload, hfetches, hocalls, hserved⟩ | ⟨s', hload, hevolves, hkeys, hfails⟩
          . refine .inl ⟨.node a, s', ?_, ?_, hreads.concat hfetches hocalls hserved⟩
            . exact congrArg (fun r => (r.1.map MhtPtr.node, r.2)) hload
            . exact hfetches.evolves.linked.loc_of_cached hfetches.cached
          refine .inr ⟨_, s', ?_, hreads.stops hevolves hkeys hfails, ?_, ?_⟩
          . exact congrArg (fun r => (r.1.map MhtPtr.node, r.2)) hload
          . exact prefix_append _ _
          . simp
        . rw [heq]
          refine .inr ⟨ms, s1, rfl, hstops, hpre.trans (prefix_append _ _), ?_⟩
          rw [length_append]
          omega

structure HasMht (t : Tree) (s s' : File N) (m : Nat) (p : MhtPtr) : Prop where
  evolves : Evolves t s s'
  loc : s'.loc (.mht m) = some p
  status : s'.fileStatus = s.fileStatus
  keys : ∃ xs, s'.cache.keys = xs ++ s.cache.keys
    ∧ ∀ x ∈ xs, x ∈ (mhtChain m m).map physicalMhtNode

omit [LawfulPlatform P] in
theorem Reads.hasMht {s' : File N} {p : MhtPtr} (h : Reads t s s' (s.mhtLoads m m))
    (hloc : s'.loc (.mht m) = some p) : HasMht t s s' m p := by
  refine ⟨h.evolves, hloc, h.status, _, h.keys, ?_⟩
  intro x hx
  rw [mem_reverse, mem_map] at hx
  rcases hx with ⟨y, hy, rfl⟩
  exact mem_map_of_mem (mem_mhtLoads s m m y hy)

omit [LawfulPlatform P] in
theorem appendNode_spec (hs : Holds P E s t) (hcalls : s.outside.CallsSucceed) {i : NodeId} {q : MhtPtr}
    (hi : i ≠ .mht 0) (hnot : s.cached i = none) (hend : i.firstOffset = s.encryptedPartPlain.size)
    (hq : s.loc (.mht i.parent) = some q) :
    ∃ a s', s.appendNode P i.number i.physical q i.zero = (some a, s') ∧ Fetches t s s' i a := by
  have hplain : t.plain i = i.zero := hs.tail i (by rw [Has, hend]; exact lt_irrefl _)
  have hidle : Idle s s.nextCall.nextCall := (Idle.nextCall s).trans (Idle.nextCall _)
  have hcalls' : s.nextCall.outside.CallsSucceed := by simpa using hcalls
  unfold appendNode new
  simp only [outcome, (hcalls s.calls).1, decide_true]
  refine ⟨_, _, addNode_eq (i := i) hcalls' rfl, ?_⟩
  apply Fetches.insertNode hs.linked hidle (by simp) hi hnot hq
  . simp only [FileNode.shape, ← hplain, Tree.plain_isData]
  . exact ⟨rfl, hplain.symm, .inr ⟨rfl, hend⟩⟩

theorem getMhtNode_read (hP : P.GcmCorrect) (hs : Holds P E s t) (henv : s.outside.Serves P E)
    (hmin : mdUserDataSize ≤ s.offset)
    (hread : ¬ ((s.offset - mdUserDataSize) % (attachedDataNodesCount * nodeSize) = 0
      ∧ s.offset = s.encryptedPartPlain.size)) (hm : (getNodeNumbers s.offset).mhtNodeNumber = m)
    (hhas : s.Has (.mht m)) :
    (∃ p s', s.getMhtNode P = (some p, s') ∧ s'.loc (.mht m) = some p ∧ Reads t s s' (s.mhtLoads m m))
    ∨ ∃ ms s', s.getMhtNode P = (none, s') ∧ Stops t s s' ms ∧ ms <+: s.mhtLoads m m
      ∧ ms.length < (s.mhtLoads m m).length := by
  rw [getMhtNode, if_neg (Nat.not_lt.2 hmin)]
  dsimp only
  rw [hm]
  split
  . next h0 =>
    subst h0
    exact .inl ⟨.root, s, rfl, loc_root s, Reads.nil hs.linked⟩
  . exact readMhtNode_go_spec hP m m s le_rfl hs henv hhas

theorem getMhtNode_append (hP : P.GcmCorrect) (hs : Holds P E s t) (henv : s.outside.Serves P E)
    (hmin : mdUserDataSize ≤ s.offset)
    (halign : (s.offset - mdUserDataSize) % (attachedDataNodesCount * nodeSize) = 0)
    (hend : s.offset = s.encryptedPartPlain.size) (hno : ∀ i a, s.cached i = some a → s.Has i)
    (hm : (getNodeNumbers s.offset).mhtNodeNumber = m) :
    (∃ p s', s.getMhtNode P = (some p, s') ∧ HasMht t s s' m p)
    ∨ ∃ ms s', s.getMhtNode P = (none, s') ∧ Stops t s s' ms ∧ ms <+: s.mhtLoads (mht m).parent (mht m).parent
      ∧ ms.length < (s.mhtLoads (mht m).parent (mht m).parent).length := by
  rw [getMhtNode, if_neg (Nat.not_lt.2 hmin)]
  dsimp only
  rw [hm]
  split
  . next h0 =>
    subst h0
    exact .inl ⟨.root, s, rfl, Reads.hasMht (Reads.nil hs.linked) (loc_root s)⟩
  next h0 =>
  rw [if_pos ⟨halign, hend⟩, appendMhtNode, readMhtNode]
  have hfirst : (mht m).firstOffset = s.encryptedPartPlain.size := by
    rw [← hend, ← hm]
    exact (firstOffset_mht_eq_iff hmin).2 halign
  have hhas : s.Has (.mht (mht m).parent) := by
    rw [Has, ← hfirst]
    exact firstOffset_mht_mono (parent_mht_lt h0)
  rcases readMhtNode_go_spec hP _ _ s le_rfl hs henv hhas
    with ⟨q, s1, heq, hloc, hreads⟩ | ⟨ms, s1, heq, hstops, hpre, hlen⟩
  . rw [heq]
    dsimp only
    have hs1 := hreads.evolves.holds hs
    have hroot : mht m ≠ .mht 0 := by simpa using h0
    have hmd := hreads.evolves.md
    have hnot : s1.cached (.mht m) = none := by
      rw [cached, hs1.linked.wf.data?_eq_none_iff, hreads.keys, mem_append, not_or]
      constructor
      . rw [mem_reverse, mem_map]
        rintro ⟨x, hx, hxm⟩
        have hxm' : mht x = .mht m := physical_injective hxm
        rw [mht.injEq] at hxm'
        have := mem_mhtChain_le _ _ x (mem_mhtLoads s _ _ x hx)
        have := parent_mht_lt h0
        omega
      . intro hmem
        rcases (hs.linked.wf.mem_keys_iff _).1 hmem with ⟨a, ha⟩
        have : s.Has (.mht m) := hno _ a ha
        rw [Has, hfirst] at this
        exact lt_irrefl _ this
    rcases appendNode_spec hs1 (hreads.evolves.outside ▸ henv.calls) hroot hnot
      (by rw [hmd]; exact hfirst) hloc with ⟨a, s', happend, hfetches⟩
    refine .inl ⟨.node a, s', ?_, hreads.evolves.trans hfetches.evolves, ?_, ?_, ?_⟩
    . exact congrArg (fun r => (r.1.map MhtPtr.node, r.2)) happend
    . exact hfetches.evolves.linked.loc_of_cached hfetches.cached
    . exact hfetches.status.trans hreads.status
    rcases (hreads.hasMht hloc).keys with ⟨xs, hxs, hchain⟩
    refine ⟨physicalMhtNode m :: xs, by rw [hfetches.keys, hxs]; rfl, ?_⟩
    intro x hx
    rw [mhtChain_self h0, map_cons, mem_cons]
    rw [mem_cons] at hx
    exact hx.imp_right (hchain x)
  . rw [heq]
    exact .inr ⟨ms, s1, rfl, hstops, hpre, hlen⟩

end ReadMht

def Appends (s : File N) : Prop :=
  (s.offset - mdUserDataSize) % nodeSize = 0 ∧ s.offset = s.encryptedPartPlain.size

instance (s : File N) : Decidable s.Appends := inferInstanceAs (Decidable (_ ∧ _))

def lookupLoads (s : File N) : List Nat :=
  let m := (getNodeNumbers s.offset).mhtNodeNumber
  if s.Appends then
    if (s.offset - mdUserDataSize) % (attachedDataNodesCount * nodeSize) = 0 then
      s.mhtLoads (mht m).parent (mht m).parent
    else s.mhtLoads m m
  else if (s.cached (.atOffset s.offset)).isSome then []
  else s.mhtLoads m m

def lookupReads (s : File N) : Nat :=
  if s.Appends ∨ (s.cached (.atOffset s.offset)).isSome then s.lookupLoads.length
  else s.lookupLoads.length + 1

structure Found (t : Tree) (s s' : File N) (a : Addr) : Prop where
  evolves : Evolves t s s'
  cached : s'.cached (.atOffset s.offset) = some a
  status : s'.fileStatus = s.fileStatus
  keys : ∃ ks, s'.cache.keys = (atOffset s.offset).physical :: ks
    ∧ List.Sublist
      (ks.filter (fun key => key ∉ (atOffset s.offset).ancestors.map physicalMhtNode))
      s.cache.keys

theorem HasMht.cached_eq_none {t : Tree} {s s' : File N} {m : Nat} {p : MhtPtr}
    (h : HasMht t s s' m p) (hs : Linked s) {offset : Nat}
    (hnot : s.cached (.atOffset offset) = none) : s'.cached (.atOffset offset) = none := by
  rcases h.keys with ⟨xs, hxs, hchain⟩
  rw [cached, h.evolves.linked.wf.data?_eq_none_iff, hxs, mem_append, not_or]
  refine ⟨?_, (hs.wf.data?_eq_none_iff _).1 hnot⟩
  intro hx
  rcases mem_map.1 (hchain _ hx) with ⟨x, -, hx'⟩
  exact mht_ne_atOffset x offset (physical_injective hx')

section Find

variable {P : Platform N} [LawfulPlatform P] {E : Key × N → Prop} {s : File N} {t : Tree}

theorem Found.of_fetches {s1 s' : File N} {p : MhtPtr} {a : Addr}
    (h : HasMht t s s1 (getNodeNumbers s.offset).mhtNodeNumber p)
    (h' : Fetches t s1 s' (.atOffset s.offset) a) : Found t s s' a := by
  refine ⟨h.evolves.trans h'.evolves, h'.cached, h'.status.trans h.status, _, h'.keys, ?_⟩
  rcases h.keys with ⟨xs, hxs, hchain⟩
  have hdrop : xs.filter (fun key =>
      key ∉ (atOffset s.offset).ancestors.map physicalMhtNode) = [] := by
    rw [filter_eq_nil_iff]
    intro x hx
    rw [decide_eq_true_eq, not_not]
    exact hchain x hx
  rw [hxs, filter_append, hdrop, nil_append]
  exact filter_sublist

omit [LawfulPlatform P] in
theorem Found.of_cached (hs : Holds P E s t) {a : Addr} (ha : s.cached (.atOffset s.offset) = some a) :
    Found t s (s.setCache (s.cache.get (atOffset s.offset).physical).2) a := by
  refine ⟨Evolves.get hs.linked _, ?_, rfl, _, hs.linked.wf.get_keys (hs.linked.wf.mem_keys ha), ?_⟩
  . rw [File.cached, setCache, hs.linked.wf.get_data?]
    exact ha
  . exact filter_sublist.trans filter_sublist

omit [LawfulPlatform P] in
theorem has_of_not_appends (hmin : mdUserDataSize ≤ s.offset)
    (hmax : s.offset ≤ s.encryptedPartPlain.size) (h : ¬ s.Appends) :
    s.Has (.atOffset s.offset) := by
  simp only [Has, Appends, atOffset, firstOffset, getNodeNumbers, mdUserDataSize, nodeSize] at *
  omega

theorem appendDataNode_spec (hP : P.GcmCorrect) (hs : Holds P E s t)
    (henv : s.outside.Serves P E) (hmin : mdUserDataSize ≤ s.offset) (happends : s.Appends)
    (hno : ∀ i a, s.cached i = some a → s.Has i) :
    (∃ a s', s.appendDataNode P = (some a, s') ∧ Found t s s' a)
    ∨ ∃ ms s', s.appendDataNode P = (none, s') ∧ Stops t s s' ms ∧ ms <+: s.lookupLoads
      ∧ ms.length < s.lookupReads := by
  have hend := happends.2
  have hfirst : (atOffset s.offset).firstOffset = s.encryptedPartPlain.size := by
    rw [← hend]
    exact firstOffset_atOffset_of_aligned hmin happends.1
  have hnot : s.cached (.atOffset s.offset) = none := by
    cases hcached : s.cached (.atOffset s.offset) with
    | none => rfl
    | some a =>
      have := hno _ a hcached
      rw [Has, hfirst] at this
      exact absurd this (lt_irrefl _)
  -- the data node is appended below its MHT node once that is in memory
  have hdone : ∀ p s1, s.getMhtNode P = (some p, s1) → HasMht t s s1 (getNodeNumbers s.offset).mhtNodeNumber p →
      ∃ a s', s.appendDataNode P = (some a, s') ∧ Found t s s' a := by
    intro p s1 heq hmht
    have hs1 := hmht.evolves.holds hs
    have hoffset : s1.offset = s.offset := congrArg Fixed.offset hmht.evolves.fixed
    have hnot1 := hmht.cached_eq_none hs.linked hnot
    rcases appendNode_spec (i := .atOffset s.offset) hs1 (hmht.evolves.outside ▸ henv.calls)
      (mht_ne_atOffset 0 s.offset).symm hnot1 (by rw [hmht.evolves.md]; exact hfirst) hmht.loc
      with ⟨a, s', happend, hfetches⟩
    refine ⟨a, s', ?_, Found.of_fetches hmht hfetches⟩
    rw [appendDataNode, heq]
    dsimp only
    rw [hoffset]
    exact happend
  have hreads : s.lookupReads = s.lookupLoads.length := by rw [lookupReads, if_pos (.inl happends)]
  rw [hreads, lookupLoads, if_pos happends]
  by_cases halign : (s.offset - mdUserDataSize) % (attachedDataNodesCount * nodeSize) = 0
  . rw [if_pos halign]
    rcases getMhtNode_append hP hs henv hmin halign hend hno rfl
      with ⟨p, s1, heq, hmht⟩ | ⟨ms, s1, heq, hstops, hpre, hlen⟩
    . exact .inl (hdone p s1 heq hmht)
    . exact .inr ⟨ms, s1, by rw [appendDataNode, heq], hstops, hpre, hlen⟩
  rw [if_neg halign]
  have hhas : s.Has (.mht (getNodeNumbers s.offset).mhtNodeNumber) := by
    rw [Has, ← hend]
    apply Nat.lt_of_le_of_ne
    . exact (firstOffset_mht_le le_rfl).trans (firstOffset_atOffset_le hmin)
    . exact fun h => halign ((firstOffset_mht_eq_iff hmin).1 h)
  rcases getMhtNode_read hP hs henv hmin (fun h => halign h.1) rfl hhas
    with ⟨p, s1, heq, hloc, hreads⟩ | ⟨ms, s1, heq, hstops, hpre, hlen⟩
  . exact .inl (hdone p s1 heq (hreads.hasMht hloc))
  . exact .inr ⟨ms, s1, by rw [appendDataNode, heq], hstops, hpre, hlen⟩

theorem readDataNode_spec (hP : P.GcmCorrect) (hs : Holds P E s t) (henv : s.outside.Serves P E)
    (hmin : mdUserDataSize ≤ s.offset) (hmax : s.offset ≤ s.encryptedPartPlain.size)
    (happends : ¬ s.Appends) :
    (∃ a s', s.readDataNode P = (some a, s') ∧ Found t s s' a)
    ∨ ∃ ms s', s.readDataNode P = (none, s') ∧ Stops t s s' ms ∧ ms <+: s.lookupLoads ∧ ms.length < s.lookupReads := by
  have hhas := has_of_not_appends hmin hmax happends
  have hget := hs.linked.wf.get_fst (atOffset s.offset).physical
  have hroot := (mht_ne_atOffset 0 s.offset).symm
  rw [readDataNode, ← physical_atOffset]
  generalize hres : s.cache.get (atOffset s.offset).physical = res at hget ⊢
  rcases res with ⟨r, c⟩
  dsimp only at hget
  change r = s.cached (.atOffset s.offset) at hget
  cases hcached : s.cached (.atOffset s.offset) with
  | some a =>
    rw [hcached] at hget
    subst hget
    refine .inl ⟨a, s.setCache c, rfl, ?_⟩
    have hfound := Found.of_cached hs hcached
    rwa [hres] at hfound
  | none =>
    rw [hcached] at hget
    subst hget
    have hread : ¬ ((s.offset - mdUserDataSize) % (attachedDataNodesCount * nodeSize) = 0
        ∧ s.offset = s.encryptedPartPlain.size) := by
      rintro ⟨halign, hend⟩
      apply happends
      refine ⟨?_, hend⟩
      simp only [attachedDataNodesCount, nodeSize] at halign ⊢
      omega
    have hhasMht : s.Has (.mht (getNodeNumbers s.offset).mhtNodeNumber) :=
      Nat.lt_of_le_of_lt (firstOffset_mht_le le_rfl) hhas
    have hloads : s.lookupLoads = s.mhtLoads (getNodeNumbers s.offset).mhtNodeNumber
        (getNodeNumbers s.offset).mhtNodeNumber := by simp [lookupLoads, happends, hcached]
    have hreads : s.lookupReads = s.lookupLoads.length + 1 := by simp [lookupReads, happends, hcached]
    rw [hreads, hloads]
    dsimp only
    rcases getMhtNode_read hP hs henv hmin hread rfl hhasMht
      with ⟨p, s1, heq, hloc, hreads⟩ | ⟨ms, s1, heq, hstops, hpre, hlen⟩
    . rw [heq]
      dsimp only
      have hmht := hreads.hasMht hloc
      have hs1 := hreads.evolves.holds hs
      have hnot := hmht.cached_eq_none hs.linked hcached
      have hcrypto : (s1.mhtNode p).plain.toMht.dataCrypto (getNodeNumbers s.offset).dataNodeNumber
          = t.crypto (.atOffset s.offset) := by
        rw [hs1.plain _ _ (node?_of_loc hloc), Tree.crypto, if_neg hroot]
        rfl
      rw [hcrypto]
      rcases loadNode_spec (i := .atOffset s.offset) hP hs1 (hreads.evolves.outside ▸ henv) hroot
        hnot ((hreads.evolves.has_iff _).2 hhas) hloc
        with ⟨a, s', hload, hfetches, -, -⟩ | ⟨s', hload, hevolves, hkeys, hfails⟩
      . exact .inl ⟨a, s', hload, Found.of_fetches hmht hfetches⟩
      . exact .inr ⟨_, s', hload, hreads.stops hevolves hkeys hfails, prefix_refl _, Nat.lt_succ_self _⟩
    . rw [heq]
      exact .inr ⟨ms, s1, rfl, hstops, hpre, Nat.lt_succ_of_lt hlen⟩

theorem findDataNode_spec (hP : P.GcmCorrect) (hs : Holds P E s t) (henv : s.outside.Serves P E)
    (hmin : mdUserDataSize ≤ s.offset) (hmax : s.offset ≤ s.encryptedPartPlain.size)
    (hno : s.Appends → ∀ i a, s.cached i = some a → s.Has i) :
    (∃ a s', s.findDataNode P = (some a, s') ∧ Found t s s' a)
    ∨ ∃ ms s', s.findDataNode P = (none, s') ∧ Stops t s s' ms ∧ ms <+: s.lookupLoads ∧ ms.length < s.lookupReads := by
  unfold findDataNode
  split
  . next h => exact appendDataNode_spec hP hs henv hmin h (hno h)
  . next h => exact readDataNode_spec hP hs henv hmin hmax h

end Find

end File
end ProtectedFs
