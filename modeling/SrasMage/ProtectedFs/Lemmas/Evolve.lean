import SrasMage.ProtectedFs.Lemmas.FlushSpec

/-!
This module contains what a lookup does to the nodes in memory.
-/

namespace ProtectedFs

variable {N : Type}

namespace File

structure Fetched (s : File N) (t : Tree) (i : NodeId) (n : FileNode N) : Prop where
  needWriting : n.needWriting = false
  plain : n.plain = t.plain i
  origin :
    (n.newNode = false ∧ s.Has i ∧ ∃ f, s.host.main = some f ∧ n.encrypted = f.nodes i.physical)
    ∨ (n.newNode = true ∧ i.firstOffset = s.encryptedPartPlain.size)

namespace Fetched

variable {s : File N} {t : Tree} {i : NodeId} {n : FileNode N}

theorem sameCipher (h : Fetched s t i n) (hold : n.newNode = false) : s.SameCipher i n := by
  rcases h.origin with ⟨-, -, hf⟩ | ⟨hnew, -⟩
  . exact hf
  rw [hold] at hnew
  cases hnew

theorem has (h : Fetched s t i n) (hold : n.newNode = false) : s.Has i := by
  rcases h.origin with ⟨-, hhas, -⟩ | ⟨hnew, -⟩
  . exact hhas
  rw [hold] at hnew
  cases hnew

theorem not_has (h : Fetched s t i n) (hnew : n.newNode = true) : ¬ s.Has i := by
  rcases h.origin with ⟨hold, -, -⟩ | ⟨-, hend⟩
  . rw [hnew] at hold
    cases hold
  rw [Has, hend]
  exact lt_irrefl _

end Fetched

def still (s : File N) : File N :=
  { s.quiet with
    cache := Lru.Cache.empty
    heap := fun _ => s.rootMht
    nextAddr := 0
    fileStatus := .ok }

theorem still_setCache (s : File N) (c : Lru.Cache Nat Addr) : (s.setCache c).still = s.still := by
  simp only [still, quiet, setCache]

theorem still_alloc (s : File N) (n : FileNode N) : (s.alloc n).still = s.still := by
  simp only [still, quiet, alloc, setNode]

structure Idle (s s' : File N) : Prop where
  quiet : (s'.setStatus .ok).quiet = (s.setStatus .ok).quiet
  log : s'.encryptLog = s.encryptLog

namespace Idle

variable {s s' s'' : File N}

theorem trans (h : Idle s s') (h' : Idle s' s'') : Idle s s'' :=
  ⟨h'.quiet.trans h.quiet, h'.log.trans h.log⟩

theorem next (s : File N) : Idle s s.next := ⟨rfl, rfl⟩

theorem nextCall (s : File N) : Idle s s.nextCall := ⟨rfl, rfl⟩

theorem fail (s : File N) (e : Error) : Idle s (s.fail e) := ⟨rfl, rfl⟩

theorem setStatus (s : File N) (status : FileStatus) : Idle s (s.setStatus status) := ⟨rfl, rfl⟩

theorem congr {α : Type} (h : Idle s s') {f : File N → α}
    (hf : ∀ u : File N, f (u.setStatus .ok).quiet = f u) : f s' = f s := by rw [← hf, h.quiet, hf]

theorem cache (h : Idle s s') : s'.cache = s.cache := h.congr (fun _ => rfl)

end Idle

def insertNode (s : File N) (i : NodeId) (n : FileNode N) : File N :=
  (s.alloc n).setCache (s.cache.add i.physical s.nextAddr)

@[simp]
theorem fileStatus_insertNode (s : File N) (i : NodeId) (n : FileNode N) :
    (s.insertNode i n).fileStatus = s.fileStatus := rfl

structure Evolves (t : Tree) (s s' : File N) : Prop where
  linked : Linked s'
  still : s'.still = s.still
  log : s'.encryptLog = s.encryptLog
  old : ∀ i a, s'.cached i = some a →
    (s.cached i = some a ∧ s'.heap a = s.heap a) ∨ Fetched s t i (s'.heap a)
  dirty : ∀ i a, s.cached i = some a → (s.heap a).needWriting = true →
    s'.cached i = some a ∧ s'.heap a = s.heap a

theorem congr_still {α : Type} {s s' : File N} (h : s'.still = s.still) {f : File N → α}
    (hf : ∀ u : File N, f u.still = f u) : f s' = f s := by rw [← hf, h, hf]

namespace Evolves

variable {P : Platform N} {E : Key × N → Prop} {s s' s'' : File N} {t : Tree}

theorem refl (hs : Linked s) : Evolves t s s :=
  ⟨hs, rfl, rfl, fun _ _ h => .inl ⟨h, rfl⟩, fun _ _ h _ => ⟨h, rfl⟩⟩

section

variable (h : Evolves t s s')
include h

theorem md : s'.encryptedPartPlain = s.encryptedPartPlain :=
  congr_still h.still (fun _ => rfl)

theorem host : s'.host = s.host := congr_still h.still (fun _ => rfl)

theorem rootMht : s'.rootMht = s.rootMht := congr_still h.still (fun _ => rfl)

theorem needWriting : s'.needWriting = s.needWriting :=
  congr_still h.still (fun _ => rfl)

theorem fixed : s'.fixed = s.fixed := congr_still h.still (fun _ => rfl)

theorem outside : s'.outside = s.outside := congr_still h.still (fun _ => rfl)

theorem has_iff (i : NodeId) : s'.Has i ↔ s.Has i := by rw [Has, Has, h.md]

theorem fetched_iff {i : NodeId} {n : FileNode N} : Fetched s' t i n ↔ Fetched s t i n := by
  constructor
  . rintro ⟨hneed, hplain, horigin⟩
    rw [h.has_iff, h.host, h.md] at horigin
    exact ⟨hneed, hplain, horigin⟩
  rintro ⟨hneed, hplain, horigin⟩
  rw [← h.has_iff, ← h.host, ← h.md] at horigin
  exact ⟨hneed, hplain, horigin⟩

theorem trans (h' : Evolves t s' s'') : Evolves t s s'' where
  linked := h'.linked
  still := h'.still.trans h.still
  log := h'.log.trans h.log
  old i a hi := by
    rcases h'.old i a hi with ⟨hi', heap⟩ | hf
    . rcases h.old i a hi' with ⟨hi'', heap'⟩ | hf
      . exact .inl ⟨hi'', heap.trans heap'⟩
      . exact .inr (heap ▸ hf)
    . exact .inr (h.fetched_iff.1 hf)
  dirty i a hi hneed := by
    rcases h.dirty i a hi hneed with ⟨hi', heap⟩
    rcases h'.dirty i a hi' (heap ▸ hneed) with ⟨hi'', heap'⟩
    exact ⟨hi'', heap'.trans heap⟩

theorem dirty_iff (i : NodeId) : s'.Dirty i ↔ s.Dirty i := by
  by_cases hi : i = .mht 0
  . subst hi
    rw [dirty_root, dirty_root, h.rootMht]
  constructor
  . rintro ⟨n, hn, hneed⟩
    rw [node?_of_ne hi, Option.map_eq_some_iff] at hn
    rcases hn with ⟨a, ha, rfl⟩
    rcases h.old i a ha with ⟨ha', heap⟩ | hf
    . exact ⟨_, File.node?_of_cached hi ha', heap ▸ hneed⟩
    rw [hf.needWriting] at hneed
    cases hneed
  . rintro ⟨n, hn, hneed⟩
    rw [node?_of_ne hi, Option.map_eq_some_iff] at hn
    rcases hn with ⟨a, ha, rfl⟩
    rcases h.dirty i a ha hneed with ⟨ha', heap⟩
    exact ⟨_, File.node?_of_cached hi ha', heap ▸ hneed⟩

theorem node?_cases {i : NodeId} {n : FileNode N} (hn : s'.node? i = some n) :
    s.node? i = some n ∨ Fetched s t i n := by
  by_cases hi : i = .mht 0
  . subst hi
    rw [node?_root] at hn ⊢
    rw [← h.rootMht]
    exact .inl hn
  rw [node?_of_ne hi, Option.map_eq_some_iff] at hn
  rcases hn with ⟨a, ha, rfl⟩
  rcases h.old i a ha with ⟨ha', heap⟩ | hf
  . rw [heap]
    exact .inl (File.node?_of_cached hi ha')
  . exact .inr hf

theorem holds (hs : Holds P E s t) : Holds P E s' t where
  linked := h.linked
  root := by
    rw [h.md]
    exact hs.root
  plain i n hn := by
    rcases h.node?_cases hn with hn' | hf
    . exact hs.plain i n hn'
    . exact hf.plain
  tail i hi := hs.tail i ((h.has_iff i).not.1 hi)
  main := by
    rw [h.host]
    exact hs.main
  disk i hi hclean := by
    rw [OnDisk, h.host]
    exact hs.disk i ((h.has_iff i).1 hi) ((h.dirty_iff i).not.1 hclean)
  cipher i n hn hneed hold := by
    rw [SameCipher, h.host]
    rcases h.node?_cases hn with hn' | hf
    . exact hs.cipher i n hn' hneed hold
    . exact hf.sameCipher hold
  old i n hn hold := by
    rw [h.has_iff]
    rcases h.node?_cases hn with hn' | hf
    . exact hs.old i n hn' hold
    . exact hf.has hold
  new i n hn hnew hneed := by
    rw [h.has_iff]
    rcases h.node?_cases hn with hn' | hf
    . exact hs.new i n hn' hnew hneed
    . exact hf.not_has hnew

theorem closed (hs : Closed s) : Closed s' where
  has i hi := (h.has_iff i).2 (hs.has i ((h.dirty_iff i).1 hi))
  parent i hi := (h.dirty_iff _).2 (hs.parent i ((h.dirty_iff i).1 hi))
  flag hi := by
    rw [h.needWriting]
    exact hs.flag ((h.dirty_iff _).1 hi)

theorem ready (hs : Ready P E s t) : Ready P E s' t := by
  have hmeta : s'.fileMetaData = s.fileMetaData := congr_still h.still (fun _ => rfl)
  have hkdk : s'.kdk = s.kdk := congr_still h.still (fun _ => rfl)
  refine ⟨h.holds hs.holds, h.closed hs.closed, ?_, ?_, ?_⟩
  . rw [hmeta, hkdk]
    exact hs.header
  . intro hneed
    rw [h.needWriting] at hneed
    have hsaved := hs.saved hneed
    refine ⟨?_, ?_⟩
    . rw [MetaOnDisk, h.host, hmeta]
      exact hsaved.onDisk
    rw [hmeta, hkdk, h.md]
    exact hsaved.seals
  . intro i n hn hold
    rw [SameCipher, h.host]
    rcases h.node?_cases hn with hn' | hf
    . exact hs.cipher i n hn' hold
    . exact hf.sameCipher hold

end

theorem of_idle (hs : Linked s) (h : Idle s s') : Evolves t s s' where
  linked := hs.of_memory (h.congr (fun _ => rfl))
  still := h.congr (fun _ => rfl)
  log := h.log
  old i a hi := by
    rw [h.congr (f := fun u => u.cached i) (fun _ => rfl)] at hi
    exact .inl ⟨hi, h.congr (f := fun u => u.heap a) (fun _ => rfl)⟩
  dirty i a hi _ := by
    rw [h.congr (f := fun u => u.cached i) (fun _ => rfl)]
    exact ⟨hi, h.congr (f := fun u => u.heap a) (fun _ => rfl)⟩

theorem cached_insertNode (i : NodeId) (n : FileNode N) (j : NodeId) :
    (s.insertNode i n).cached j = if j = i then some s.nextAddr else s.cached j := by
  rw [cached, insertNode, File.setCache, Lru.Cache.data?_add]
  by_cases hj : j = i
  . simp [hj]
  rw [if_neg (fun h => hj (NodeId.physical_injective h)), if_neg hj]
  rfl

theorem heap_insertNode (i : NodeId) (n : FileNode N) (a : Addr) :
    (s.insertNode i n).heap a = if a = s.nextAddr then n else s.heap a := by
  by_cases ha : a = s.nextAddr <;> simp [insertNode, setCache, alloc, setNode, ha]

theorem loc_insertNode {i : NodeId} (hi : i ≠ .mht 0) (n : FileNode N) (j : NodeId) :
    (s.insertNode i n).loc j = if j = i then some (.node s.nextAddr) else s.loc j := by
  by_cases hj : j = .mht 0
  . have hne : j ≠ i := fun h => hi (h.symm.trans hj)
    simp [hj, hj ▸ hne]
  rw [loc_of_ne hj, cached_insertNode, loc_of_ne hj]
  split <;> rfl

theorem mhtNode_insertNode (hs : Linked s) (i : NodeId) (n : FileNode N) {j : NodeId} {p : MhtPtr}
    (hp : s.loc j = some p) : (s.insertNode i n).mhtNode p = s.mhtNode p := by
  cases p with
  | root => rfl
  | node a =>
    have ha : a ≠ s.nextAddr := by
      by_cases hj : j = .mht 0
      . rw [hj, loc_root] at hp
        cases hp
      rw [loc_of_ne hj, Option.map_eq_some_iff] at hp
      rcases hp with ⟨b, hb, hba⟩
      cases hba
      exact Nat.ne_of_lt (hs.addr j a hb)
    rw [mhtNode, heap_insertNode, if_neg ha]
    rfl

theorem linked_insertNode (hs : Linked s) {i : NodeId} {n : FileNode N} {q : MhtPtr} (hi : i ≠ .mht 0)
    (hnot : s.cached i = none) (hq : s.loc (.mht i.parent) = some q)
    (hshape : n.shape = (i.number, q, i.physical, i.isData)) : Linked (s.insertNode i n) where
  wf := hs.wf.add ((hs.wf.data?_eq_none_iff _).1 hnot) _
  keys key hkey := by
    rw [insertNode, setCache, Lru.Cache.keys_add, List.mem_cons] at hkey
    rcases hkey with rfl | hkey
    . exact ⟨i, hi, rfl⟩
    . exact hs.keys key hkey
  addr j a hj := by
    rw [cached_insertNode] at hj
    split at hj
    . cases hj
      exact Nat.lt_succ_self _
    . exact Nat.lt_succ_of_lt (hs.addr j a hj)
  shape j p hp := by
    rw [loc_insertNode hi] at hp
    split at hp
    . next hj =>
      cases hp
      subst hj
      refine ⟨q, ?_, ?_⟩
      . rw [loc_insertNode hi, if_neg (NodeId.parent_ne j hi)]
        exact hq
      rw [mhtNode, heap_insertNode, if_pos rfl]
      exact hshape
    next hj =>
    rcases hs.shape j p hp with ⟨q', hq', hshape'⟩
    refine ⟨q', ?_, ?_⟩
    . rw [loc_insertNode hi, if_neg]
      . exact hq'
      -- the new node is not in memory yet, so it is nobody's parent
      rintro rfl
      rw [loc_of_ne hi, hnot] at hq'
      cases hq'
    . rw [mhtNode_insertNode hs i n hp]
      exact hshape'

theorem insertNode (hs : Linked s) {i : NodeId} {n : FileNode N} {q : MhtPtr} (hi : i ≠ .mht 0)
    (hnot : s.cached i = none) (hq : s.loc (.mht i.parent) = some q)
    (hshape : n.shape = (i.number, q, i.physical, i.isData)) (hn : Fetched s t i n) :
    Evolves t s (s.insertNode i n) where
  linked := linked_insertNode hs hi hnot hq hshape
  still := by rw [File.insertNode, still_setCache, still_alloc]
  log := by simp only [File.insertNode, setCache, alloc, setNode]
  old j a hj := by
    rw [cached_insertNode] at hj
    split at hj
    . next hji =>
      cases hj
      rw [heap_insertNode, if_pos rfl, hji]
      exact .inr hn
    . rw [heap_insertNode, if_neg (Nat.ne_of_lt (hs.addr j a hj))]
      exact .inl ⟨hj, rfl⟩
  dirty j a hj _ := by
    have hne : j ≠ i := by
      rintro rfl
      rw [hnot] at hj
      cases hj
    rw [cached_insertNode, if_neg hne, heap_insertNode, if_neg (Nat.ne_of_lt (hs.addr j a hj))]
    exact ⟨hj, rfl⟩

theorem setCache (hs : Linked s) {c : Lru.Cache Nat Addr} (hwf : c.Wf)
    (hdata : ∀ key, c.data? key = s.cache.data? key) : Evolves t s (s.setCache c) := by
  have hcached : ∀ i, (s.setCache c).cached i = s.cached i := fun i => hdata _
  have hloc : ∀ i, (s.setCache c).loc i = s.loc i := by
    intro i
    rw [loc, hcached, loc]
  refine ⟨⟨hwf, ?_, ?_, ?_⟩, still_setCache s c, rfl, ?_, ?_⟩
  . intro key hkey
    apply hs.keys key
    rw [hs.wf.mem_keys_iff, ← hdata]
    exact (hwf.mem_keys_iff key).1 hkey
  . intro i a hi
    rw [hcached] at hi
    exact hs.addr i a hi
  . intro i p hp
    rw [hloc] at hp
    rw [hloc]
    rcases hs.shape i p hp with ⟨q, hq, hshape⟩
    exact ⟨q, hq, by cases p <;> exact hshape⟩
  . intro i a hi
    rw [hcached] at hi
    exact .inl ⟨hi, rfl⟩
  . intro i a hi _
    rw [hcached]
    exact ⟨hi, rfl⟩

theorem get (hs : Linked s) (key : Nat) : Evolves t s (s.setCache (s.cache.get key).2) :=
  setCache hs (hs.wf.get key) (hs.wf.get_data? key)

section EvictLast

variable {a : Addr} {i : NodeId} {ks : List Nat}

theorem cached_evictLast (hks : s.cache.keys = ks ++ [i.physical]) (j : NodeId) :
    (s.evictLast a).cached j = if j = i then none else s.cached j := by
  rw [cached, evictLast, File.setCache, Lru.Cache.removeLast_data? hks]
  by_cases hj : j = i
  . simp [hj]
  rw [if_neg (fun h => hj (NodeId.physical_injective h)), if_neg hj]
  rfl

theorem heap_evictLast {b : Addr} (hb : b ≠ a) : (s.evictLast a).heap b = s.heap b := by
  simp [evictLast, File.setCache, modifyNode, setNode, hb]

theorem loc_evictLast (hi : i ≠ .mht 0) (hks : s.cache.keys = ks ++ [i.physical]) (j : NodeId) :
    (s.evictLast a).loc j = if j = i then none else s.loc j := by
  by_cases hj : j = .mht 0
  . have hne : j ≠ i := fun h => hi (h.symm.trans hj)
    rw [if_neg hne, hj, loc_root, loc_root]
  rw [loc_of_ne hj, cached_evictLast hks, loc_of_ne hj]
  split <;> rfl

theorem evictLast (hs : Linked s) (hi : s.cached i = some a)
    (hks : s.cache.keys = ks ++ [i.physical]) (hclean : (s.heap a).needWriting = false)
    (hchild : ∀ j b, s.cached j = some b → .mht j.parent ≠ i) : Evolves t s (s.evictLast a) := by
  have hroot := hs.ne_root hi
  have hne : ∀ j p, s.loc j = some p → j ≠ i → p ≠ .node a := by
    rintro j p hj hji rfl
    exact hji (hs.loc_injective hj (hs.loc_of_cached hi))
  have hnode : ∀ p, p ≠ .node a → (s.evictLast a).mhtNode p = s.mhtNode p := by
    intro p hp
    cases p with
    | root => rfl
    | node b => exact heap_evictLast (fun h => hp (by rw [h]))
  refine ⟨⟨hs.wf.removeLast, ?_, ?_, ?_⟩, ?_, rfl, ?_, ?_⟩
  . intro key hkey
    apply hs.keys key
    rw [File.evictLast, File.setCache, Lru.Cache.removeLast_keys] at hkey
    exact List.mem_of_mem_dropLast hkey
  . intro j b hj
    rw [cached_evictLast hks] at hj
    split at hj
    . cases hj
    . exact hs.addr j b hj
  . intro j p hp
    rw [loc_evictLast hroot hks] at hp
    split at hp
    . cases hp
    next hji =>
    rcases hs.shape j p hp with ⟨q, hq, hshape⟩
    refine ⟨q, ?_, ?_⟩
    . rw [loc_evictLast hroot hks, if_neg]
      . exact hq
      by_cases hj : j = .mht 0
      . rw [hj]
        exact hroot.symm
      rw [loc_of_ne hj, Option.map_eq_some_iff] at hp
      rcases hp with ⟨b, hb, -⟩
      exact hchild j b hb
    . rw [hnode p (hne j p hp hji)]
      exact hshape
  . rw [File.evictLast, still_setCache]
    simp only [File.still, quiet, modifyNode, setNode]
  . intro j b hj
    rw [cached_evictLast hks] at hj
    split at hj
    . cases hj
    next hji =>
    have hb := hne j _ (hs.loc_of_cached hj) hji
    exact .inl ⟨hj, heap_evictLast (fun h => hb (by rw [h]))⟩
  . intro j b hj hneed
    have hji : j ≠ i := by
      rintro rfl
      rw [hj] at hi
      cases hi
      rw [hclean] at hneed
      cases hneed
    have hb := hne j _ (hs.loc_of_cached hj) hji
    rw [cached_evictLast hks, if_neg hji]
    exact ⟨hj, heap_evictLast (fun h => hb (by rw [h]))⟩

end EvictLast

end Evolves

end File
end ProtectedFs
