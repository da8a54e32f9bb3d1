import SrasMage.SignTool.Metadata

/-!
This module contains what the enclave is told about its reserved memory, and what the layout table has for
it.
-/

namespace CMetadata

open Layout List
open Loader (sePageSize)

variable {p : XmlParameters} {parser : Parser} {metadata : Metadata} {param : CreateParam} {table : LayoutTable}
  {layouts : List Layout} {id : Nat}

def getEntryById (layouts : List Layout) (id : Nat) : Option Layout := layouts.find? fun l => l.id = id

def pagesById (layouts : List Layout) (id : Nat) : Nat := ((getEntryById layouts id).map (·.pageCount)).getD 0

def rsrvInit (p : XmlParameters) : Nat := if p.rsrvInitSize.flag then p.rsrvInitSize.value else p.rsrvMaxSize.value

def layoutSize (p : XmlParameters) (parser : Parser) : Option Nat := do
  let param ← checkXmlParameter p
  let table ← buildLayoutTable parser param Loader.Metadata.dataOffset
  return table.rva

def padding (p : XmlParameters) (parser : Parser) : Nat :=
  match layoutSize p parser with
  | none => 0
  | some rva => (calculateEnclaveSize parser rva).getD 0 - rva

def Layout.key (l : Layout) : Nat × Nat := (l.id, l.pageCount)

theorem map_key_updateLayout (layouts : List Layout) :
    ∀ state, (layouts.foldl updateLayout state).1.map key = state.1.map key ++ layouts.map key := by
  induction layouts with
  | nil =>
    intro state
    rw [map_nil, append_nil]
    rfl
  | cons l layouts ih =>
    rintro ⟨front, rva⟩
    have hstep : (updateLayout (front, rva) l).1.map key = front.map key ++ [l.key] := by
      unfold updateLayout
      dsimp only
      split
      . rw [map_append, map_singleton]
        rfl
      rw [map_append, map_singleton]
      rfl
    rw [foldl_cons, ih, hstep, map_cons, append_assoc, singleton_append]

theorem pagesById_append {front back : List Layout} (h : ∀ l ∈ front, l.id ≠ id) :
    pagesById (front ++ back) id = pagesById back id := by
  have hnone : front.find? (fun l => l.id = id) = none := by
    rw [List.find?_eq_none]
    intro l hl
    simpa using h l hl
  unfold pagesById getEntryById
  rw [List.find?_append, hnone, Option.none_or]

def threadIds : List Nat :=
  [layoutIdGuard, layoutIdStackMax, layoutIdStackMin, layoutIdTcs, layoutIdSsa, layoutIdTd]

def contextIds : List Nat :=
  [layoutIdHeapMin, layoutIdHeapInit, layoutIdHeapMax, layoutIdThreadGroup, layoutIdThreadGroupDyn]
    ++ threadIds ++ threadIds.tail.map (layoutIdHeapDynMin - layoutIdHeapMin + ·)

theorem id_mem_regionLayouts {minId initId maxId minSize initSize maxSize : Nat} {l : Layout}
    (h : l ∈ regionLayouts minId initId maxId minSize initSize maxSize) : l.id ∈ [minId, initId, maxId] := by
  unfold regionLayouts at h
  rcases mem_append.1 h with h | h
  . rcases mem_cons.1 h with rfl | h
    . exact mem_cons_self
    split at h
    . rw [mem_singleton] at h
      subst h
      exact mem_cons_of_mem _ mem_cons_self
    . cases h
  . split at h
    . rw [mem_singleton] at h
      subst h
      exact mem_cons_of_mem _ (mem_cons_of_mem _ mem_cons_self)
    . cases h

theorem id_mem_threadLayouts {tcsOffset : Nat} {l : Layout} (h : l ∈ threadLayouts param parser tcsOffset) :
    l.id ∈ threadIds := by
  have hids : (threadLayouts param parser tcsOffset).map (·.id) ⊆ threadIds := by
    unfold threadLayouts
    split
    . exact (by decide : [layoutIdGuard, layoutIdStackMax, layoutIdStackMin, layoutIdGuard, layoutIdTcs, layoutIdSsa,
        layoutIdGuard, layoutIdTd] ⊆ threadIds)
    exact (by decide : [layoutIdGuard, layoutIdStackMin, layoutIdGuard, layoutIdTcs, layoutIdSsa, layoutIdGuard,
      layoutIdTd] ⊆ threadIds)
  exact hids (mem_map_of_mem h)

theorem id_mem_threadGroup {threads : List Layout} {n : Nat} {l : Layout} (h : l ∈ threadGroup threads n) :
    l ∈ threads ∨ l.id = layoutIdThreadGroup := by
  unfold threadGroup at h
  split at h
  . rcases mem_append.1 h with h | h
    . exact .inl h
    split at h
    . rw [mem_singleton] at h
      subst h
      exact .inr rfl
    . cases h
  . cases h

theorem id_mem_contextLayouts {tcsOffset : Nat} {l : Layout} (h : l ∈ contextLayouts param parser tcsOffset) :
    l.id ∈ contextIds := by
  have hthread : ∀ l ∈ threadLayouts param parser tcsOffset, l.id ∈ contextIds := fun l hl =>
    mem_append_left _ (mem_append_right _ (id_mem_threadLayouts hl))
  unfold contextLayouts at h
  rcases mem_append.1 h with h | h
  . rcases mem_append.1 h with h | h
    . rcases mem_append.1 h with h | h
      . rcases mem_append.1 h with h | h
        . have hsub : [layoutIdHeapMin, layoutIdHeapInit, layoutIdHeapMax] ⊆ contextIds := by decide
          exact hsub (id_mem_regionLayouts h)
        obtain ⟨l', hl', rfl⟩ := mem_map.1 h
        have hid := hthread l' hl'
        split <;> exact hid
      . rcases id_mem_threadGroup h with h | h
        . exact hthread l h
        rw [h]
        decide
    . rcases id_mem_threadGroup h with h | h
      . obtain ⟨l', hl', rfl⟩ := mem_map.1 h
        have hid := hthread l' hl'
        split <;> exact hid
      . rw [h]
        decide
  . unfold dynamicThreads at h
    split at h
    . rcases mem_append.1 h with h | h
      . obtain ⟨l', hl', rfl⟩ := mem_map.1 h
        have hdyn (hguard : l'.id ≠ layoutIdGuard) : layoutIdHeapDynMin - layoutIdHeapMin + l'.id ∈ contextIds := by
          apply mem_append_right
          apply mem_map_of_mem
          exact (mem_cons.1 (id_mem_threadLayouts hl')).resolve_left hguard
        split
        . next hmax => exact hdyn (by rw [hmax]; decide)
        split
        . next hguard => exact hdyn hguard
        . exact hthread l' hl'
      . rw [mem_singleton] at h
        subst h
        exact (by decide : layoutIdThreadGroupDyn ∈ contextIds)
    . cases h

def rsrvIds : List Nat := [layoutIdRsrvMin, layoutIdRsrvInit, layoutIdRsrvMax]

theorem id_ne_of_mem_contextIds {i j : Nat} (hi : i ∈ contextIds) (hj : j ∈ rsrvIds) : i ≠ j := by
  have hdisjoint : ∀ i ∈ contextIds, ∀ j ∈ rsrvIds, i ≠ j := by decide
  exact hdisjoint i hi j hj

structure RsrvSizes (param : CreateParam) : Prop where
  min_le : param.rsrvMinSize ≤ param.rsrvInitSize
  init_le : param.rsrvInitSize ≤ param.rsrvMaxSize
  max_le : param.rsrvMaxSize ≤ sizeMax
  min_aligned : param.rsrvMinSize % sePageSize = 0
  init_aligned : param.rsrvInitSize % sePageSize = 0

theorem XmlParameter.value_le {spec : ParamSpec} (parameter : XmlParameter spec) (h : spec.default ≤ spec.max) :
    parameter.value ≤ spec.max := by
  have haccepted := parameter.accepted
  split at haccepted
  . exact haccepted.2
  rw [haccepted]
  exact h

theorem rsrvSizes_of_regionSizesOk
    (h : regionSizesOk p.rsrvMinSize.value p.rsrvInitSize.value p.rsrvMaxSize.value p.rsrvInitSize.flag = true) :
    p.rsrvMinSize.value ≤ rsrvInit p ∧ rsrvInit p ≤ p.rsrvMaxSize.value ∧ p.rsrvMinSize.value % sePageSize = 0 ∧
      rsrvInit p % sePageSize = 0 := by
  unfold regionSizesOk alignSize at h
  unfold rsrvInit
  simp only [Bool.and_eq_true, decide_eq_true_eq] at h
  obtain ⟨⟨⟨hmin, hinit⟩, hmax⟩, horder⟩ := h
  cases hflag : p.rsrvInitSize.flag with
  | true =>
    simp only [hflag, if_true, Bool.and_eq_true, decide_eq_true_eq] at horder
    exact ⟨horder.2, horder.1, hmin, hinit⟩
  | false =>
    simp only [hflag, if_false, Bool.false_eq_true, decide_eq_true_eq] at horder
    exact ⟨horder, Nat.le_refl _, hmin, hmax⟩

theorem checkXmlParameter_rsrv (h : checkXmlParameter p = some param) :
    RsrvSizes param ∧ param.rsrvInitSize = rsrvInit p ∧ param.rsrvMaxSize = p.rsrvMaxSize.value := by
  unfold checkXmlParameter at h
  simp only [Option.bind_eq_bind, Option.bind_eq_some_iff, Option.guard_eq_some', Option.pure_def,
    Option.some.injEq] at h
  obtain ⟨_, _, _, _, _, _, _, hregion, _, _, _, _, _, _, rfl⟩ := h
  obtain ⟨hmin, hinit, hminAligned, hinitAligned⟩ := rsrvSizes_of_regionSizesOk hregion
  exact ⟨⟨hmin, hinit, p.rsrvMaxSize.value_le (by decide), hminAligned, hinitAligned⟩, rfl, rfl⟩

theorem buildLayoutTable_layouts {used : Nat} (h : buildLayoutTable parser param used = some table) :
    ∃ front back, table.layouts = front ++ back ∧ (∀ l ∈ front, l.id ∈ contextIds) ∧
      back.map key = (rsrvLayouts param).map key := by
  unfold buildLayoutTable updateLayoutEntries at h
  simp only [Option.bind_eq_bind, Option.bind_eq_some_iff, Option.guard_eq_some', Option.pure_def,
    Option.some.injEq] at h
  obtain ⟨_, _, ⟨layouts, rva⟩, ⟨_, _, htable⟩, _, _, rfl⟩ := h
  have hkeys := map_key_updateLayout (contextLayouts param parser used ++ rsrvLayouts param)
    ([], calculateSectionsSize parser)
  rw [htable, map_nil, nil_append, map_append] at hkeys
  obtain ⟨front, back, rfl, hfront, hback⟩ := map_eq_append_iff.1 hkeys
  refine ⟨front, back, rfl, ?_, hback⟩
  intro l hl
  have hmem : l.key ∈ (contextLayouts param parser used).map key := by
    rw [← hfront]
    exact mem_map_of_mem hl
  obtain ⟨l', hl', hkey⟩ := mem_map.1 hmem
  have hid : l'.id = l.id := congrArg Prod.fst hkey
  rw [← hid]
  exact id_mem_contextLayouts hl'

def pagesOfKeys (keys : List (Nat × Nat)) (id : Nat) : Nat := ((keys.find? fun k => k.1 = id).map Prod.snd).getD 0

theorem pagesById_eq (layouts : List Layout) (id : Nat) : pagesById layouts id = pagesOfKeys (layouts.map key) id := by
  unfold pagesById pagesOfKeys getEntryById
  rw [List.find?_map, Option.map_map]
  rfl

def rsrvKeys (param : CreateParam) : List (Nat × Nat) :=
  (layoutIdRsrvMin, param.rsrvMinSize / sePageSize) :: (if param.rsrvInitSize > param.rsrvMinSize then
      [(layoutIdRsrvInit, (param.rsrvInitSize - param.rsrvMinSize) / sePageSize)] else [])

theorem map_key_rsrvLayouts (h : RsrvSizes param) (hpos : 0 < param.rsrvMaxSize) :
    (rsrvLayouts param).map key = rsrvKeys param ++ if param.rsrvMaxSize > param.rsrvInitSize then
        [(layoutIdRsrvMax, (param.rsrvMaxSize - param.rsrvInitSize) / sePageSize)] else [] := by
  have hmod : ∀ size ≤ sizeMax, size / sePageSize % 2 ^ 32 = size / sePageSize := by
    intro size hsize
    apply Nat.mod_eq_of_lt
    unfold sizeMax sePageSize at *
    omega
  have hentry : ∀ id size attributes, size ≤ sizeMax →
      (layoutEntry id size attributes siFlagsRw 0).key = (id, size / sePageSize) := by
    intro id size attributes hsize
    exact congrArg (Prod.mk id) (hmod size hsize)
  have hmin := h.min_le
  have hinit := h.init_le
  have hmax := h.max_le
  unfold rsrvLayouts rsrvKeys regionLayouts
  rw [if_pos (.inr (.inr hpos)), map_append, map_cons, hentry _ _ _ (by omega)]
  congr 2
  . split
    . rw [map_singleton, hentry _ _ _ (by omega)]
    . rfl
  split
  . rw [map_singleton, hentry _ _ _ (by omega)]
  . rfl

theorem pagesOfKeys_cons_self (id n : Nat) (keys : List (Nat × Nat)) : pagesOfKeys ((id, n) :: keys) id = n := by
  simp [pagesOfKeys]

theorem pagesOfKeys_cons_ne {id' n : Nat} (keys : List (Nat × Nat)) (h : id' ≠ id) :
    pagesOfKeys ((id', n) :: keys) id = pagesOfKeys keys id := by simp [pagesOfKeys, h]

theorem pagesOfKeys_of_ne {keys : List (Nat × Nat)} (h : ∀ k ∈ keys, k.1 ≠ id) : pagesOfKeys keys id = 0 := by
  have hnone : keys.find? (fun k => k.1 = id) = none := by
    rw [List.find?_eq_none]
    intro k hk
    simpa using h k hk
  unfold pagesOfKeys
  rw [hnone]
  rfl

theorem pagesOfKeys_rsrvKeys (h : RsrvSizes param) {keys : List (Nat × Nat)}
    (hkeys : ∀ k ∈ keys, k.1 = layoutIdRsrvMax) :
    (pagesOfKeys (rsrvKeys param ++ keys) layoutIdRsrvMin + pagesOfKeys (rsrvKeys param ++ keys) layoutIdRsrvInit) *
      sePageSize = param.rsrvInitSize := by
  have hle := h.min_le
  have hmin := h.min_aligned
  have hinit := h.init_aligned
  have hne : ∀ k ∈ keys, k.1 ≠ layoutIdRsrvInit := by
    intro k hk
    rw [hkeys k hk]
    decide
  unfold rsrvKeys
  rw [cons_append, pagesOfKeys_cons_self, pagesOfKeys_cons_ne _ (by decide)]
  unfold sePageSize at *
  split
  . rw [singleton_append, pagesOfKeys_cons_self]
    omega
  rw [nil_append, pagesOfKeys_of_ne hne]
  omega

theorem pagesById_front {front back : List Layout} (hfront : ∀ l ∈ front, l.id ∈ contextIds) (hid : id ∈ rsrvIds) :
    pagesById (front ++ back) id = pagesOfKeys (back.map key) id := by
  rw [pagesById_append fun l hl => id_ne_of_mem_contextIds (hfront l hl) hid, pagesById_eq]

theorem padLayouts_rsrvMax (h : RsrvSizes param) {front back : List Layout} (hfront : ∀ l ∈ front, l.id ∈ contextIds)
    (hback : back.map key = (rsrvLayouts param).map key) (hmax : param.rsrvInitSize < param.rsrvMaxSize)
    (rva size : Nat) :
    (padLayouts param (front ++ back) rva size).2.rsrvInitSize =
      (pagesById (padLayouts param (front ++ back) rva size).1 layoutIdRsrvMin +
        pagesById (padLayouts param (front ++ back) rva size).1 layoutIdRsrvInit) * sePageSize := by
  rw [map_key_rsrvLayouts h (by omega), if_pos hmax] at hback
  obtain ⟨init, tail, rfl, hinit, htail⟩ := map_eq_append_iff.1 hback
  obtain ⟨last, rfl, hlast⟩ := map_eq_singleton_iff.1 htail
  have hid : last.id = layoutIdRsrvMax := congrArg Prod.fst hlast
  rw [← append_assoc]
  unfold padLayouts
  rw [List.getLast?_concat]
  simp only [hid, true_or, or_true, if_true, dropLast_concat]
  rw [append_assoc, pagesById_front hfront (by decide), pagesById_front hfront (by decide), map_append, hinit]
  refine (pagesOfKeys_rsrvKeys h ?_).symm
  simp [key]

theorem padLayouts_concat (xs : List Layout) {last : Layout}
    (hlast : last.id = layoutIdRsrvInit ∨ last.id = layoutIdRsrvMin ∧ last.pageCount > 0) (rva size : Nat) :
    padLayouts param (xs ++ [last]) rva size =
      (xs ++ [{ last with word := (last.word + (size - rva) / sePageSize % 2 ^ 32) % 2 ^ 32 }],
        { param with rsrvInitSize :=
            (param.rsrvInitSize + (size - rva) / sePageSize % 2 ^ 32 * sePageSize % 2 ^ 32) % 2 ^ 64 }) := by
  have hmax : last.id ≠ layoutIdRsrvMax := by
    rcases hlast with h | h
    . rw [h]
      decide
    rw [h.1]
    decide
  have hgrows : last.id = layoutIdRsrvInit ∨ last.id = layoutIdRsrvMax ∨
      last.id = layoutIdRsrvMin ∧ last.pageCount > 0 := by
    rcases hlast with h | h
    . exact .inl h
    . exact .inr (.inr h)
  unfold padLayouts
  rw [List.getLast?_concat]
  simp only [if_pos hgrows, if_neg hmax, dropLast_concat]

theorem padLayouts_rsrvInit (h : RsrvSizes param) {front back : List Layout} (hfront : ∀ l ∈ front, l.id ∈ contextIds)
    (hback : back.map key = (rsrvLayouts param).map key) (hmax : param.rsrvInitSize = param.rsrvMaxSize)
    (hpos : 0 < param.rsrvMaxSize) {rva size : Nat} (hsize : size ≤ sizeMax) :
    (padLayouts param (front ++ back) rva size).2.rsrvInitSize =
        param.rsrvInitSize + (size - rva) / sePageSize * sePageSize % 2 ^ 32 ∧
      (pagesById (padLayouts param (front ++ back) rva size).1 layoutIdRsrvMin +
        pagesById (padLayouts param (front ++ back) rva size).1 layoutIdRsrvInit) * sePageSize =
        param.rsrvInitSize + (size - rva) / sePageSize * sePageSize := by
  have hle := h.min_le
  have hbound := h.max_le
  have hmin := h.min_aligned
  have hinit := h.init_aligned
  have hextra : (size - rva) / sePageSize % 2 ^ 32 = (size - rva) / sePageSize := by
    apply Nat.mod_eq_of_lt
    unfold sizeMax sePageSize at *
    omega
  have hparam : (param.rsrvInitSize + (size - rva) / sePageSize * sePageSize % 2 ^ 32) % 2 ^ 64 =
      param.rsrvInitSize + (size - rva) / sePageSize * sePageSize % 2 ^ 32 := by
    apply Nat.mod_eq_of_lt
    unfold sizeMax at *
    omega
  rw [map_key_rsrvLayouts h hpos, if_neg (by omega), append_nil, rsrvKeys] at hback
  split at hback
  . next hgt =>
    obtain ⟨first, tail, rfl, hfirst, htail⟩ := map_eq_cons_iff.1 hback
    obtain ⟨last, rfl, hlast⟩ := map_eq_singleton_iff.1 htail
    obtain ⟨hid, hword⟩ := Prod.mk.inj hlast
    have hlayouts : front ++ [first, last] = (front ++ [first]) ++ [last] := by simp
    rw [hlayouts, padLayouts_concat _ (.inl hid), hextra]
    refine ⟨hparam, ?_⟩
    rw [append_assoc, pagesById_front hfront (by decide), pagesById_front hfront (by decide), map_append,
      map_singleton, map_singleton, hfirst, singleton_append, pagesOfKeys_cons_self,
      pagesOfKeys_cons_ne _ (by decide)]
    rw [key, hid, pagesOfKeys_cons_self]
    show (_ + (last.word + _) % 2 ^ 32) * _ = _
    have hword : last.word = (param.rsrvInitSize - param.rsrvMinSize) / sePageSize := hword
    unfold sizeMax sePageSize at *
    omega
  next hgt =>
  obtain ⟨last, rfl, hlast⟩ := map_eq_singleton_iff.1 hback
  obtain ⟨hid, hword⟩ := Prod.mk.inj hlast
  have hpages : last.pageCount > 0 := by
    rw [hword]
    unfold sePageSize at *
    omega
  rw [padLayouts_concat _ (.inr ⟨hid, hpages⟩), hextra]
  refine ⟨hparam, ?_⟩
  rw [pagesById_front hfront (by decide), pagesById_front hfront (by decide), map_singleton, key, hid,
    pagesOfKeys_cons_self, pagesOfKeys_cons_ne _ (by decide)]
  show ((last.word + _) % 2 ^ 32 + 0) * _ = _
  have hword : last.word = param.rsrvMinSize / sePageSize := hword
  unfold sizeMax sePageSize at *
  omega

theorem calculateEnclaveSize_le {size round : Nat} (h : calculateEnclaveSize parser size = some round) :
    round ≤ sizeMax := by
  unfold calculateEnclaveSize at h
  simp only [Option.bind_eq_bind, Option.bind_eq_some_iff, Option.guard_eq_some', Option.pure_def,
    Option.some.injEq] at h
  obtain ⟨_, _, _, _, _, hround, rfl⟩ := h
  refine Nat.le_trans hround ?_
  unfold Parser.enclaveMaxSize
  cases parser.elf64 <;> decide

theorem buildMetadata_spec (h : buildMetadata p parser = some metadata) :
    ∃ param table size, checkXmlParameter p = some param ∧
      buildLayoutTable parser param Loader.Metadata.dataOffset = some table ∧
      padding p parser = size - table.rva ∧ size ≤ sizeMax ∧
      (metadata.layouts, metadata.param) =
        if size - table.rva > 0 then padLayouts param table.layouts table.rva size else (table.layouts, param) := by
  unfold buildMetadata buildLayoutEntries at h
  simp only [Option.bind_eq_bind, Option.bind_eq_some_iff, Option.guard_eq_some', Option.pure_def,
    Option.some.injEq] at h
  obtain ⟨param, hparam, table, htable, _, _, _, ⟨size, hsize, _, _, rfl⟩, _, _, rfl⟩ := h
  refine ⟨param, table, size, hparam, htable, ?_, calculateEnclaveSize_le hsize, rfl⟩
  have hlayout : layoutSize p parser = some table.rva := by
    unfold layoutSize
    rw [hparam, Option.bind_eq_bind, Option.bind_some, htable]
    rfl
  unfold padding
  rw [hlayout]
  dsimp only
  rw [hsize]
  rfl

/--
The enclave is told how much reserved memory the table has, unless that memory can not grow and 4 GB or more
are added to round the enclave up.
-/
theorem rsrvSize_eq_layout_iff (hbuild : buildMetadata p parser = some metadata) (hrsrv : 0 < p.rsrvMaxSize.value) :
    metadata.param.rsrvInitSize =
        (pagesById metadata.layouts layoutIdRsrvMin + pagesById metadata.layouts layoutIdRsrvInit) * sePageSize ↔
      rsrvInit p < p.rsrvMaxSize.value ∨ padding p parser < 2 ^ 32 := by
  obtain ⟨param, table, size, hparam, htable, hpadding, hsize, hmetadata⟩ := buildMetadata_spec hbuild
  obtain ⟨hsizes, hinit, hmax⟩ := checkXmlParameter_rsrv hparam
  obtain ⟨front, back, hlayouts, hfront, hback⟩ := buildLayoutTable_layouts htable
  rw [← hmax] at hrsrv
  rw [hpadding, ← hinit, ← hmax]
  by_cases hpad : size - table.rva > 0
  . rw [if_pos hpad, hlayouts] at hmetadata
    have hentries : metadata.layouts = _ := congrArg Prod.fst hmetadata
    have hcreate : metadata.param = _ := congrArg Prod.snd hmetadata
    rw [hentries, hcreate]
    by_cases hgrow : param.rsrvInitSize < param.rsrvMaxSize
    . exact iff_of_true (padLayouts_rsrvMax hsizes hfront hback hgrow _ _) (.inl hgrow)
    have hle := hsizes.init_le
    have heq : param.rsrvInitSize = param.rsrvMaxSize := by omega
    obtain ⟨htold, hpages⟩ := padLayouts_rsrvInit hsizes hfront hback heq hrsrv hsize
    rw [htold, hpages]
    unfold sePageSize
    omega
  . rw [if_neg hpad, hlayouts] at hmetadata
    obtain ⟨hentries, hcreate⟩ := Prod.mk.inj hmetadata
    rw [hentries, hcreate]
    refine iff_of_true ?_ (.inr (by omega))
    rw [pagesById_front hfront (by decide), pagesById_front hfront (by decide), hback, map_key_rsrvLayouts hsizes hrsrv]
    refine (pagesOfKeys_rsrvKeys hsizes ?_).symm
    intro k hk
    split at hk
    . rw [mem_singleton] at hk
      rw [hk]
    . cases hk

def sampleXml (heapSize : Nat) (h : heapSize ≤ sizeMax) : XmlParameters where
  launchKey := ⟨0, false, rfl⟩
  hw := ⟨0, false, rfl⟩
  tcsNum := ⟨1, false, rfl⟩
  tcsMaxNum := ⟨1, false, rfl⟩
  tcsMinPool := ⟨1, false, rfl⟩
  stackMaxSize := ⟨0x40000, false, rfl⟩
  stackMinSize := ⟨0x2000, false, rfl⟩
  heapMaxSize := ⟨heapSize, true, Nat.zero_le _, h⟩
  heapMinSize := ⟨0x1000, false, rfl⟩
  heapInitSize := ⟨0x1000, false, rfl⟩
  rsrvMaxSize := ⟨0x1000, true, by decide, by decide⟩
  rsrvMinSize := ⟨0, false, rfl⟩
  rsrvInitSize := ⟨0, false, rfl⟩
  enableKss := ⟨0, false, rfl⟩
  isvFamilyIdH := ⟨0, false, rfl⟩
  isvFamilyIdL := ⟨0, false, rfl⟩
  isvExtProdIdH := ⟨0, false, rfl⟩
  isvExtProdIdL := ⟨0, false, rfl⟩

def sampleParser : Parser where
  elf64 := true
  gnuRelro := true
  sections := [⟨0x1000, 0x1000⟩]
  tlsSection := none
  enclaveEntry := 0x1000
  globalData := 0x1800
  globalDataSize := 0x100

theorem rsrvSize_eq_layout_sampleXml :
    ∃ metadata, buildMetadata (sampleXml 0x1000000 (by decide)) sampleParser = some metadata ∧
      (metadata.param.rsrvInitSize =
        (pagesById metadata.layouts layoutIdRsrvMin + pagesById metadata.layouts layoutIdRsrvInit) * sePageSize ↔
      rsrvInit (sampleXml 0x1000000 (by decide)) < 0x1000 ∨
        padding (sampleXml 0x1000000 (by decide)) sampleParser < 2 ^ 32) := by
  have hsome : (buildMetadata (sampleXml 0x1000000 (by decide)) sampleParser).isSome = true := by decide +kernel
  obtain ⟨metadata, hbuild⟩ := Option.isSome_iff_exists.1 hsome
  exact ⟨metadata, hbuild, rsrvSize_eq_layout_iff hbuild (by decide)⟩

theorem rsrvSize_ne_layout_largeHeap :
    (buildMetadata (sampleXml 0x200000000 (by decide)) sampleParser).any (fun metadata =>
      metadata.param.rsrvInitSize = 0xfff8a000 ∧
        (pagesById metadata.layouts layoutIdRsrvMin + pagesById metadata.layouts layoutIdRsrvInit) * sePageSize =
          0x1fff8a000) = true := by
  decide +kernel

end CMetadata
