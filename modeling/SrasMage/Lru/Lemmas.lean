import SrasMage.Lru.Basic

/-!
This module contains the proof that the operations of the cache keep `Cache.Wf` and act on its key list the
way a recency order is expected to.
-/

namespace Lru

open List Function

namespace Cache

variable {κ δ : Type} {c : Cache κ δ}

theorem wf_empty : (empty : Cache κ δ).Wf := by
  constructor <;> simp [empty, keys]

@[simp]
theorem keys_empty : (empty : Cache κ δ).keys = [] := rfl

@[simp]
theorem data?_empty (key : κ) : (empty : Cache κ δ).data? key = none := rfl

theorem size_eq_length_keys (c : Cache κ δ) : c.size = c.keys.length := by simp [size, keys]

theorem Wf.mem_keys_iff (h : c.Wf) (key : κ) : key ∈ c.keys ↔ ∃ d, c.data? key = some d := by
  rw [h.mem_iff]
  simp [data?, Option.isSome_iff_exists]

theorem Wf.data?_eq_none_iff (h : c.Wf) (key : κ) : c.data? key = none ↔ key ∉ c.keys := by
  rw [h.mem_iff]
  simp [data?]

theorem Wf.mem_keys (h : c.Wf) {key : κ} {d : δ} (hd : c.data? key = some d) : key ∈ c.keys :=
  (h.mem_keys_iff key).2 ⟨d, hd⟩

theorem Wf.walk_eq (h : c.Wf) : c.walk = c.keys.filterMap c.data? := by
  have key : ∀ l : List (ListNode κ), (∀ n ∈ l, n.key ∈ c.keys)
      → walk.go c l = (l.map ListNode.key).filterMap c.data? := by
    intro l
    induction l with
    | nil => simp [walk.go]
    | cons n ns ih =>
      intro hl
      rcases (h.mem_keys_iff n.key).1 (hl n (by simp)) with ⟨d, hd⟩
      have := ih (fun m hm => hl m (by simp [hm]))
      simp [walk.go, hd, this]
  apply key
  intro n hn
  exact mem_map_of_mem hn

section

variable [DecidableEq κ]

@[simp]
theorem keys_add (key : κ) (d : δ) : (c.add key d).keys = key :: c.keys := rfl

theorem data?_add (key : κ) (d : δ) (k : κ) : (c.add key d).data? k = if k = key then some d else c.data? k := by
  by_cases hk : k = key <;> simp [data?, add, hk]

variable {key : κ} {e : MapNode δ} {keys : List κ}

theorem Wf.add (h : c.Wf) (hk : key ∉ c.keys) (d : δ) : (c.add key d).Wf where
  nodup := by
    rw [keys_add]
    exact nodup_cons.2 ⟨hk, h.nodup⟩
  mem_iff k := by
    rw [keys_add, mem_cons, h.mem_iff]
    by_cases hkk : k = key <;> simp [Cache.add, hkk]
  listIt k e he := by
    by_cases hkk : k = key
    . subst hkk
      simp only [Cache.add, update_self, Option.some.injEq] at he
      simp [Cache.add, ← he]
    . simp only [Cache.add, update_of_ne hkk] at he
      exact mem_cons_of_mem _ (h.listIt k e he)
  ids := by
    simp only [Cache.add, map_cons, nodup_cons, mem_map, not_exists, not_and]
    refine ⟨fun n hn hid => ?_, h.ids⟩
    have := h.fresh n hn
    omega
  fresh n hn := by
    simp only [Cache.add, mem_cons] at hn ⊢
    rcases hn with hn | hn
    . simp [hn]
    . exact Nat.lt_succ_of_lt (h.fresh n hn)

omit [DecidableEq κ] in
theorem Wf.eq_of_id_eq (h : c.Wf) {n m : ListNode κ} (hn : n ∈ c.list) (hm : m ∈ c.list) (hid : n.id = m.id) : n = m :=
  inj_on_of_nodup_map h.ids hn hm hid

omit [DecidableEq κ] in
theorem Wf.eq_of_key_eq (h : c.Wf) {n m : ListNode κ} (hn : n ∈ c.list) (hm : m ∈ c.list)
    (hkey : n.key = m.key) : n = m :=
  inj_on_of_nodup_map h.nodup hn hm hkey

omit [DecidableEq κ] in
theorem Wf.find?_listIt (h : c.Wf) (he : c.map key = some e) :
    c.list.find? (fun n => n.id = e.listIt) = some ⟨e.listIt, key⟩ := by
  cases hfind : c.list.find? (fun n => n.id = e.listIt) with
  | none =>
    have := List.find?_eq_none.1 hfind _ (h.listIt key e he)
    simp at this
  | some n =>
    have hid : n.id = e.listIt := by simpa using List.find?_some hfind
    rw [h.eq_of_id_eq (mem_of_find?_eq_some hfind) (h.listIt key e he) hid]

theorem eraseP_eq_filter {α : Type} (p : α → Bool) (l : List α) (h : l.Pairwise (fun a b => p a = true → p b = false)) :
    l.eraseP p = l.filter (fun a => !p a) := by
  induction l with
  | nil => rfl
  | cons a l ih =>
    rw [pairwise_cons] at h
    cases ha : p a with
    | false => simp [ha, ih h.2]
    | true =>
      have hrest : l.filter (fun b => !p b) = l :=
        filter_eq_self.2 (fun b hb => by simp [h.1 b hb ha])
      simp [ha, hrest]

theorem Wf.eraseP_listIt (h : c.Wf) (he : c.map key = some e) :
    c.list.eraseP (fun n => n.id = e.listIt) = c.list.filter (fun n => n.key ≠ key) := by
  -- the cell the iterator names is the only one with this key
  have hcell := h.listIt key e he
  rw [eraseP_eq_filter]
  . apply filter_congr
    intro n hn
    by_cases hkey : n.key = key
    . simp [h.eq_of_key_eq hn hcell hkey]
    have : n.id ≠ e.listIt := by
      intro hid
      exact hkey (by rw [h.eq_of_id_eq hn hcell hid])
    simp [hkey, this]
  . have := pairwise_map.1 h.ids
    apply this.imp
    intro a b hab ha
    simp only [decide_eq_true_eq] at ha
    simp only [decide_eq_false_iff_not]
    omega

theorem get_eq_of_map_eq_none (h : c.map key = none) : c.get key = (none, c) := by simp [get, h]

theorem Wf.get_eq (h : c.Wf) (he : c.map key = some e) : c.get key = (some e.data,
      { list := ⟨c.nextId, key⟩ :: c.list.filter (fun n => n.key ≠ key)
        map := update c.map key (some ⟨e.data, c.nextId⟩)
        nextId := c.nextId + 1 }) := by simp only [get, he, h.find?_listIt he, h.eraseP_listIt he]

theorem Wf.get_fst (h : c.Wf) (key : κ) : (c.get key).1 = c.data? key := by
  cases he : c.map key with
  | none => simp [get_eq_of_map_eq_none he, data?, he]
  | some e => simp [h.get_eq he, data?, he]

theorem Wf.get_data? (h : c.Wf) (key k : κ) : (c.get key).2.data? k = c.data? k := by
  cases he : c.map key with
  | none => simp [get_eq_of_map_eq_none he]
  | some e =>
    rw [h.get_eq he]
    by_cases hk : k = key <;> simp [data?, hk, he]

theorem Wf.get_keys (h : c.Wf) (hk : key ∈ c.keys) : (c.get key).2.keys = key :: c.keys.filter (fun k => k ≠ key) := by
  rw [h.mem_iff, Option.isSome_iff_exists] at hk
  rcases hk with ⟨e, he⟩
  simp [h.get_eq he, keys, filter_map, Function.comp_def]

theorem Wf.get (h : c.Wf) (key : κ) : (c.get key).2.Wf := by
  cases he : c.map key with
  | none => rwa [get_eq_of_map_eq_none he]
  | some e =>
    have hmem : key ∈ c.keys := by simp [h.mem_iff, he]
    have hkeys := h.get_keys hmem
    have hget := h.get_eq he
    refine ⟨?_, ?_, ?_, ?_, ?_⟩
    . rw [hkeys]
      exact nodup_cons.2 ⟨by simp, h.nodup.filter _⟩
    . intro k
      rw [hkeys]
      by_cases hkk : k = key
      . simp [hget, hkk]
      . simp [hget, hkk, h.mem_iff]
    . intro k e' he'
      rw [hget] at he' ⊢
      by_cases hkk : k = key
      . subst hkk
        simp only [update_self, Option.some.injEq] at he'
        simp [← he']
      . simp only [update_of_ne hkk] at he'
        simp [hkk, h.listIt k e' he']
    . rw [hget]
      simp only [map_cons, nodup_cons, mem_map, mem_filter, not_exists, not_and]
      refine ⟨fun n hn hid => ?_, h.ids.sublist (filter_sublist.map _)⟩
      have := h.fresh n hn.1
      omega
    . intro n hn
      rw [hget] at hn ⊢
      simp only [mem_cons, mem_filter] at hn
      rcases hn with hn | hn
      . simp [hn]
      . exact Nat.lt_succ_of_lt (h.fresh n hn.1)

theorem Wf.getAll : ∀ {c : Cache κ δ}, c.Wf → (c.getAll keys).Wf := by
  induction keys with
  | nil => exact fun h => h
  | cons key keys ih => exact fun h => ih (h.get key)

theorem Wf.getAll_data? (k : κ) : ∀ {c : Cache κ δ}, c.Wf → (c.getAll keys).data? k = c.data? k := by
  induction keys with
  | nil => exact fun _ => rfl
  | cons key keys ih => exact fun h => (ih (h.get key)).trans (h.get_data? key k)

theorem Wf.getAll_keys (hnodup : keys.Nodup) : ∀ {c : Cache κ δ}, c.Wf → (∀ key ∈ keys, key ∈ c.keys) →
      (c.getAll keys).keys = keys.reverse ++ c.keys.filter (fun key => key ∉ keys) := by
  induction keys with
  | nil =>
    intro c _ _
    simp [Cache.getAll]
  | cons key keys ih =>
    intro c h hmem
    rw [nodup_cons] at hnodup
    have hkeys := h.get_keys (hmem key (by simp))
    have hrest : ∀ k ∈ keys, k ∈ (c.get key).2.keys := by
      intro k hk
      rw [hkeys, mem_cons]
      by_cases heq : k = key
      . exact .inl heq
      . exact .inr (mem_filter.2 ⟨hmem k (by simp [hk]), by simpa using heq⟩)
    have hfilter : (key :: c.keys.filter (fun k => k ≠ key)).filter (fun k => k ∉ keys)
        = key :: c.keys.filter (fun k => k ∉ key :: keys) := by
      rw [filter_cons_of_pos (by simpa using hnodup.1), filter_filter]
      congr 1
      apply filter_congr
      intro k _
      simp [Bool.and_comm]
    calc (c.getAll (key :: keys)).keys = ((c.get key).2.getAll keys).keys := rfl
      _ = keys.reverse ++ (c.get key).2.keys.filter (fun k => k ∉ keys) :=
        ih hnodup.2 (h.get key) hrest
      _ = (key :: keys).reverse ++ c.keys.filter (fun k => k ∉ key :: keys) := by
        rw [hkeys, hfilter]
        simp

omit [DecidableEq κ] in
theorem getLast_eq (c : Cache κ δ) : c.getLast = c.keys.getLast?.bind c.data? := by
  simp only [getLast, keys, List.getLast?_map]
  cases c.list.getLast? <;> rfl

omit [DecidableEq κ] in
theorem Wf.getLast (h : c.Wf) {ks : List κ} (hks : c.keys = ks ++ [key]) :
    ∃ d, c.getLast = some d ∧ c.data? key = some d := by
  rcases (h.mem_keys_iff key).1 (by simp [hks]) with ⟨d, hd⟩
  exact ⟨d, by simp [getLast_eq, hks, hd], hd⟩

theorem removeLast_keys (c : Cache κ δ) : c.removeLast.keys = c.keys.dropLast := by
  rcases eq_nil_or_concat c.list with hnil | ⟨l, n, hl⟩
  . simp [removeLast, keys, hnil]
  . simp [removeLast, keys, hl]

theorem removeLast_data? {ks : List κ} (hks : c.keys = ks ++ [key]) (k : κ) :
    c.removeLast.data? k = if k = key then none else c.data? k := by
  rcases eq_nil_or_concat c.list with hnil | ⟨l, n, hl⟩
  . simp [keys, hnil] at hks
  have hn : n.key = key := by
    simp only [keys, hl, concat_eq_append, map_append, map_cons, map_nil]
      at hks
    simpa using (append_inj' hks rfl).2
  by_cases hk : k = key <;> simp [removeLast, data?, hl, hn, hk]

theorem Wf.removeLast (h : c.Wf) : c.removeLast.Wf := by
  rcases eq_nil_or_concat c.list with hnil | ⟨l, n, hl⟩
  . simpa [Cache.removeLast, hnil] using h
  rw [concat_eq_append] at hl
  have hkeys : c.keys = l.map ListNode.key ++ [n.key] := by simp [keys, hl]
  have hrest : c.removeLast.keys = l.map ListNode.key := by simp [removeLast_keys, hkeys]
  have hnodup := h.nodup
  rw [hkeys, nodup_append] at hnodup
  have hnotmem : n.key ∉ l.map ListNode.key :=
    fun hmem => hnodup.2.2 _ hmem n.key (by simp) rfl
  have heq : c.removeLast = { c with list := l, map := update c.map n.key none } := by simp [Cache.removeLast, hl]
  refine ⟨?_, ?_, ?_, ?_, ?_⟩
  . rw [hrest]
    exact hnodup.1
  . intro k
    rw [hrest, heq]
    by_cases hk : k = n.key
    . simpa [hk] using hnotmem
    have := h.mem_iff k
    rw [hkeys] at this
    simpa [hk] using this
  . intro k e he
    rw [heq] at he ⊢
    by_cases hk : k = n.key
    . simp [hk] at he
    simp only [update_of_ne hk] at he
    have := h.listIt k e he
    rw [hl, mem_append, mem_singleton] at this
    rcases this with hmem | hlast
    . exact hmem
    . exact absurd (congrArg ListNode.key hlast) hk
  . have := h.ids
    rw [hl, map_append, nodup_append] at this
    rw [heq]
    exact this.1
  . intro m hm
    rw [heq] at hm ⊢
    exact h.fresh m (by simp [hl, hm])

end

end Cache
end Lru
