import SrasMage.Run
import SrasMage.Vmc.Basic
import Mathlib.Data.Finset.Card
import Mathlib.Order.Interval.Finset.Nat

/-!
This module contains the columns that tell which counters are in use and whose they are.
-/

namespace Vmc

open List Function

namespace Sqlite

inductive Column where
  | used | refid

structure NodeRow where
  used : Option Nat
  refid : Option Nat
deriving DecidableEq

def NodeRow.get (row : NodeRow) : Column → Option Nat
  | .used => row.used
  | .refid => row.refid

inductive Expr where
  | int (n : Nat)
  | column (c : Column)
  | eq (a b : Expr)
  | and (a b : Expr)

/--
The value of an expression, `none` is NULL.
-/
def Expr.eval (row : NodeRow) : Expr → Option Nat
  | int n => some n
  | column c => row.get c
  | eq a b =>
    match a.eval row, b.eval row with
    | some x, some y => some (if x = y then 1 else 0)
    | _, _ => none
  | and a b =>
    match a.eval row, b.eval row with
    | some 0, _ => some 0
    | _, some 0 => some 0
    | some _, some _ => some 1
    | _, _ => none

def NodeRow.set (row : NodeRow) : Column → Expr → NodeRow
  | .used, e => { row with used := e.eval row }
  | .refid, e => { row with refid := e.eval row }

structure QuotaRow (σ : Type) where
  id : Nat
  mrsigner : σ
  counter : Nat

/--
`HASH_TREE_NODE_TABLE` without the contents of the nodes, `VMC_QUOTA_TABLE` and the last id that was given to one of
its rows.
-/
structure Tables (σ : Type) where
  nodes : Nat → NodeRow
  quota : List (QuotaRow σ)
  sequence : Nat

def pseVmcQuotaSize : Nat := 256

variable {σ : Type}

def Tables.setNode (t : Tables σ) (id : Nat) (c : Column) (e : Expr) : Tables σ :=
  { t with nodes := update t.nodes id ((t.nodes id).set c e) }

/--
`update VMC_QUOTA_TABLE set COUNTER = …` on the rows that a condition selects.
-/
def Tables.setCounter (t : Tables σ) (hit : QuotaRow σ → Bool) (f : Nat → Nat) : Tables σ :=
  { t with quota := t.quota.map fun row => if hit row then { row with counter := f row.counter } else row }

/--
`set USED=1`, and the id of the selected quota row as the reference.
-/
def refer (t : Tables σ) (hit : QuotaRow σ → Bool) (id : Nat) : Tables σ :=
  (t.setNode id .used (.int 1)).setNode id .refid (.int (((t.quota.find? hit).map QuotaRow.id).getD 0))

/--
`set USED=0 and REFID=0`, in which the comparison binds more tightly than the conjunction.
-/
def clearFlags : Column × Expr := (.used, .and (.int 0) (.eq (.column .refid) (.int 0)))

def clrLeafnodeFlag (t : Tables σ) (id : Nat) : Except OpError (Tables σ) :=
  let refid := (t.nodes id).refid.getD 0
  let t := t.setNode id clearFlags.1 clearFlags.2
  let hit := fun row : QuotaRow σ => decide (row.id = refid ∧ row.counter > 0)
  if t.quota.countP hit ≠ 1 then .error .sqliteInternal else .ok (t.setCounter hit (· - 1))

section SetCounter

variable {t : Tables σ} {hit : QuotaRow σ → Bool} {f : Nat → Nat} {row row' : QuotaRow σ}

theorem map_mrsigner_setCounter : (t.setCounter hit f).quota.map QuotaRow.mrsigner = t.quota.map QuotaRow.mrsigner := by
  simp only [Tables.setCounter, map_map]
  refine map_congr_left fun row _ => ?_
  by_cases h : hit row <;> simp [h]

theorem map_id_setCounter : (t.setCounter hit f).quota.map QuotaRow.id = t.quota.map QuotaRow.id := by
  simp only [Tables.setCounter, map_map]
  refine map_congr_left fun row _ => ?_
  by_cases h : hit row <;> simp [h]

theorem mem_setCounter (h : row' ∈ (t.setCounter hit f).quota) :
    ∃ row ∈ t.quota, row'.id = row.id ∧ row'.mrsigner = row.mrsigner ∧
      row'.counter = if hit row then f row.counter else row.counter := by
  obtain ⟨row, hrow, rfl⟩ := mem_map.1 h
  exact ⟨row, hrow, by split <;> rfl, by split <;> rfl, by split <;> rfl⟩

theorem mem_setCounter_of_mem (h : row ∈ t.quota) :
    ∃ row' ∈ (t.setCounter hit f).quota, row'.id = row.id ∧ row'.mrsigner = row.mrsigner :=
  ⟨_, mem_map_of_mem h, by split <;> rfl, by split <;> rfl⟩

theorem setCounter_eq_self (h : ∀ row ∈ t.quota, hit row = false) : t.setCounter hit f = t := by
  unfold Tables.setCounter
  rw [(map_congr_left fun row hrow => by rw [h row hrow]; rfl : _ = t.quota.map fun row => row), map_id']

theorem refer_nodes {id : Nat} (h : t.quota.find? hit = some row) :
    (refer t hit id).nodes = update t.nodes id ⟨some 1, some row.id⟩ := by
  simp [refer, Tables.setNode, NodeRow.set, Expr.eval, h]

end SetCounter

theorem clrLeafnodeFlag_spec {t t' : Tables σ} {id refid : Nat} (h : clrLeafnodeFlag t id = .ok t')
    (href : (t.nodes id).refid = some refid) :
    t'.quota = (t.setCounter (fun row => decide (row.id = refid ∧ row.counter > 0)) (· - 1)).quota ∧
      t'.nodes = update t.nodes id { t.nodes id with used := some 0 } ∧ t'.sequence = t.sequence := by
  unfold clrLeafnodeFlag at h
  dsimp only at h
  split at h
  . cases h
  cases h
  refine ⟨?_, ?_, rfl⟩
  . rw [href]
    rfl
  . rfl

variable [DecidableEq σ]

def setLeafnodeFlag (t : Tables σ) (signer : σ) (id : Nat) : Except OpError (Tables σ) :=
  let hit := fun row : QuotaRow σ => decide (row.mrsigner = signer)
  let bumped := t.setCounter hit (· + 1)
  match t.quota.countP hit with
  | 0 => .ok (refer
      { bumped with quota := bumped.quota ++ [⟨t.sequence + 1, signer, 1⟩], sequence := t.sequence + 1 } hit id)
  | 1 => .ok (refer bumped hit id)
  | _ => .error .sqliteInternal

def leafIds : List Nat := List.range' initLeafNodeIdBase (initMaxLeafNodeId + 1 - initLeafNodeIdBase)

def sqliteGetEmptyLeafnode (t : Tables σ) (signer : σ) : Except OpError Nat :=
  let counter := ((t.quota.find? fun row => row.mrsigner = signer).map QuotaRow.counter).getD 0
  if pseVmcQuotaSize ≤ counter then .error .databaseOverQuota
  else
    match leafIds.find? fun id => (t.nodes id).used = some 0 with
    | some id => .ok id
    | none => .error .databaseFull

/--
The tables, and the signer of each counter that has been created and not been deleted since.
-/
structure Books (σ : Type) where
  tables : Tables σ
  live : Nat → Option σ

def Books.empty : Books σ := ⟨⟨fun _ => ⟨some 0, none⟩, [], 0⟩, fun _ => none⟩

inductive Op (σ : Type) where
  | create (signer : σ) (id : Nat)
  | delete (id : Nat)

def Step (b : Books σ) (op : Op σ) (b' : Books σ) : Prop :=
  match op with
  | .create signer id =>
    sqliteGetEmptyLeafnode b.tables signer = .ok id ∧
      setLeafnodeFlag b.tables signer id = .ok b'.tables ∧ b'.live = update b.live id (some signer)
  | .delete id =>
    b.live id ≠ none ∧ clrLeafnodeFlag b.tables id = .ok b'.tables ∧ b'.live = update b.live id none

def created : List (Op σ) → List Nat :=
  List.filterMap fun
    | .create _ id => some id
    | .delete _ => none

def liveOf (live : Nat → Option σ) (signer : σ) : Finset Nat :=
  (Finset.Icc initLeafNodeIdBase initMaxLeafNodeId).filter fun id => live id = some signer

/--
The bookkeeping is exact. The reference of a node is read as an integer, NULL is 0.
-/
structure Exact (b : Books σ) : Prop where
  used : ∀ id, (b.tables.nodes id).used = some 1 ↔ b.live id ≠ none
  owner : ∀ id signer, b.live id = some signer →
    ∃ row ∈ b.tables.quota, row.mrsigner = signer ∧ (b.tables.nodes id).refid = some row.id
  unused : ∀ id, b.live id = none → (b.tables.nodes id).refid.getD 0 = 0
  counter : ∀ row ∈ b.tables.quota, row.counter = (liveOf b.live row.mrsigner).card
  quota : ∀ row ∈ b.tables.quota, row.counter ≤ pseVmcQuotaSize
  smallest : ∀ signer id, sqliteGetEmptyLeafnode b.tables signer = .ok id →
    IsLeast { id | initLeafNodeIdBase ≤ id ∧ id ≤ initMaxLeafNodeId ∧ b.live id = none } id

/--
Everything but the references of the nodes that are not in use, which are those of their last owners.
-/
structure Inv (trace : List (Op σ)) (b : Books σ) : Prop where
  used : ∀ id, (b.tables.nodes id).used = some (if (b.live id).isSome then 1 else 0)
  owner : ∀ id signer, b.live id = some signer →
    ∃ row ∈ b.tables.quota, row.mrsigner = signer ∧ (b.tables.nodes id).refid = some row.id
  leaf : ∀ id, b.live id ≠ none → id ∈ leafIds
  signers : (b.tables.quota.map QuotaRow.mrsigner).Nodup
  ids : (b.tables.quota.map QuotaRow.id).Nodup
  sequence : ∀ row ∈ b.tables.quota, 0 < row.id ∧ row.id ≤ b.tables.sequence
  counter : ∀ row ∈ b.tables.quota, row.counter = (liveOf b.live row.mrsigner).card
  quota : ∀ row ∈ b.tables.quota, row.counter ≤ pseVmcQuotaSize
  stale : ∀ id, (b.tables.nodes id).refid.getD 0 ≠ 0 ↔ id ∈ created trace

theorem mem_leafIds {id : Nat} : id ∈ leafIds ↔ initLeafNodeIdBase ≤ id ∧ id ≤ initMaxLeafNodeId := by
  rw [leafIds, mem_range'_1]
  unfold initLeafNodeIdBase initMaxLeafNodeId
  omega

theorem find?_of_nodup {α κ : Type} [DecidableEq κ] {f : α → κ} {l : List α} (hnodup : (l.map f).Nodup) {a : α}
    (ha : a ∈ l) : l.find? (fun x => decide (f x = f a)) = some a := by
  induction l with
  | nil => cases ha
  | cons b rest ih =>
    rw [map_cons, nodup_cons] at hnodup
    by_cases hb : f b = f a
    . rw [List.find?_cons_of_pos (by simpa using hb)]
      rcases mem_cons.1 ha with rfl | ha
      . rfl
      . exact absurd (hb ▸ mem_map_of_mem ha) hnodup.1
    rw [List.find?_cons_of_neg (by simpa using hb)]
    rcases mem_cons.1 ha with rfl | ha
    . exact absurd rfl hb
    . exact ih hnodup.2 ha

section Steps

variable {trace : List (Op σ)} {b b' : Books σ} {signer : σ} {id : Nat}

theorem liveOf_update_some {live : Nat → Option σ} (hid : id ∈ leafIds) (signer' : σ) :
    liveOf (update live id (some signer)) signer' =
      if signer' = signer then insert id (liveOf live signer) else (liveOf live signer').erase id := by
  ext j
  rw [mem_leafIds] at hid
  split
  . next heq =>
    subst heq
    by_cases hj : j = id <;> simp [liveOf, update_apply, hj, hid]
  next hne =>
  have hne' : signer ≠ signer' := fun h => hne h.symm
  by_cases hj : j = id <;> simp [liveOf, update_apply, hj, hne']

theorem liveOf_update_none {live : Nat → Option σ} (signer' : σ) :
    liveOf (update live id none) signer' = (liveOf live signer').erase id := by
  ext j
  by_cases hj : j = id <;> simp [liveOf, update_apply, hj]

theorem not_mem_liveOf {live : Nat → Option σ} {other : Option σ} (h : live id = other) (hne : other ≠ some signer) :
    id ∉ liveOf live signer := by simp [liveOf, h, hne]

theorem sqliteGetEmptyLeafnode_spec {t : Tables σ} (h : sqliteGetEmptyLeafnode t signer = .ok id) :
    ((t.quota.find? fun row => row.mrsigner = signer).map QuotaRow.counter).getD 0 < pseVmcQuotaSize ∧
      id ∈ leafIds ∧ (t.nodes id).used = some 0 ∧ ∀ j ∈ leafIds, (t.nodes j).used = some 0 → id ≤ j := by
  unfold sqliteGetEmptyLeafnode at h
  dsimp only at h
  split at h
  . cases h
  next hquota =>
  split at h
  . next j hfind =>
    cases h
    rw [leafIds, List.find?_range'_eq_some] at hfind
    obtain ⟨hused, hmem, hmin⟩ := hfind
    refine ⟨Nat.not_le.1 hquota, hmem, of_decide_eq_true hused, ?_⟩
    intro j hj hfree
    by_contra hlt
    have := hmin j (mem_leafIds.1 hj).1 (Nat.not_le.1 hlt)
    simp [hfree] at this
  . cases h

theorem Inv.live_eq_none (h : Inv trace b) (hused : (b.tables.nodes id).used = some 0) : b.live id = none := by
  rw [h.used, Option.some.injEq] at hused
  cases hlive : b.live id with
  | none => rfl
  | some signer => simp [hlive] at hused

theorem Inv.counter_lt (h : Inv trace b) (hget : sqliteGetEmptyLeafnode b.tables signer = .ok id)
    {row : QuotaRow σ} (hrow : row ∈ b.tables.quota) (hsigner : row.mrsigner = signer) :
    row.counter < pseVmcQuotaSize := by
  have hlt := (sqliteGetEmptyLeafnode_spec hget).1
  subst hsigner
  rw [find?_of_nodup h.signers hrow] at hlt
  exact hlt

theorem Inv.liveOf_eq_empty (h : Inv trace b) (hnone : ∀ row ∈ b.tables.quota, row.mrsigner ≠ signer) :
    liveOf b.live signer = ∅ := by
  refine Finset.eq_empty_of_forall_notMem fun j hj => ?_
  obtain ⟨row, hrow, hsigner, -⟩ := h.owner j signer (Finset.mem_filter.1 hj).2
  exact hnone row hrow hsigner

/--
The quota table with one more counter of a signer, whose row has the reference `refid` now.
-/
structure Bumped (t t' : Tables σ) (signer : σ) (refid : Nat) : Prop where
  signers : (t'.quota.map QuotaRow.mrsigner).Nodup
  ids : (t'.quota.map QuotaRow.id).Nodup
  sequence : ∀ row ∈ t'.quota, 0 < row.id ∧ row.id ≤ t'.sequence
  kept : ∀ row ∈ t.quota, ∃ row' ∈ t'.quota, row'.id = row.id ∧ row'.mrsigner = row.mrsigner
  owner : ∃ row ∈ t'.quota, row.mrsigner = signer ∧ row.id = refid
  rows : ∀ row' ∈ t'.quota,
    (∃ row ∈ t.quota, row'.mrsigner = row.mrsigner ∧
      row'.counter = if row.mrsigner = signer then row.counter + 1 else row.counter) ∨
    (row'.mrsigner = signer ∧ (∀ row ∈ t.quota, row.mrsigner ≠ signer) ∧ row'.counter = 1)

theorem Inv.bumped_insert (h : Inv trace b) (hnone : ∀ row ∈ b.tables.quota, row.mrsigner ≠ signer)
    {t' : Tables σ} (hquota : t'.quota = b.tables.quota ++ [⟨b.tables.sequence + 1, signer, 1⟩])
    (hsequence : t'.sequence = b.tables.sequence + 1) : Bumped b.tables t' signer (b.tables.sequence + 1) := by
  have hids : ∀ row ∈ b.tables.quota, row.id ≠ b.tables.sequence + 1 := by
    intro row hrow heq
    have := (h.sequence row hrow).2
    omega
  constructor
  . rw [hquota, map_append]
    exact nodup_append.2 ⟨h.signers, nodup_singleton _, by simpa using hnone⟩
  . rw [hquota, map_append]
    exact nodup_append.2 ⟨h.ids, nodup_singleton _, by simpa using hids⟩
  . rw [hquota, hsequence]
    intro row hrow
    rcases mem_append.1 hrow with hrow | hrow
    . exact ⟨(h.sequence row hrow).1, Nat.le_succ_of_le (h.sequence row hrow).2⟩
    cases mem_singleton.1 hrow
    exact ⟨Nat.succ_pos _, Nat.le_refl _⟩
  . rw [hquota]
    exact fun row hrow => ⟨row, mem_append_left _ hrow, rfl, rfl⟩
  . rw [hquota]
    exact ⟨_, mem_append_right _ (mem_singleton_self _), rfl, rfl⟩
  . rw [hquota]
    intro row hrow
    rcases mem_append.1 hrow with hrow | hrow
    . exact .inl ⟨row, hrow, rfl, (if_neg (hnone row hrow)).symm⟩
    cases mem_singleton.1 hrow
    exact .inr ⟨rfl, hnone, rfl⟩

theorem Inv.bumped_update (h : Inv trace b) {row : QuotaRow σ} (hrow : row ∈ b.tables.quota) {t' : Tables σ}
    (hquota : t'.quota = (b.tables.setCounter (fun r => decide (r.mrsigner = row.mrsigner)) (· + 1)).quota)
    (hsequence : t'.sequence = b.tables.sequence) : Bumped b.tables t' row.mrsigner row.id := by
  constructor
  . rw [hquota, map_mrsigner_setCounter]
    exact h.signers
  . rw [hquota, map_id_setCounter]
    exact h.ids
  . rw [hquota, hsequence]
    intro row' hrow'
    obtain ⟨r, hr, hid, -, -⟩ := mem_setCounter hrow'
    rw [hid]
    exact h.sequence r hr
  . rw [hquota]
    exact fun r hr => mem_setCounter_of_mem hr
  . rw [hquota]
    obtain ⟨row', hrow', hid, hsigner⟩ := mem_setCounter_of_mem hrow
    exact ⟨row', hrow', hsigner, hid⟩
  . rw [hquota]
    intro row' hrow'
    obtain ⟨r, hr, -, hsigner, hcounter⟩ := mem_setCounter hrow'
    exact .inl ⟨r, hr, hsigner, by simpa using hcounter⟩

theorem Inv.bumped (h : Inv trace b) {t' : Tables σ} (hset : setLeafnodeFlag b.tables signer id = .ok t') :
    ∃ refid, 0 < refid ∧ t'.nodes = update b.tables.nodes id ⟨some 1, some refid⟩ ∧
      Bumped b.tables t' signer refid := by
  unfold setLeafnodeFlag at hset
  dsimp only at hset
  split at hset
  . next hzero =>
    have hnone : ∀ row ∈ b.tables.quota, row.mrsigner ≠ signer := by
      simpa [countP_eq_zero] using hzero
    rw [setCounter_eq_self fun row hrow => decide_eq_false (hnone row hrow)] at hset
    have hfind : List.find? (fun row : QuotaRow σ => decide (row.mrsigner = signer))
        (b.tables.quota ++ [⟨b.tables.sequence + 1, signer, 1⟩]) = some ⟨b.tables.sequence + 1, signer, 1⟩ := by
      rw [List.find?_append, List.find?_eq_none.2 (by simpa using hnone)]
      simp
    cases hset
    refine ⟨b.tables.sequence + 1, Nat.succ_pos _, ?_, h.bumped_insert hnone rfl rfl⟩
    rw [refer_nodes hfind]
  . next hone =>
    obtain ⟨row, hrow, rfl⟩ : ∃ row ∈ b.tables.quota, row.mrsigner = signer := by
      have hpos : 0 < b.tables.quota.countP fun row => decide (row.mrsigner = signer) := by
        rw [hone]
        exact Nat.one_pos
      simpa [countP_pos_iff] using hpos
    cases hset
    obtain ⟨row', hrow', hid, hsigner⟩ :
        ∃ row' ∈ (b.tables.setCounter (fun r => decide (r.mrsigner = row.mrsigner)) (· + 1)).quota,
          row'.id = row.id ∧ row'.mrsigner = row.mrsigner := mem_setCounter_of_mem hrow
    have hfind := find?_of_nodup (map_mrsigner_setCounter ▸ h.signers) hrow'
    rw [hsigner] at hfind
    refine ⟨row.id, (h.sequence row hrow).1, ?_, h.bumped_update hrow rfl rfl⟩
    rw [refer_nodes hfind, hid]
    rfl
  . cases hset

theorem Inv.create (h : Inv trace b) (hstep : Step b (.create signer id) b') :
    Inv (trace ++ [.create signer id]) b' := by
  obtain ⟨hget, hset, hlive⟩ := hstep
  obtain ⟨-, hleaf, hfree, -⟩ := sqliteGetEmptyLeafnode_spec hget
  have hdead := h.live_eq_none hfree
  obtain ⟨refid, hpos, hnodes, hb⟩ := h.bumped hset
  have hcard : ∀ signer', (liveOf b'.live signer').card =
      if signer' = signer then (liveOf b.live signer).card + 1 else (liveOf b.live signer').card := by
    intro signer'
    rw [hlive, liveOf_update_some hleaf]
    split
    . exact Finset.card_insert_of_notMem (not_mem_liveOf hdead nofun)
    . rw [Finset.erase_eq_of_notMem (not_mem_liveOf hdead nofun)]
  constructor
  . intro j
    rw [hnodes, hlive]
    by_cases hj : j = id
    . subst hj
      simp
    . simp [hj, h.used]
  . intro j signer' hj
    rw [hlive] at hj
    rw [hnodes]
    by_cases hji : j = id
    . subst hji
      rw [update_self] at hj ⊢
      obtain ⟨row, hrow, hsigner, hid⟩ := hb.owner
      exact ⟨row, hrow, hsigner.trans (Option.some.inj hj), by rw [hid]⟩
    rw [update_of_ne hji] at hj ⊢
    obtain ⟨row, hrow, hsigner, href⟩ := h.owner j signer' hj
    obtain ⟨row', hrow', hid', hsigner'⟩ := hb.kept row hrow
    exact ⟨row', hrow', hsigner'.trans hsigner, by rw [href, hid']⟩
  . intro j hj
    by_cases hji : j = id
    . exact hji ▸ hleaf
    rw [hlive, update_of_ne hji] at hj
    exact h.leaf j hj
  . exact hb.signers
  . exact hb.ids
  . exact hb.sequence
  . intro row' hrow'
    rw [hcard]
    rcases hb.rows row' hrow' with ⟨row, hrow, hsigner, hcounter⟩ | ⟨hsigner, hnone, hcounter⟩
    . rw [hcounter, hsigner, h.counter row hrow]
      split
      . next heq => rw [heq]
      . rfl
    . rw [hcounter, if_pos hsigner, h.liveOf_eq_empty hnone, Finset.card_empty]
  . intro row' hrow'
    rcases hb.rows row' hrow' with ⟨row, hrow, -, hcounter⟩ | ⟨-, -, hcounter⟩
    . rw [hcounter]
      split
      . next heq => exact h.counter_lt hget hrow heq
      . exact h.quota row hrow
    . rw [hcounter]
      decide
  . intro j
    rw [hnodes]
    by_cases hj : j = id
    . subst hj
      simp [created, Nat.ne_of_gt hpos]
    . simpa [created, hj] using h.stale j

theorem Inv.delete (h : Inv trace b) (hstep : Step b (.delete id) b') : Inv (trace ++ [.delete id]) b' := by
  obtain ⟨hsome, hclr, hlive⟩ := hstep
  obtain ⟨signer, hsigner⟩ := Option.ne_none_iff_exists'.1 hsome
  obtain ⟨row0, hrow0, hsigner0, href⟩ := h.owner id signer hsigner
  obtain ⟨hquota, hnodes, hsequence⟩ := clrLeafnodeFlag_spec hclr href
  have hmem : id ∈ liveOf b.live signer :=
    Finset.mem_filter.2 ⟨Finset.mem_Icc.2 (mem_leafIds.1 (h.leaf id hsome)), hsigner⟩
  have hcard : ∀ signer', (liveOf b'.live signer').card =
      if signer' = signer then (liveOf b.live signer).card - 1 else (liveOf b.live signer').card := by
    intro signer'
    rw [hlive, liveOf_update_none]
    split
    . next heq => rw [heq, Finset.card_erase_of_mem hmem]
    next hne =>
    rw [Finset.erase_eq_of_notMem (not_mem_liveOf hsigner fun heq => hne (Option.some.inj heq).symm)]
  -- The only row with the reference of the leaf is the one of its signer, and it counts this leaf.
  have hhit : ∀ row ∈ b.tables.quota, (row.id = row0.id ∧ row.counter > 0) ↔ row.mrsigner = signer := by
    intro row hrow
    constructor
    . intro hit
      rw [inj_on_of_nodup_map h.ids hrow hrow0 hit.1, hsigner0]
    intro heq
    have hrow_eq := inj_on_of_nodup_map h.signers hrow hrow0 (heq.trans hsigner0.symm)
    refine ⟨congrArg QuotaRow.id hrow_eq, ?_⟩
    rw [h.counter row hrow, heq]
    exact Finset.card_pos.2 ⟨id, hmem⟩
  have hrows : ∀ row' ∈ b'.tables.quota, ∃ row ∈ b.tables.quota, row'.id = row.id ∧ row'.mrsigner = row.mrsigner ∧
      row'.counter = if row.mrsigner = signer then row.counter - 1 else row.counter := by
    intro row' hrow'
    rw [hquota] at hrow'
    obtain ⟨row, hrow, hid, hsig, hcounter⟩ := mem_setCounter hrow'
    refine ⟨row, hrow, hid, hsig, hcounter.trans ?_⟩
    simp only [decide_eq_true_eq, hhit row hrow]
  constructor
  . intro j
    rw [hnodes, hlive]
    by_cases hj : j = id
    . subst hj
      simp
    . simp [hj, h.used]
  . intro j signer' hj
    rw [hlive] at hj
    by_cases hji : j = id
    . subst hji
      simp at hj
    rw [update_of_ne hji] at hj
    obtain ⟨row, hrow, hsig, hrefid⟩ := h.owner j signer' hj
    obtain ⟨row', hrow', hid', hsig'⟩ := mem_setCounter_of_mem hrow
    rw [hnodes, update_of_ne hji]
    exact ⟨row', hquota ▸ hrow', hsig'.trans hsig, by rw [hrefid, hid']⟩
  . intro j hj
    by_cases hji : j = id
    . exact hji ▸ h.leaf id hsome
    rw [hlive, update_of_ne hji] at hj
    exact h.leaf j hj
  . rw [hquota, map_mrsigner_setCounter]
    exact h.signers
  . rw [hquota, map_id_setCounter]
    exact h.ids
  . intro row' hrow'
    obtain ⟨row, hrow, hid, -, -⟩ := hrows row' hrow'
    rw [hid, hsequence]
    exact h.sequence row hrow
  . intro row' hrow'
    obtain ⟨row, hrow, -, hsig, hcounter⟩ := hrows row' hrow'
    rw [hcounter, hcard, hsig, h.counter row hrow]
    split
    . next heq => rw [heq]
    . rfl
  . intro row' hrow'
    obtain ⟨row, hrow, -, -, hcounter⟩ := hrows row' hrow'
    have hle := h.quota row hrow
    rw [hcounter]
    split
    . exact Nat.le_trans (Nat.sub_le _ _) hle
    . exact hle
  . intro j
    rw [hnodes]
    by_cases hj : j = id
    . subst hj
      simpa [created] using h.stale j
    . simpa [created, hj] using h.stale j

end Steps

theorem inv_empty : Inv [] (Books.empty : Books σ) where
  used _ := rfl
  owner _ _ h := nomatch h
  leaf _ h := absurd rfl h
  signers := nodup_nil
  ids := nodup_nil
  sequence _ h := absurd h not_mem_nil
  counter _ h := absurd h not_mem_nil
  quota _ h := absurd h not_mem_nil
  stale _ := by simp [Books.empty, created]

section Runs

variable {trace : List (Op σ)} {b : Books σ}

theorem inv_of_run (hrun : Run Step Books.empty trace b) : Inv trace b := by
  refine hrun.invariant inv_empty ?_
  intro trace b op b' h hstep
  cases op with
  | create signer id => exact h.create hstep
  | delete id => exact h.delete hstep

theorem Inv.smallest (h : Inv trace b) {signer : σ} {id : Nat}
    (hget : sqliteGetEmptyLeafnode b.tables signer = .ok id) :
    IsLeast { id | initLeafNodeIdBase ≤ id ∧ id ≤ initMaxLeafNodeId ∧ b.live id = none } id := by
  obtain ⟨-, hmem, hused, hmin⟩ := sqliteGetEmptyLeafnode_spec hget
  obtain ⟨hlow, hhigh⟩ := mem_leafIds.1 hmem
  refine ⟨⟨hlow, hhigh, h.live_eq_none hused⟩, ?_⟩
  rintro j ⟨hjlow, hjhigh, hj⟩
  exact hmin j (mem_leafIds.2 ⟨hjlow, hjhigh⟩) (by simp [h.used, hj])

theorem exact_iff_forall_created_live (hrun : Run Step Books.empty trace b) :
    Exact b ↔ ∀ id ∈ created trace, b.live id ≠ none := by
  have h := inv_of_run hrun
  constructor
  . intro hexact id hid hdead
    exact (h.stale id).mpr hid (hexact.unused id hdead)
  intro hlive
  refine ⟨?_, h.owner, ?_, h.counter, h.quota, fun _ _ => h.smallest⟩
  . intro id
    rw [h.used]
    cases b.live id <;> simp
  intro id hdead
  by_contra hne
  exact hlive id ((h.stale id).mp hne) hdead

theorem Run.create {b' : Books σ} {t : Tables σ} {signer : σ} {id : Nat}
    (hget : sqliteGetEmptyLeafnode b.tables signer = .ok id) (hset : setLeafnodeFlag b.tables signer id = .ok t)
    (h : Run Step ⟨t, update b.live id (some signer)⟩ trace b') : Run Step b (.create signer id :: trace) b' :=
  .cons ⟨hget, hset, rfl⟩ h

theorem Run.delete {b' : Books σ} {t : Tables σ} {id : Nat} (hlive : b.live id ≠ none)
    (hclr : clrLeafnodeFlag b.tables id = .ok t) (h : Run Step ⟨t, update b.live id none⟩ trace b') :
    Run Step b (.delete id :: trace) b' := .cons ⟨hlive, hclr, rfl⟩ h

end Runs

def reusedLeaf : List (Op Bool) := [.create true 8192, .create false 8193, .delete 8192, .create false 8192]

theorem exact_reusedLeaf : ∃ b, Run Step Books.empty reusedLeaf b ∧
    b.tables.quota.map (fun row => (row.mrsigner, row.counter)) = [(true, 0), (false, 2)] ∧ Exact b := by
  have hrun : Run Step Books.empty reusedLeaf _ :=
    Run.create rfl rfl (Run.create rfl rfl (Run.delete (by simp) rfl (Run.create rfl rfl .nil)))
  exact ⟨_, hrun, rfl, (exact_iff_forall_created_live hrun).mpr (by simp [created, reusedLeaf])⟩

theorem not_exact_after_delete : ∃ b, Run Step Books.empty [.create () 8192, .delete 8192] b ∧ ¬Exact b := by
  refine ⟨_, Run.create rfl rfl (Run.delete (by simp) rfl .nil), ?_⟩
  intro h
  have hzero := h.unused 8192 (by simp)
  cases hzero

end Sqlite

end Vmc
