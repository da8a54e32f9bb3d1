import SrasMage.ProtectedFs.Lemmas.Evolve

/-!
This module contains the order of the cache.
-/

namespace ProtectedFs

open NodeId List

def mhtChain : Nat → Nat → List Nat
  | 0, _ => []
  | _ + 1, 0 => []
  | fuel + 1, m + 1 => (m + 1) :: mhtChain fuel (mht (m + 1)).parent

theorem mhtChain_zero (fuel : Nat) : mhtChain fuel 0 = [] := by
  cases fuel <;> rfl

theorem parent_mht_succ_le {m fuel : Nat} (h : m + 1 ≤ fuel + 1) : (mht (m + 1)).parent ≤ fuel := by
  have := parent_mht_lt (m := m + 1) (by omega)
  omega

theorem mhtChain_congr (fuel : Nat) : ∀ m fuel', m ≤ fuel → m ≤ fuel' → mhtChain fuel m = mhtChain fuel' m := by
  induction fuel with
  | zero =>
    intro m fuel' hm _
    rw [Nat.le_zero.1 hm, mhtChain_zero, mhtChain_zero]
  | succ fuel ih =>
    intro m fuel' hm hm'
    cases m with
    | zero => rw [mhtChain_zero, mhtChain_zero]
    | succ m =>
      cases fuel' with
      | zero => omega
      | succ fuel' =>
        rw [mhtChain, mhtChain, ih _ fuel' (parent_mht_succ_le hm) (parent_mht_succ_le hm')]

theorem mhtChain_self {m : Nat} (hm : m ≠ 0) : mhtChain m m = m :: mhtChain (mht m).parent (mht m).parent := by
  cases m with
  | zero => exact absurd rfl hm
  | succ m => rw [mhtChain, mhtChain_congr m _ _ (parent_mht_succ_le le_rfl) le_rfl]

theorem mem_mhtChain_le (fuel : Nat) : ∀ m, ∀ x ∈ mhtChain fuel m, x ≠ 0 ∧ x ≤ m := by
  induction fuel with
  | zero => simp [mhtChain]
  | succ fuel ih =>
    intro m x hx
    cases m with
    | zero => simp [mhtChain] at hx
    | succ m =>
      rw [mhtChain, mem_cons] at hx
      rcases hx with rfl | hx
      . omega
      have := ih _ x hx
      have := parent_mht_lt (m := m + 1) (by omega)
      omega

theorem self_mem_mhtChain {m fuel : Nat} (h : m ≤ fuel) (hm : m ≠ 0) : m ∈ mhtChain fuel m := by
  cases m with
  | zero => exact absurd rfl hm
  | succ m =>
    cases fuel with
    | zero => omega
    | succ fuel => simp [mhtChain]

theorem parent_mem_mhtChain (fuel : Nat) : ∀ m, m ≤ fuel → ∀ x ∈ mhtChain fuel m,
      (mht x).parent = 0 ∨ (mht x).parent ∈ mhtChain fuel m := by
  induction fuel with
  | zero => simp [mhtChain]
  | succ fuel ih =>
    intro m hm x hx
    cases m with
    | zero => simp [mhtChain] at hx
    | succ m =>
      have hle := parent_mht_succ_le hm
      rw [mhtChain, mem_cons] at hx ⊢
      rcases hx with rfl | hx
      . by_cases h0 : (mht (m + 1)).parent = 0
        . exact .inl h0
        . exact .inr (.inr (self_mem_mhtChain hle h0))
      . exact (ih _ hle x hx).imp_right Or.inr

theorem pairwise_mhtChain (fuel : Nat) : ∀ m, (mhtChain fuel m).Pairwise (· > ·) := by
  induction fuel with
  | zero => simp [mhtChain]
  | succ fuel ih =>
    intro m
    cases m with
    | zero => simp [mhtChain]
    | succ m =>
      rw [mhtChain, pairwise_cons]
      refine ⟨?_, ih _⟩
      intro x hx
      have := mem_mhtChain_le fuel _ x hx
      have := parent_mht_lt (m := m + 1) (by omega)
      omega

theorem length_mhtChain_le (k : Nat) : ∀ fuel m, m < childMhtNodesCount ^ k → (mhtChain fuel m).length ≤ k := by
  induction k with
  | zero =>
    intro fuel m hm
    have hm0 : m = 0 := by
      simpa using hm
    simp [hm0, mhtChain_zero]
  | succ k ih =>
    intro fuel m hm
    cases fuel with
    | zero => simp [mhtChain]
    | succ fuel =>
      cases m with
      | zero => simp [mhtChain]
      | succ m =>
        rw [mhtChain, length_cons]
        apply Nat.succ_le_succ
        apply ih
        simp only [parent, childMhtNodesCount, Nat.pow_succ] at hm ⊢
        omega

def NodeId.ancestors (i : NodeId) : List Nat := mhtChain i.parent i.parent

variable {N : Type}

namespace File

def NotParent (key key' : Nat) : Prop :=
  ∀ i : NodeId, i.physical = key → (mht i.parent).physical ≠ key'

def Ordered (s : File N) : Prop := s.cache.keys.Pairwise NotParent

theorem pairwise_notParent {d : Nat} {keys rest : List Nat} (hkeys : keys.Pairwise NotParent)
    (hsub : rest.Sublist keys) (hroot : (mht 0).physical ∉ keys)
    (hrest : ∀ x ∈ (data d).ancestors, physicalMhtNode x ∉ rest) :
    ((((data d).ancestors.map physicalMhtNode).reverse ++ (data d).physical :: rest) |>.Pairwise NotParent) := by
  have hmem : ∀ i : NodeId, (i.parent = 0 ∨ i.parent ∈ (data d).ancestors) →
      ∀ y ∈ rest, (mht i.parent).physical ≠ y := by
    rintro i (h0 | hanc) y hy rfl
    . rw [h0] at hy
      exact hroot (hsub.subset hy)
    . exact hrest _ hanc hy
  have hdata : (data d).parent = 0 ∨ (data d).parent ∈ (data d).ancestors := by
    by_cases h0 : (data d).parent = 0
    . exact .inl h0
    . exact .inr (self_mem_mhtChain le_rfl h0)
  rw [pairwise_append, pairwise_cons, pairwise_reverse, pairwise_map]
  refine ⟨?_, ⟨?_, hkeys.sublist hsub⟩, ?_⟩
  . apply (pairwise_mhtChain _ _).imp
    intro x y hxy i hi hparent
    have hy : i = .mht y := physical_injective hi
    subst hy
    have hx : mht (mht y).parent = .mht x := physical_injective hparent
    rw [mht.injEq] at hx
    by_cases hy0 : y = 0
    . simp only [hy0, parent, childMhtNodesCount] at hx
      omega
    have := parent_mht_lt hy0
    omega
  . intro y hy i hi
    have hd : i = .data d := physical_injective hi
    subst hd
    exact hmem _ hdata y hy
  . intro key hkey y hy i hi
    rw [mem_reverse, mem_map] at hkey
    rcases hkey with ⟨x, hx, rfl⟩
    have hix : i = .mht x := physical_injective hi
    subst hix
    rw [mem_cons] at hy
    rcases hy with rfl | hy
    . exact fun h => by cases physical_injective h
    . exact hmem _ (parent_mem_mhtChain _ _ le_rfl x hx) y hy

section Bump

variable {s : File N}

theorem parents_keys (hs : Linked s) {m : Nat} {p : MhtPtr} (hp : s.loc (.mht m) = some p) :
    (s.parents p).map (fun a => (s.heap a).physicalNodeNumber) =
    (mhtChain m m).map physicalMhtNode := by
  have hgo : ∀ fuel m p, m ≤ fuel → s.loc (.mht m) = some p →
      (parents.go s fuel p).map (fun a => (s.heap a).physicalNodeNumber) = (mhtChain fuel m).map physicalMhtNode := by
    intro fuel
    induction fuel with
    | zero => simp [parents.go, mhtChain]
    | succ fuel ih =>
      intro m p hm hp
      cases p with
      | root =>
        have h0 := hs.loc_injective hp (loc_root s)
        cases h0
        simp [parents.go, mhtChain]
      | node a =>
        cases m with
        | zero =>
          rw [loc_root] at hp
          cases hp
        | succ m =>
          have hphysical : (s.heap a).physicalNodeNumber = physicalMhtNode (m + 1) :=
            hs.physical_eq hp
          have hrest := ih _ _ (parent_mht_succ_le hm) (hs.parent_eq hp)
          rw [parents.go, mhtChain, map_cons, map_cons, hphysical]
          exact congrArg _ hrest
  have hnumber : (s.mhtNode p).number = m := hs.number_eq hp
  rw [parents, hnumber]
  exact hgo m m p le_rfl hp

theorem bump_eq (as : List Addr) : ∀ s : File N, s.bump as =
      s.setCache (s.cache.getAll (as.map (fun a => (s.heap a).physicalNodeNumber))) := by
  induction as with
  | nil => exact fun _ => rfl
  | cons a as ih => exact fun s => ih _

theorem Evolves.bump {t : Tree} (hs : Linked s) (as : List Addr) : Evolves t s (s.bump as) := by
  rw [bump_eq]
  exact Evolves.setCache hs hs.wf.getAll (fun key => hs.wf.getAll_data? key)

theorem Linked.ancestors (hs : Linked s) {i : NodeId} {p : MhtPtr} (hi : s.loc i = some p) :
    ∀ x ∈ i.ancestors, physicalMhtNode x ∈ s.cache.keys := by
  have hchain : ∀ fuel m q, s.loc (.mht m) = some q → ∀ x ∈ mhtChain fuel m, physicalMhtNode x ∈ s.cache.keys := by
    intro fuel
    induction fuel with
    | zero => simp [mhtChain]
    | succ fuel ih =>
      intro m q hq x hx
      cases m with
      | zero => simp [mhtChain] at hx
      | succ m =>
        rw [mhtChain, mem_cons] at hx
        rcases hx with rfl | hx
        . rw [loc_of_ne (by simp), Option.map_eq_some_iff] at hq
          rcases hq with ⟨b, hb, -⟩
          exact hs.wf.mem_keys hb
        . exact ih _ _ (hs.parent_eq hq) x hx
  exact hchain _ _ _ (hs.parent_eq hi)

theorem nodup_ancestors (i : NodeId) : (i.ancestors.map physicalMhtNode).Nodup := by
  have hnodup : i.ancestors.Nodup := (pairwise_mhtChain _ _).imp (fun h => Nat.ne_of_gt h)
  apply hnodup.map
  intro x y h
  have : mht x = .mht y := physical_injective h
  rwa [mht.injEq] at this

theorem keys_bumpParents (hs : Linked s) {i : NodeId} {a : Addr} (hi : s.cached i = some a) :
    (s.bumpParents (some a)).cache.keys =
    (i.ancestors.map physicalMhtNode).reverse
      ++ s.cache.keys.filter (fun key => key ∉ i.ancestors.map physicalMhtNode) := by
  have hloc := hs.loc_of_cached hi
  have hkeys : (s.parents (s.heap a).parent).map (fun b => (s.heap b).physicalNodeNumber)
      = i.ancestors.map physicalMhtNode := parents_keys hs (hs.parent_eq hloc)
  rw [bumpParents, bump_eq, hkeys]
  apply hs.wf.getAll_keys (nodup_ancestors i)
  intro key hkey
  rw [mem_map] at hkey
  rcases hkey with ⟨x, hx, rfl⟩
  exact hs.ancestors hloc x hx

end Bump

end File
end ProtectedFs
