import Mathlib.Algebra.Order.Ring.Nat
import Mathlib.Data.Nat.Basic
import Mathlib.Tactic.Common

/-!
This module contains binary hash trees whose nodes are numbered from the root, which is 1.
-/

namespace Merkle

structure Hashes (L D E R : Type) where
  leaf : L → L → D
  node : D → D → D
  root : E → D → D → R

structure CollisionFree {L D E R : Type} (h : Hashes L D E R) : Prop where
  leaf_inj : ∀ {a b a' b'}, h.leaf a b = h.leaf a' b' → a = a' ∧ b = b'
  node_inj : ∀ {a b a' b'}, h.node a b = h.node a' b' → a = a' ∧ b = b'
  root_inj : ∀ {e a b e' a' b'}, h.root e a b = h.root e' a' b' → a = a' ∧ b = b'

def order {α : Type} (i : Nat) (self brother : α) : α × α :=
  if i % 2 = 0 then (self, brother) else (brother, self)

def sibling (i : Nat) : Nat := if i % 2 = 0 then i + 1 else i - 1

theorem sibling_div_two (i : Nat) (hi : 2 ≤ i) : sibling i / 2 = i / 2 := by
  unfold sibling
  split <;> omega

theorem eq_sibling {i k : Nat} (hk : k / 2 = i / 2) (hne : k ≠ i) : k = sibling i := by
  unfold sibling
  split <;> omega

theorem sibling_ne (i : Nat) (hi : 2 ≤ i) : sibling i ≠ i := by
  unfold sibling
  split <;> omega

theorem order_sibling {α : Type} (i : Nat) (x y : α) : order (sibling i) y x = order i x y := by
  unfold order sibling
  split
  . rw [if_neg (by omega)]
  . rw [if_pos (by omega)]

section

variable {L D E R : Type} (h : Hashes L D E R) (root : R)

inductive NodeAt : Nat → D → Prop where
  | left {e : E} {l r : D} : h.root e l r = root → NodeAt 2 l
  | right {e : E} {l r : D} : h.root e l r = root → NodeAt 3 r
  | leftChild {i : Nat} {l r : D} : NodeAt i (h.node l r) → NodeAt (2 * i) l
  | rightChild {i : Nat} {l r : D} : NodeAt i (h.node l r) → NodeAt (2 * i + 1) r

def LeafAt (i : Nat) (a : L) : Prop :=
  ∃ brother : L, NodeAt h root (i / 2) (h.leaf (order i a brother).1 (order i a brother).2)

def Climbs (e : E) : Nat → List (D × D) → Prop
  | _, [] => False
  | i, [(d, b)] => i / 2 = 1 ∧ h.root e (order i d b).1 (order i d b).2 = root
  | i, (d, b) :: (d', b') :: rest =>
    2 ≤ i ∧ d' = h.node (order i d b).1 (order i d b).2 ∧ Climbs e (i / 2) ((d', b') :: rest)

end

section

variable {L D E R : Type} {h : Hashes L D E R} {root root' : R} {e e' : E} {i : Nat}

theorem NodeAt.two_le {d : D} (hd : NodeAt h root i d) : 2 ≤ i := by
  induction hd <;> omega

theorem NodeAt.unique (hh : CollisionFree h) {d d' : D} (hd : NodeAt h root i d)
    (hd' : NodeAt h root i d') : d = d' := by
  induction hd generalizing d' with
  | left hr =>
    generalize hk : 2 = k at hd'
    cases hd' with
    | left hr' => exact (hh.root_inj (hr.trans hr'.symm)).1
    | right => omega
    | leftChild hp => have := hp.two_le; omega
    | rightChild hp => have := hp.two_le; omega
  | right hr =>
    generalize hk : 3 = k at hd'
    cases hd' with
    | right hr' => exact (hh.root_inj (hr.trans hr'.symm)).2
    | left => omega
    | leftChild hp => have := hp.two_le; omega
    | rightChild hp => have := hp.two_le; omega
  | @leftChild i l r hp ih =>
    have := hp.two_le
    generalize hk : 2 * i = k at hd'
    cases hd' with
    | left => omega
    | right => omega
    | @leftChild i' l' r' hp' =>
      obtain rfl : i = i' := by omega
      exact (hh.node_inj (ih hp')).1
    | rightChild => omega
  | @rightChild i l r hp ih =>
    have := hp.two_le
    generalize hk : 2 * i + 1 = k at hd'
    cases hd' with
    | left => omega
    | right => omega
    | leftChild => omega
    | @rightChild i' l' r' hp' =>
      obtain rfl : i = i' := by omega
      exact (hh.node_inj (ih hp')).2

theorem NodeAt.children {d b : D} (hp : NodeAt h root (i / 2) (h.node (order i d b).1 (order i d b).2)) :
    NodeAt h root i d ∧ NodeAt h root (sibling i) b := by
  have hi := hp.two_le
  unfold order at hp
  unfold sibling
  split at hp
  . next he =>
    rw [if_pos he]
    have hl : i = 2 * (i / 2) := by omega
    refine ⟨?_, ?_⟩
    . rw [hl]
      exact .leftChild hp
    rw [show i + 1 = 2 * (i / 2) + 1 by omega]
    exact .rightChild hp
  . next he =>
    rw [if_neg he]
    refine ⟨?_, ?_⟩
    . rw [show i = 2 * (i / 2) + 1 by omega]
      exact .rightChild hp
    rw [show i - 1 = 2 * (i / 2) by omega]
    exact .leftChild hp

theorem NodeAt.topChildren {d b : D} (hi : i / 2 = 1) (hr : h.root e (order i d b).1 (order i d b).2 = root) :
    NodeAt h root i d ∧ NodeAt h root (sibling i) b := by
  unfold order at hr
  unfold sibling
  split at hr
  . next he =>
    obtain rfl : i = 2 := by omega
    exact ⟨.left hr, .right hr⟩
  next he =>
  obtain rfl : i = 3 := by omega
  exact ⟨.right hr, .left hr⟩

theorem LeafAt.unique (hh : CollisionFree h) {a a' : L} (ha : LeafAt h root i a)
    (ha' : LeafAt h root i a') : a = a' := by
  obtain ⟨b, hb⟩ := ha
  obtain ⟨b', hb'⟩ := ha'
  have heq := hh.leaf_inj (hb.unique hh hb')
  unfold order at heq
  split at heq
  . exact heq.1
  . exact heq.2

theorem LeafAt.pair {a b : L} (hi : 2 ≤ i)
    (hp : NodeAt h root (i / 2) (h.leaf (order i a b).1 (order i a b).2)) :
    LeafAt h root i a ∧ LeafAt h root (sibling i) b := by
  refine ⟨⟨b, hp⟩, ⟨a, ?_⟩⟩
  rw [sibling_div_two i hi, order_sibling]
  exact hp

theorem NodeAt.parent {d : D} (hd : NodeAt h root i d) :
    (i / 2 = 1 ∧ ∃ e b, h.root e (order i d b).1 (order i d b).2 = root) ∨
      ∃ b, NodeAt h root (i / 2) (h.node (order i d b).1 (order i d b).2) := by
  cases hd with
  | @left e l r hr => exact .inl ⟨rfl, e, r, hr⟩
  | @right e l r hr => exact .inl ⟨rfl, e, l, hr⟩
  | @leftChild j l r hp =>
    refine .inr ⟨r, ?_⟩
    rw [order, if_pos (by omega), show 2 * j / 2 = j by omega]
    exact hp
  | @rightChild j l r hp =>
    refine .inr ⟨l, ?_⟩
    rw [order, if_neg (by omega), show (2 * j + 1) / 2 = j by omega]
    exact hp

theorem Climbs.head {d b : D} {rest : List (D × D)} (hc : Climbs h root e i ((d, b) :: rest)) :
    NodeAt h root i d ∧ NodeAt h root (sibling i) b := by
  induction rest generalizing i d b with
  | nil =>
    obtain ⟨hi, hr⟩ := hc
    exact NodeAt.topChildren hi hr
  | cons p rest ih =>
    obtain ⟨d', b'⟩ := p
    obtain ⟨_, rfl, hup⟩ := hc
    exact (ih hup).1.children

theorem Climbs.nodeAt {levels : List (D × D)} (hc : Climbs h root e i levels) (n : Nat)
    (hn : n < levels.length) :
    NodeAt h root (i / 2 ^ n) (levels.get ⟨n, hn⟩).1 ∧ NodeAt h root (sibling (i / 2 ^ n)) (levels.get ⟨n, hn⟩).2 := by
  induction levels generalizing i n with
  | nil => exact hc.elim
  | cons p rest ih =>
    obtain ⟨d, b⟩ := p
    cases n with
    | zero => simpa using hc.head
    | succ n =>
      cases rest with
      | nil => simp at hn
      | cons p' rest =>
        have := ih hc.2.2 n (by simpa using hn)
        rwa [Nat.div_div_eq_div_mul, ← Nat.pow_succ'] at this

theorem Climbs.two_le_iff {levels : List (D × D)} (hc : Climbs h root e i levels) (n : Nat) :
    2 ≤ i / 2 ^ n ↔ n < levels.length := by
  induction levels generalizing i n with
  | nil => exact hc.elim
  | cons p rest ih =>
    obtain ⟨d, b⟩ := p
    have hi : 2 ≤ i := hc.head.1.two_le
    cases n with
    | zero => simpa using hi
    | succ n =>
      rw [Nat.pow_succ', ← Nat.div_div_eq_div_mul]
      cases rest with
      | nil =>
        rw [hc.1]
        have hle : 1 / 2 ^ n ≤ 1 := Nat.div_le_self _ _
        simp only [List.length_cons, List.length_nil]
        omega
      | cons p' rest =>
        rw [ih hc.2.2 n]
        simp

theorem Climbs.of_nodeAt (hh : CollisionFree h) {levels : List (D × D)} (hne : levels ≠ [])
    (hi : i / 2 ^ levels.length = 1)
    (hat : ∀ n, (hn : n < levels.length) → NodeAt h root (i / 2 ^ n) (levels.get ⟨n, hn⟩).1 ∧
      NodeAt h root (sibling (i / 2 ^ n)) (levels.get ⟨n, hn⟩).2) :
    ∃ e, Climbs h root e i levels := by
  induction levels generalizing i with
  | nil => exact absurd rfl hne
  | cons p rest ih =>
    obtain ⟨d, b⟩ := p
    obtain ⟨hd, hb⟩ : NodeAt h root i d ∧ NodeAt h root (sibling i) b := by
      simpa using hat 0 (by simp)
    rw [List.length_cons, Nat.pow_succ', ← Nat.div_div_eq_div_mul] at hi
    cases rest with
    | nil =>
      have hi1 : i / 2 = 1 := by simpa using hi
      obtain ⟨_, e, b', hr⟩ | ⟨b', hp⟩ := hd.parent
      . obtain rfl := (NodeAt.topChildren hi1 hr).2.unique hh hb
        exact ⟨e, hi1, hr⟩
      have := hp.two_le
      omega
    | cons p' rest =>
      obtain ⟨e, hup⟩ := ih (by simp) hi fun n hn => by
        have := hat (n + 1) (by simpa using hn)
        rwa [Nat.pow_succ', ← Nat.div_div_eq_div_mul] at this
      have hd' := hup.head.1
      obtain ⟨h1, _⟩ | ⟨b', hp⟩ := hd.parent
      . have := hd'.two_le
        omega
      obtain rfl := hp.children.2.unique hh hb
      exact ⟨e, hd.two_le, hd'.unique hh hp, hup⟩

def Apart (i k : Nat) : Prop := ∀ n, i / 2 ^ n ≠ k ∧ k / 2 ^ n ≠ i

section

variable {levels levels' : List (D × D)}

theorem Climbs.brother (hh : CollisionFree h) (hc : Climbs h root e i levels)
    (hc' : Climbs h root' e' i levels') (hb : levels'.map Prod.snd = levels.map Prod.snd) {n : Nat}
    {d : D} (hn : 2 ≤ i / 2 ^ n) (hd : NodeAt h root' (sibling (i / 2 ^ n)) d) :
    NodeAt h root (sibling (i / 2 ^ n)) d := by
  have hlt := (hc.two_le_iff n).1 hn
  have hlt' := (hc'.two_le_iff n).1 hn
  have hsame : (levels'.get ⟨n, hlt'⟩).2 = (levels.get ⟨n, hlt⟩).2 := by
    have := congrArg (fun l => l[n]?) hb
    simpa [List.getElem?_eq_getElem hlt, List.getElem?_eq_getElem hlt'] using this
  rw [hd.unique hh (hc'.nodeAt n hlt').2, hsame]
  exact (hc.nodeAt n hlt).2

theorem Climbs.nodeAt_of_apart (hh : CollisionFree h) (hc : Climbs h root e i levels)
    (hc' : Climbs h root' e' i levels') (hb : levels'.map Prod.snd = levels.map Prod.snd) {k : Nat}
    {d : D} (hd : NodeAt h root' k d) (hk : Apart i k) : NodeAt h root k d := by
  -- a node whose parent is on the branch is a brother of the branch
  have hbrother : ∀ {k' : Nat} {d' : D}, NodeAt h root' k' d' → Apart i k' →
      ∀ n, i / 2 ^ n = k' / 2 → NodeAt h root k' d' := by
    intro k' d' hd' hk' n hn
    have hk2 := hd'.two_le
    cases n with
    | zero =>
      exact absurd (by simpa using hn.symm) (hk' 1).2
    | succ n =>
      have hup : i / 2 ^ n / 2 = k' / 2 := by rw [Nat.div_div_eq_div_mul, ← Nat.pow_succ, hn]
      obtain rfl : k' = sibling (i / 2 ^ n) := eq_sibling hup.symm (Ne.symm (hk' n).1)
      exact hc.brother hh hc' hb (by omega) hd'
  have hup : ∀ {k' : Nat}, Apart i k' → (∀ n, i / 2 ^ n ≠ k' / 2) → Apart i (k' / 2) := by
    intro k' hk' hne n
    refine ⟨hne n, ?_⟩
    rw [Nat.div_div_eq_div_mul, ← Nat.pow_succ']
    exact (hk' (n + 1)).2
  have hi1 : ∃ n, i / 2 ^ n = 1 := by
    have hpos : 0 < levels.length := by
      cases levels with
      | nil => exact hc.elim
      | cons => simp
    refine ⟨levels.length, ?_⟩
    have hno := mt (hc.two_le_iff levels.length).1 (Nat.lt_irrefl _)
    have hyes := (hc.two_le_iff (levels.length - 1)).2 (by omega)
    have hstep : i / 2 ^ (levels.length - 1) / 2 = i / 2 ^ levels.length := by
      rw [Nat.div_div_eq_div_mul, ← Nat.pow_succ, Nat.succ_eq_add_one, Nat.sub_add_cancel hpos]
    omega
  induction hd with
  | left hr =>
    obtain ⟨n, hn⟩ := hi1
    exact hbrother (.left hr) hk n hn
  | right hr =>
    obtain ⟨n, hn⟩ := hi1
    exact hbrother (.right hr) hk n hn
  | @leftChild j l r hp ih =>
    have hj : 2 * j / 2 = j := by omega
    by_cases hon : ∃ n, i / 2 ^ n = j
    . obtain ⟨n, hn⟩ := hon
      exact hbrother (.leftChild hp) hk n (by rw [hj, hn])
    have hj' := hup hk (by rw [hj]; exact not_exists.1 hon)
    rw [hj] at hj'
    exact .leftChild (ih hj')
  | @rightChild j l r hp ih =>
    have hj : (2 * j + 1) / 2 = j := by omega
    by_cases hon : ∃ n, i / 2 ^ n = j
    . obtain ⟨n, hn⟩ := hon
      exact hbrother (.rightChild hp) hk n (by rw [hj, hn])
    have hj' := hup hk (by rw [hj]; exact not_exists.1 hon)
    rw [hj] at hj'
    exact .rightChild (ih hj')

theorem Climbs.leafAt_of_apart (hh : CollisionFree h) (hc : Climbs h root e i levels)
    (hc' : Climbs h root' e' i levels') (hb : levels'.map Prod.snd = levels.map Prod.snd) {k : Nat}
    {a : L} (ha : LeafAt h root' k a) (hk : Apart i (k / 2)) : LeafAt h root k a := by
  obtain ⟨b, hp⟩ := ha
  exact ⟨b, hc.nodeAt_of_apart hh hc' hb hp hk⟩

end

end

end Merkle
