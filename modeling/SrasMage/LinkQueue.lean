import Mathlib.Algebra.Order.Ring.Nat
import Mathlib.Data.List.Nodup
import Mathlib.Logic.Function.Basic
import Mathlib.Tactic.Common

/-!
This module contains queues that are threaded through a link field of their elements.
-/

namespace LinkQueue

open List Function

variable {T O : Type}

inductive Head (T : Type)
  | empty
  | ends (first last : T)
deriving DecidableEq

namespace Head

def first : Head T → Option T
  | .empty => none
  | .ends first _ => some first

def last : Head T → Option T
  | .empty => none
  | .ends _ last => some last

end Head

abbrev Links (T : Type) := T → Option T

section

variable [DecidableEq T]

def insertTail (next : Links T) (head : Head T) (t : T) : Links T × Head T :=
  let next := update next t none
  match head with
  | .empty => (next, .ends t t)
  | .ends first last => (update next last (some t), .ends first t)

def removeHead (next : Links T) : Head T → Head T
  | .empty => .empty
  | .ends first last =>
    match next first with
    | none => .empty
    | some second => .ends second last

def search (next : Links T) (t : T) : Nat → Option T → Option Bool
  | _, none => some false
  | 0, some _ => none
  | fuel + 1, some u => if u = t then some true else search next t fuel (next u)

def countAll (next : Links T) : Nat → Option T → Option Nat
  | _, none => some 0
  | 0, some _ => none
  | fuel + 1, some u => (countAll next fuel (next u)).map (· + 1)

def removeAll (next : Links T) : Nat → Head T → Option (List T)
  | _, .empty => some []
  | 0, .ends _ _ => none
  | fuel + 1, .ends first last => (removeAll next fuel (removeHead next (.ends first last))).map (first :: ·)

end

def Linked (next : Links T) : Option T → List T → Prop
  | p, [] => p = none
  | p, t :: rest => p = some t ∧ Linked next (next t) rest

structure Reps (next : Links T) (head : Head T) (l : List T) : Prop where
  linked : Linked next head.first l
  last : head.last = l.getLast?

variable {next next' : Links T} {head : Head T} {l : List T} {t : T}

theorem Linked.congr {p : Option T} (h : Linked next p l) (hnext : ∀ t ∈ l, next' t = next t) : Linked next' p l := by
  induction l generalizing p with
  | nil => exact h
  | cons t rest ih =>
    refine ⟨h.1, ?_⟩
    rw [hnext t mem_cons_self]
    exact ih h.2 fun u hu => hnext u (mem_cons_of_mem _ hu)

theorem Reps.first_eq (h : Reps next head l) : head.first = l.head? := by
  cases l with
  | nil => exact h.linked
  | cons t rest => exact h.linked.1

@[simp]
theorem reps_nil_iff : Reps next head [] ↔ head = .empty := by
  constructor
  . intro h
    cases head with
    | empty => rfl
    | ends first last => exact absurd h.last nofun
  . rintro rfl
    exact ⟨rfl, rfl⟩

theorem Reps.congr (h : Reps next head l) (hnext : ∀ t ∈ l, next' t = next t) : Reps next' head l :=
  ⟨h.linked.congr hnext, h.last⟩

variable [DecidableEq T]

theorem Linked.concat {p : Option T} (h : Linked next p l) (hl : l ≠ []) (ht : next t = none) (htl : t ∉ l)
    (hnodup : l.Nodup) : Linked (update next (l.getLast hl) (some t)) p (l ++ [t]) := by
  induction l generalizing p with
  | nil => exact absurd rfl hl
  | cons u rest ih =>
    refine ⟨h.1, ?_⟩
    cases rest with
    | nil =>
      rw [getLast_singleton, update_self]
      refine ⟨rfl, ?_⟩
      rw [update_of_ne (ne_of_not_mem_cons htl)]
      exact ht
    | cons v rest' =>
      have hne : v :: rest' ≠ [] := cons_ne_nil _ _
      have hu : u ≠ (v :: rest').getLast hne := fun heq =>
        (nodup_cons.1 hnodup).1 (heq ▸ getLast_mem hne)
      rw [getLast_cons hne, update_of_ne hu]
      exact ih h.2 hne (not_mem_of_not_mem_cons htl) (nodup_cons.1 hnodup).2

theorem Reps.insertTail (h : Reps next head l) (hnodup : l.Nodup) (ht : t ∉ l) :
    Reps (insertTail next head t).1 (insertTail next head t).2 (l ++ [t]) := by
  have hlinked : Linked (update next t none) head.first l :=
    h.linked.congr fun u hu => update_of_ne (ne_of_mem_of_not_mem hu ht) _ _
  cases head with
  | empty =>
    obtain rfl : l = [] := by
      cases l with
      | nil => rfl
      | cons u rest => exact absurd h.linked.1 nofun
    exact ⟨⟨rfl, update_self _ _ _⟩, rfl⟩
  | ends first last =>
    have hne : l ≠ [] := by
      rintro rfl
      exact absurd h.linked nofun
    have hlast : last = l.getLast hne := by
      have hl := h.last
      rw [getLast?_eq_some_getLast hne] at hl
      exact Option.some.inj hl
    refine ⟨?_, getLast?_concat.symm⟩
    rw [hlast] at *
    exact hlinked.concat hne (update_self _ _ _) ht hnodup

theorem insertTail_of_not_mem (h : Reps next head l) {u : T} (hne : u ≠ t) (hu : u ∉ l) :
    (LinkQueue.insertTail next head t).1 u = next u := by
  cases head with
  | empty => exact update_of_ne hne _ _
  | ends first last =>
    have hlast : u ≠ last := by
      rintro rfl
      exact hu (mem_of_getLast? h.last.symm)
    exact (update_of_ne hlast _ _).trans (update_of_ne hne _ _)

omit [DecidableEq T] in
theorem Reps.removeHead (h : Reps next head (t :: l)) : Reps next (removeHead next head) l := by
  cases head with
  | empty => exact absurd h.linked.1 nofun
  | ends first last =>
    obtain rfl : first = t := Option.some.inj h.linked.1
    have hlinked := h.linked.2
    rw [LinkQueue.removeHead.eq_def]
    dsimp only
    cases l with
    | nil =>
      have hnext : next first = none := hlinked
      rw [hnext, reps_nil_iff]
    | cons u rest =>
      rw [hlinked.1]
      refine ⟨⟨rfl, hlinked.2⟩, ?_⟩
      rw [← getLast?_cons_cons (a := first)]
      exact h.last

theorem search_of_linked {p : Option T} (h : Linked next p l) (t : T) {fuel : Nat} (hfuel : l.length ≤ fuel) :
    search next t fuel p = some (decide (t ∈ l)) := by
  induction l generalizing p fuel with
  | nil =>
    cases h
    simp [search]
  | cons u rest ih =>
    obtain ⟨fuel, rfl⟩ : ∃ n, fuel = n + 1 := ⟨fuel - 1, by simp at hfuel; omega⟩
    obtain ⟨rfl, hrest⟩ := h
    rw [search]
    by_cases hu : u = t
    . rw [if_pos hu, hu]
      simp
    rw [if_neg hu, ih hrest (by simpa using hfuel)]
    simp [Ne.symm hu]

theorem search_eq_iff {p : Option T} (h : Linked next p l) {fuel : Nat} {b : Bool}
    (hs : search next t fuel p = some b) : b = true ↔ t ∈ l := by
  induction l generalizing p fuel with
  | nil =>
    cases h
    rw [search] at hs
    simp [← Option.some.inj hs]
  | cons u rest ih =>
    obtain ⟨rfl, hrest⟩ := h
    cases fuel with
    | zero => exact absurd hs nofun
    | succ fuel =>
      rw [search] at hs
      split at hs
      next hu => simp [← Option.some.inj hs, hu]
      next hu => simp [ih hrest hs, Ne.symm hu]

omit [DecidableEq T] in
omit [DecidableEq T] in
structure Family (next : Links T) (head : O → Head T) (q : O → List T) : Prop where
  reps : ∀ o, Reps next (head o) (q o)
  nodup : ∀ o, (q o).Nodup
  apart : ∀ t o o', t ∈ q o → t ∈ q o' → o = o'

variable [DecidableEq O] {headOf : O → Head T} {q : O → List T} {o : O}

theorem Family.insertTail (h : Family next headOf q) (ht : ∀ o, t ∉ q o) :
    Family (LinkQueue.insertTail next (headOf o) t).1 (update headOf o (LinkQueue.insertTail next (headOf o) t).2)
      (update q o (q o ++ [t])) := by
  refine ⟨fun o' => ?_, fun o' => ?_, ?_⟩
  . by_cases ho : o' = o
    . subst ho
      rw [update_self, update_self]
      exact (h.reps o').insertTail (h.nodup o') (ht o')
    rw [update_of_ne ho, update_of_ne ho]
    refine (h.reps o').congr fun u hu => insertTail_of_not_mem (h.reps o) ?_ ?_
    . rintro rfl
      exact ht o' hu
    intro hu'
    exact ho (h.apart u o' o hu hu')
  . by_cases ho : o' = o
    . subst ho
      rw [update_self, nodup_append_comm]
      exact nodup_cons.2 ⟨ht o', h.nodup o'⟩
    . rw [update_of_ne ho]
      exact h.nodup o'
  . have hmem : ∀ u o', u ∈ update q o (q o ++ [t]) o' → u ∈ q o' ∨ (u = t ∧ o' = o) := by
      intro u o' hu
      by_cases ho : o' = o
      . subst ho
        rw [update_self, mem_append, mem_singleton] at hu
        exact hu.imp_right fun hut => ⟨hut, rfl⟩
      . rw [update_of_ne ho] at hu
        exact .inl hu
    intro u o1 o2 h1 h2
    rcases hmem u o1 h1 with h1 | ⟨hu, ho1⟩ <;> rcases hmem u o2 h2 with h2 | ⟨hu', ho2⟩
    . exact h.apart u o1 o2 h1 h2
    . exact absurd (hu' ▸ h1) (ht o1)
    . exact absurd (hu ▸ h2) (ht o2)
    . rw [ho1, ho2]

omit [DecidableEq T] in
theorem Family.shorten (h : Family next headOf q) {head : Head T} {l' : List T} (hreps : Reps next head l')
    (hsub : l'.Sublist (q o)) : Family next (update headOf o head) (update q o l') := by
  have hmem : ∀ u o', u ∈ update q o l' o' → u ∈ q o' := by
    intro u o' hu
    by_cases ho : o' = o
    . subst ho
      rw [update_self] at hu
      exact hsub.subset hu
    . rwa [update_of_ne ho] at hu
  refine ⟨fun o' => ?_, fun o' => ?_, fun u o1 o2 h1 h2 => h.apart u o1 o2 (hmem u o1 h1) (hmem u o2 h2)⟩
  . by_cases ho : o' = o
    . subst ho
      rw [update_self, update_self]
      exact hreps
    . rw [update_of_ne ho, update_of_ne ho]
      exact h.reps o'
  by_cases ho : o' = o
  . subst ho
    rw [update_self]
    exact hsub.nodup (h.nodup o')
  . rw [update_of_ne ho]
    exact h.nodup o'

end LinkQueue
