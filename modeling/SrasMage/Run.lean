import Mathlib.Algebra.Order.Ring.Nat
import Mathlib.Tactic.Common

/-!
This module contains the runs of a system that moves by labelled steps, and the rules that lift a property
of one step to a run.
-/

variable {σ ε : Type} {step : σ → ε → σ → Prop}

inductive Run (step : σ → ε → σ → Prop) (s₀ : σ) : List ε → σ → Prop
  | nil : Run step s₀ [] s₀
  | snoc {trace e s s'} : Run step s₀ trace s → step s e s' → Run step s₀ (trace ++ [e]) s'

namespace Run

variable {s₀ s s' : σ} {trace : List ε} {e : ε}

theorem invariant {I : List ε → σ → Prop} (h : Run step s₀ trace s) (hinit : I [] s₀)
    (hstep : ∀ trace s e s', I trace s → step s e s' → I (trace ++ [e]) s') : I trace s := by
  induction h with
  | nil => exact hinit
  | snoc _ hs ih => exact hstep _ _ _ _ ih hs

theorem cons {s1 : σ} (hs : step s₀ e s1) (h : Run step s1 trace s) : Run step s₀ (e :: trace) s := by
  induction h with
  | nil => exact .snoc .nil hs
  | snoc _ hs' ih => exact .snoc ih hs'

theorem split {pre post : List ε} (h : Run step s₀ (pre ++ e :: post) s) :
    ∃ s1 s2, Run step s₀ pre s1 ∧ step s1 e s2 ∧ Run step s2 post s := by
  generalize htrace : pre ++ e :: post = trace at h
  induction h generalizing post with
  | nil => simp at htrace
  | @snoc trace' e' s s' hrun hs ih =>
    rcases List.eq_nil_or_concat post with rfl | ⟨post', x, rfl⟩
    . obtain ⟨rfl, heq⟩ := List.append_inj' htrace rfl
      cases heq
      exact ⟨s, s', hrun, hs, .nil⟩
    have hsplit : (pre ++ e :: post') ++ [x] = trace' ++ [e'] := by
      rw [← htrace]
      simp
    obtain ⟨htrace', heq⟩ := List.append_inj' hsplit rfl
    cases heq
    obtain ⟨s1, s2, hpre, hs1, hpost⟩ := ih htrace'
    refine ⟨s1, s2, hpre, hs1, ?_⟩
    rw [List.concat_eq_append]
    exact .snoc hpost hs

def replay {α : Type} (exec : σ → α → Option (ε × σ)) : σ → List α → Option (List ε × σ)
  | s, [] => some ([], s)
  | s, a :: rest =>
    match exec s a with
    | none => none
    | some (e, s') => (replay exec s' rest).map fun (trace, s'') => (e :: trace, s'')

theorem of_replay {α : Type} (exec : σ → α → Option (ε × σ)) (commands : List α)
    (hexec : ∀ s a e s', exec s a = some (e, s') → step s e s')
    (h : replay exec s₀ commands = some (trace, s)) : Run step s₀ trace s := by
  induction commands generalizing s₀ trace with
  | nil =>
    cases h
    exact .nil
  | cons a rest ih =>
    unfold replay at h
    split at h
    . cases h
    next e s1 hstep =>
      rw [Option.map_eq_some_iff] at h
      obtain ⟨⟨trace', s'⟩, hrest, heq⟩ := h
      cases heq
      exact .cons (hexec _ _ _ _ hstep) (ih hrest)

end Run
