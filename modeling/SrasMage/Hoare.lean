import Mathlib.Algebra.Order.Ring.Nat
import Mathlib.Data.List.Basic
import Mathlib.Tactic.Common

/-!
This module contains pre- and postconditions for programs with a state that may stop early.
-/

namespace Hoare

open List

variable {ε σ α β : Type}

def Runs (x : EStateM ε σ α) (s : σ) (Q : α → σ → Prop) (R : ε → σ → Prop) : Prop :=
  match x s with
  | .ok a s' => Q a s'
  | .error e s' => R e s'

variable {x : EStateM ε σ α} {f : α → EStateM ε σ β} {s s' : σ} {Q Q' : α → σ → Prop}
  {R R' : ε → σ → Prop}

variable {a : α} {e : ε} {handler : ε → EStateM ε σ α}

theorem Runs.ok (h : Runs x s Q R) (hx : x s = .ok a s') : Q a s' := by
  unfold Runs at h
  rw [hx] at h
  exact h

theorem Runs.error (h : Runs x s Q R) (hx : x s = .error e s') : R e s' := by
  unfold Runs at h
  rw [hx] at h
  exact h

theorem Runs.mono (h : Runs x s Q R) (hQ : ∀ a s', Q a s' → Q' a s') (hR : ∀ e s', R e s' → R' e s') :
    Runs x s Q' R' := by
  unfold Runs at *
  split
  . next a s' hx =>
    rw [hx] at h
    exact hQ a s' h
  next e s' hx =>
  rw [hx] at h
  exact hR e s' h

theorem Runs.pure (h : Q a s) : Runs (Pure.pure a) s Q R := h

theorem Runs.throw (h : R e s) : Runs (MonadExcept.throw e : EStateM ε σ α) s Q R := h

theorem Runs.get {Q : σ → σ → Prop} (h : Q s s) : Runs MonadState.get s Q R := h

theorem Runs.modify {g : σ → σ} {Q : Unit → σ → Prop} (h : Q () (g s)) : Runs (modify g : EStateM ε σ Unit) s Q R := h

theorem Runs.bind {Q : β → σ → Prop} (h : Runs x s (fun a s' => Runs (f a) s' Q R) R) : Runs (x >>= f) s Q R := by
  unfold Runs at h
  show Runs (EStateM.bind x f) s Q R
  unfold Runs EStateM.bind
  split at h
  . next a s' hx =>
    rw [hx]
    exact h
  next e s' hx =>
  rw [hx]
  exact h

theorem bind_eq_ok {b : β} {s'' : σ} : (x >>= f) s = .ok b s'' ↔ ∃ a s', x s = .ok a s' ∧ f a s' = .ok b s'' := by
  show EStateM.bind x f s = .ok b s'' ↔ _
  unfold EStateM.bind
  constructor
  . intro h
    split at h
    . next a s' hx => exact ⟨a, s', hx, h⟩
    . cases h
  . rintro ⟨a, s', hx, h⟩
    rw [hx]
    exact h

def isOk (x : EStateM ε σ α) (s : σ) : Bool :=
  match x s with
  | .ok _ _ => true
  | .error _ _ => false

theorem exists_ok (h : isOk x s = true) : ∃ a s', x s = .ok a s' := by
  unfold isOk at h
  split at h
  . next a s' hx => exact ⟨a, s', hx⟩
  . cases h

theorem bind_of_ok (h : x s = .ok a s') : (x >>= f) s = f a s' := by
  show EStateM.bind x f s = _
  unfold EStateM.bind
  rw [h]

theorem bind_of_error (h : x s = .error e s') : (x >>= f) s = .error e s' := by
  show EStateM.bind x f s = _
  unfold EStateM.bind
  rw [h]

theorem tryCatch_of_ok (h : x s = .ok a s') : MonadExcept.tryCatch x handler s = .ok a s' := by
  show EStateM.tryCatch x handler s = _
  unfold EStateM.tryCatch
  rw [h]

theorem tryCatch_of_error (h : x s = .error e s') : MonadExcept.tryCatch x handler s = handler e s' := by
  show EStateM.tryCatch x handler s = _
  unfold EStateM.tryCatch
  rw [h]
  rfl

theorem pure_eq_ok {b : α} : (Pure.pure a : EStateM ε σ α) s = .ok b s' ↔ a = b ∧ s = s' := by
  show EStateM.Result.ok a s = .ok b s' ↔ _
  rw [EStateM.Result.ok.injEq]

theorem Runs.ite {p : Prop} [Decidable p] {y : EStateM ε σ α} (hpos : p → Runs x s Q R)
    (hneg : ¬p → Runs y s Q R) : Runs (if p then x else y) s Q R := by
  split
  . next h => exact hpos h
  . next h => exact hneg h

theorem Runs.tryCatch (h : Runs x s Q (fun e s' => Runs (handler e) s' Q R)) :
    Runs (MonadExcept.tryCatch x handler) s Q R := by
  unfold Runs at h
  show Runs (EStateM.tryCatch x handler) s Q R
  unfold Runs EStateM.tryCatch
  split at h
  . next a s' hx =>
    rw [hx]
    exact h
  next e s' hx =>
  rw [hx]
  exact h

theorem Runs.forM {xs : List α} {body : α → EStateM ε σ Unit} {R : ε → σ → Prop}
    (I : List α → σ → Prop) (hstart : I [] s)
    (hstep : ∀ done a rest s, xs = done ++ a :: rest → I done s → Runs (body a) s (fun _ s' => I (done ++ [a]) s') R) :
    Runs (ForM.forM xs body) s (fun _ s' => I xs s') R := by
  suffices h : ∀ done rest s, xs = done ++ rest → I done s →
      Runs (ForM.forM rest body) s (fun _ s' => I xs s') R from h [] xs s rfl hstart
  intro done rest
  induction rest generalizing done with
  | nil =>
    intro s hxs hI
    rw [append_nil] at hxs
    rw [← hxs] at hI
    exact hI
  | cons a rest ih =>
    intro s hxs hI
    rw [forM_cons]
    refine .bind ((hstep done a rest s hxs hI).mono (fun _ s' h => ?_) fun _ _ h => h)
    exact ih (done ++ [a]) s' (by rw [hxs, append_assoc]; rfl) h

theorem forM_flatMap {γ : Type} (xs : List α) (f : α → List γ) (body : γ → EStateM ε σ Unit) :
    (xs.flatMap f).forM body = xs.forM fun a => (f a).forM body := by
  induction xs with
  | nil => rfl
  | cons a xs ih =>
    rw [forM_eq_forM, forM_eq_forM] at *
    rw [flatMap_cons, forM_append, forM_cons, ih]

theorem forM_congr {xs : List α} {body body' : α → EStateM ε σ Unit} (h : ∀ a ∈ xs, body a = body' a) :
    xs.forM body = xs.forM body' := by
  induction xs with
  | nil => rfl
  | cons a xs ih =>
    have hrest := ih fun b hb => h b (mem_cons_of_mem a hb)
    rw [forM_eq_forM] at *
    rw [forM_cons, forM_cons, h a mem_cons_self, hrest]

end Hoare
