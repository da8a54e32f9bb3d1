import SrasMage.Run

/-!
This module contains programs that run in threads over one memory with locks, and rules that prove an
invariant of all their interleavings one program at a time.
-/

namespace Threads

open Function

variable {σ L ε ε' α β τ κ ρ : Type}

inductive Prog (σ L ε α : Type) : Type 1
  | ret (a : α)
  | fail (e : ε)
  | access {β : Type} (f : σ → β × σ) (k : β → Prog σ L ε α)
  | choose {β : Type} (p : β → Prop) (k : β → Prog σ L ε α)
  | acquire (l : L) (k : Prog σ L ε α)
  | release (l : L) (k : Prog σ L ε α)

namespace Prog

def bind : Prog σ L ε α → (α → Prog σ L ε β) → Prog σ L ε β
  | ret a, g => g a
  | fail e, _ => fail e
  | access f k, g => access f fun b => (k b).bind g
  | choose p k, g => choose p fun b => (k b).bind g
  | acquire l k, g => acquire l (k.bind g)
  | release l k, g => release l (k.bind g)

instance : Monad (Prog σ L ε) where
  pure := ret
  bind := bind

def toExcept : Prog σ L ε α → Prog σ L ε' (Except ε α)
  | ret a => ret (.ok a)
  | fail e => ret (.error e)
  | access f k => access f fun b => (k b).toExcept
  | choose p k => choose p fun b => (k b).toExcept
  | acquire l k => acquire l k.toExcept
  | release l k => release l k.toExcept

end Prog

def load (f : σ → α) : Prog σ L ε α := .access (fun s => (f s, s)) .ret

def store (f : σ → σ) : Prog σ L ε Unit := .access (fun s => ((), f s)) .ret

def choose (p : α → Prop) : Prog σ L ε α := .choose p .ret

def fail (e : ε) : Prog σ L ε α := .fail e

def lock (l : L) : Prog σ L ε Unit := .acquire l (.ret ())

def unlock (l : L) : Prog σ L ε Unit := .release l (.ret ())

def ofExcept : Except ε α → Prog σ L ε α
  | .ok a => .ret a
  | .error e => .fail e

def withLock (l : L) (body : Prog σ L ε α) : Prog σ L ε α := do
  lock l
  let r ← body.toExcept
  unlock l
  ofExcept r

structure World (σ L ε τ κ ρ : Type) where
  mem : σ
  owner : L → Option τ
  started : List κ
  finished : List (κ × Except ε ρ)

namespace World

def setMem (w : World σ L ε τ κ ρ) (s : σ) : World σ L ε τ κ ρ := { w with mem := s }

def setOwner [DecidableEq L] (w : World σ L ε τ κ ρ) (l : L) (t : Option τ) : World σ L ε τ κ ρ :=
  { w with owner := update w.owner l t }

def start (w : World σ L ε τ κ ρ) (c : κ) : World σ L ε τ κ ρ := { w with started := w.started ++ [c] }

def finish (w : World σ L ε τ κ ρ) (c : κ) (r : Except ε ρ) : World σ L ε τ κ ρ :=
  { w with finished := w.finished ++ [(c, r)] }

end World

section

variable (Inv : World σ L ε τ κ ρ → Prop) (Rely : τ → World σ L ε τ κ ρ → World σ L ε τ κ ρ → Prop)

def Moves (t : τ) (w w' : World σ L ε τ κ ρ) : Prop := Inv w' ∧ ∀ u, u ≠ t → Rely u w w'

def Later (t : τ) (P : World σ L ε τ κ ρ → Prop) (w : World σ L ε τ κ ρ) : Prop := ∀ w', Rely t w w' → Inv w' → P w'

theorem Later.mono {Inv : World σ L ε τ κ ρ → Prop} {Rely : τ → World σ L ε τ κ ρ → World σ L ε τ κ ρ → Prop} {t : τ}
    {w : World σ L ε τ κ ρ} {P P' : World σ L ε τ κ ρ → Prop} (h : Later Inv Rely t P w)
    (hP : ∀ w', Rely t w w' → Inv w' → P w' → P' w') : Later Inv Rely t P' w :=
  fun w' hrely hinv => hP w' hrely hinv (h w' hrely hinv)

variable [DecidableEq L]

def wp (t : τ) : Prog σ L ε α → (α → World σ L ε τ κ ρ → Prop) → (ε → World σ L ε τ κ ρ → Prop) →
    World σ L ε τ κ ρ → Prop
  | .ret a, Q, _, w => Q a w
  | .fail e, _, E, w => E e w
  | .access f k, Q, E, w => Moves Inv Rely t w (w.setMem (f w.mem).2) ∧
      Later Inv Rely t (wp t (k (f w.mem).1) Q E) (w.setMem (f w.mem).2)
  | .choose p k, Q, E, w => ∀ b, p b → wp t (k b) Q E w
  | .acquire l k, Q, E, w => w.owner l = none → Moves Inv Rely t w (w.setOwner l (some t)) ∧
      Later Inv Rely t (wp t k Q E) (w.setOwner l (some t))
  | .release l k, Q, E, w => Moves Inv Rely t w (w.setOwner l none) ∧
      Later Inv Rely t (wp t k Q E) (w.setOwner l none)

end

section

variable [DecidableEq L]
variable {Inv : World σ L ε τ κ ρ → Prop} {Rely : τ → World σ L ε τ κ ρ → World σ L ε τ κ ρ → Prop} {t : τ}
  {Q Q' : α → World σ L ε τ κ ρ → Prop} {E E' : ε → World σ L ε τ κ ρ → Prop} {w : World σ L ε τ κ ρ}

theorem wp_bind {p : Prog σ L ε β} {g : β → Prog σ L ε α} :
    wp Inv Rely t (p >>= g) Q E w ↔ wp Inv Rely t p (fun b => wp Inv Rely t (g b) Q E) E w := by
  change wp Inv Rely t (p.bind g) Q E w ↔ _
  induction p generalizing w with
  | ret | fail => exact Iff.rfl
  | access f k ih | choose p k ih | acquire l k ih | release l k ih => simp only [Prog.bind, wp, Later, ih]

theorem wp_toExcept {p : Prog σ L ε' α} {Q : Except ε' α → World σ L ε' τ κ ρ → Prop}
    {E : ε' → World σ L ε' τ κ ρ → Prop}
    {Inv : World σ L ε' τ κ ρ → Prop} {Rely : τ → World σ L ε' τ κ ρ → World σ L ε' τ κ ρ → Prop}
    {w : World σ L ε' τ κ ρ} :
    wp Inv Rely t p.toExcept Q E w ↔ wp Inv Rely t p (fun a => Q (.ok a)) (fun e => Q (.error e)) w := by
  induction p generalizing w with
  | ret | fail => exact Iff.rfl
  | access f k ih | choose p k ih | acquire l k ih | release l k ih => simp only [Prog.toExcept, wp, Later, ih]

theorem wp_mono {p : Prog σ L ε α} (h : wp Inv Rely t p Q E w) (hQ : ∀ a w', Q a w' → Q' a w')
    (hE : ∀ e w', E e w' → E' e w') : wp Inv Rely t p Q' E' w := by
  induction p generalizing w with
  | ret a => exact hQ a w h
  | fail e => exact hE e w h
  | access f k ih => exact ⟨h.1, h.2.mono fun _ _ _ => ih _⟩
  | choose p k ih => exact fun b hb => ih b (h b hb)
  | acquire l k ih => exact fun hfree => ⟨(h hfree).1, (h hfree).2.mono fun _ _ _ => ih⟩
  | release l k ih => exact ⟨h.1, h.2.mono fun _ _ _ => ih⟩

theorem wp_load {f : σ → α} (hrefl : ∀ u, Rely u w w) (hinv : Inv w) (h : Later Inv Rely t (Q (f w.mem)) w) :
    wp Inv Rely t (load f) Q E w :=
  ⟨⟨hinv, fun u _ => hrefl u⟩, h⟩

theorem wp_store {f : σ → σ} {Q : Unit → World σ L ε τ κ ρ → Prop} (hmoves : Moves Inv Rely t w (w.setMem (f w.mem)))
    (h : Later Inv Rely t (Q ()) (w.setMem (f w.mem))) : wp Inv Rely t (store f) Q E w :=
  ⟨hmoves, h⟩

theorem wp_choose {p : α → Prop} (h : ∀ a, p a → Q a w) : wp Inv Rely t (choose p) Q E w := h

theorem wp_withLock {l : L} {body : Prog σ L ε α} (h : w.owner l = none → Moves Inv Rely t w (w.setOwner l (some t)) ∧
      Later Inv Rely t (wp Inv Rely t body
        (fun a w => Moves Inv Rely t w (w.setOwner l none) ∧ Later Inv Rely t (Q a) (w.setOwner l none))
        (fun e w => Moves Inv Rely t w (w.setOwner l none) ∧ Later Inv Rely t (E e) (w.setOwner l none)))
        (w.setOwner l (some t))) :
    wp Inv Rely t (withLock l body) Q E w := by
  refine wp_bind.2 fun hfree => ⟨(h hfree).1, (h hfree).2.mono fun w' _ _ hbody => ?_⟩
  refine wp_bind.2 (wp_toExcept.2 (wp_mono hbody ?_ ?_))
  . exact fun a w'' hend => wp_bind.2 ⟨hend.1, hend.2⟩
  . exact fun e w'' hend => wp_bind.2 ⟨hend.1, hend.2⟩

end

section

variable [DecidableEq L] {t : τ} {w w₁ w' : World σ L ε τ κ ρ}

def Exec (t : τ) : Prog σ L ε α → World σ L ε τ κ ρ → Except ε α → World σ L ε τ κ ρ → Prop
  | .ret a, w, r, w' => r = .ok a ∧ w' = w
  | .fail e, w, r, w' => r = .error e ∧ w' = w
  | .access f k, w, r, w' => Exec t (k (f w.mem).1) (w.setMem (f w.mem).2) r w'
  | .choose p k, w, r, w' => ∃ b, p b ∧ Exec t (k b) w r w'
  | .acquire l k, w, r, w' => w.owner l = none ∧ Exec t k (w.setOwner l (some t)) r w'
  | .release l k, w, r, w' => Exec t k (w.setOwner l none) r w'

theorem Exec.pure (a : α) : Exec t (Pure.pure a : Prog σ L ε α) w (.ok a) w := ⟨rfl, rfl⟩

theorem Exec.load (f : σ → α) : Exec t (load f : Prog σ L ε α) w (.ok (f w.mem)) w := ⟨rfl, rfl⟩

theorem Exec.store (f : σ → σ) : Exec t (store f : Prog σ L ε Unit) w (.ok ()) (w.setMem (f w.mem)) := ⟨rfl, rfl⟩

theorem Exec.choose {p : α → Prop} {a : α} (h : p a) : Exec t (choose p : Prog σ L ε α) w (.ok a) w := ⟨a, h, rfl, rfl⟩

theorem Exec.bind {p : Prog σ L ε α} {g : α → Prog σ L ε β} {a : α} {r : Except ε β} (hp : Exec t p w (.ok a) w₁)
    (hg : Exec t (g a) w₁ r w') : Exec t (p >>= g) w r w' := by
  change Exec t (p.bind g) w r w'
  induction p generalizing w with
  | ret b =>
    obtain ⟨heq, rfl⟩ := hp
    cases heq
    exact hg
  | fail e => cases hp.1
  | access f k ih => exact ih _ hp
  | choose p k ih =>
    obtain ⟨b, hb, hk⟩ := hp
    exact ⟨b, hb, ih b hk⟩
  | acquire l k ih => exact ⟨hp.1, ih hp.2⟩
  | release l k ih => exact ih hp

theorem Exec.toExcept {p : Prog σ L ε α} {r : Except ε α} (h : Exec t p w r w') :
    Exec t (p.toExcept : Prog σ L ε (Except ε α)) w (.ok r) w' := by
  induction p generalizing w with
  | ret a => exact ⟨congrArg Except.ok h.1, h.2⟩
  | fail e => exact ⟨congrArg Except.ok h.1, h.2⟩
  | access f k ih => exact ih _ h
  | choose p k ih =>
    obtain ⟨b, hb, hk⟩ := h
    exact ⟨b, hb, ih b hk⟩
  | acquire l k ih => exact ⟨h.1, ih h.2⟩
  | release l k ih => exact ih h

theorem Exec.withLock {l : L} {body : Prog σ L ε α} {a : α} (hfree : w.owner l = none)
    (hbody : Exec t body (w.setOwner l (some t)) (.ok a) w') :
    Exec t (withLock l body) w (.ok a) (w'.setOwner l none) := by
  have hlock : Exec t (lock l : Prog σ L ε Unit) w (.ok ()) (w.setOwner l (some t)) := ⟨hfree, rfl, rfl⟩
  exact hlock.bind (hbody.toExcept.bind ⟨rfl, rfl⟩)

end

structure Config (σ L ε τ κ ρ : Type) : Type 1 where
  world : World σ L ε τ κ ρ
  thread : τ → Option (κ × Prog σ L ε ρ)

variable [DecidableEq L] [DecidableEq τ]

inductive Step (code : κ → Prog σ L ε ρ) (x : Config σ L ε τ κ ρ) (t : τ) : Config σ L ε τ κ ρ → Prop
  | start {c : κ} : x.thread t = none → Step code x t ⟨x.world.start c, update x.thread t (some (c, code c))⟩
  | access {c : κ} {β : Type} {f : σ → β × σ} {k : β → Prog σ L ε ρ} : x.thread t = some (c, .access f k) →
    Step code x t ⟨x.world.setMem (f x.world.mem).2, update x.thread t (some (c, k (f x.world.mem).1))⟩
  | choose {c : κ} {β : Type} {p : β → Prop} {k : β → Prog σ L ε ρ} {b : β} : x.thread t = some (c, .choose p k) → p b →
    Step code x t ⟨x.world, update x.thread t (some (c, k b))⟩
  | acquire {c : κ} {l : L} {k : Prog σ L ε ρ} : x.thread t = some (c, .acquire l k) → x.world.owner l = none →
    Step code x t ⟨x.world.setOwner l (some t), update x.thread t (some (c, k))⟩
  | release {c : κ} {l : L} {k : Prog σ L ε ρ} : x.thread t = some (c, .release l k) →
    Step code x t ⟨x.world.setOwner l none, update x.thread t (some (c, k))⟩
  | ret {c : κ} {r : ρ} : x.thread t = some (c, .ret r) →
    Step code x t ⟨x.world.finish c (.ok r), update x.thread t none⟩
  | fail {c : κ} {e : ε} : x.thread t = some (c, .fail e) →
    Step code x t ⟨x.world.finish c (.error e), update x.thread t none⟩

inductive Reachable (code : κ → Prog σ L ε ρ) (init : σ) : Config σ L ε τ κ ρ → Prop
  | init : Reachable code init ⟨⟨init, fun _ => none, [], []⟩, fun _ => none⟩
  | step {x x' : Config σ L ε τ κ ρ} {t : τ} : Reachable code init x → Step code x t x' → Reachable code init x'

section

variable {Inv : World σ L ε τ κ ρ → Prop} {Rely : τ → World σ L ε τ κ ρ → World σ L ε τ κ ρ → Prop} {t : τ}

def Config.Safe (Inv : World σ L ε τ κ ρ → Prop) (Rely : τ → World σ L ε τ κ ρ → World σ L ε τ κ ρ → Prop)
    (x : Config σ L ε τ κ ρ) : Prop :=
  Inv x.world ∧ ∀ t c p, x.thread t = some (c, p) → Later Inv Rely t
    (wp Inv Rely t p (fun r w => Moves Inv Rely t w (w.finish c (.ok r)))
      (fun e w => Moves Inv Rely t w (w.finish c (.error e)))) x.world

variable {code : κ → Prog σ L ε ρ} {x x' : Config σ L ε τ κ ρ}

theorem Config.Safe.update (h : x.Safe Inv Rely)
    (htrans : ∀ t w w' w'', Rely t w w' → Rely t w' w'' → Rely t w w'') {w' : World σ L ε τ κ ρ}
    {next : Option (κ × Prog σ L ε ρ)} (hmoves : Moves Inv Rely t x.world w')
    (hnext : ∀ c p, next = some (c, p) → Later Inv Rely t
      (wp Inv Rely t p (fun r w => Moves Inv Rely t w (w.finish c (.ok r)))
        (fun e w => Moves Inv Rely t w (w.finish c (.error e)))) w') :
    Config.Safe Inv Rely ⟨w', update x.thread t next⟩ := by
  refine ⟨hmoves.1, ?_⟩
  intro u c p hu
  by_cases hut : u = t
  . subst hut
    exact hnext c p (by simpa using hu)
  have hthread : x.thread u = some (c, p) := by simpa [update_of_ne hut] using hu
  intro w'' hrely hinv
  exact h.2 u c p hthread w'' (htrans _ _ _ _ (hmoves.2 u hut) hrely) hinv

theorem Config.Safe.step (h : x.Safe Inv Rely) (hstep : Step code x t x') (hrefl : ∀ t w, Rely t w w)
    (htrans : ∀ t w w' w'', Rely t w w' → Rely t w' w'' → Rely t w w'')
    (hstart : ∀ t c w, Inv w → Moves Inv Rely t w (w.start c))
    (hstarted : ∀ t w w' c, Rely t w w' → c ∈ w.started → c ∈ w'.started)
    (hcode : ∀ t c w, Inv w → c ∈ w.started → wp Inv Rely t (code c)
      (fun r w => Moves Inv Rely t w (w.finish c (.ok r))) (fun e w => Moves Inv Rely t w (w.finish c (.error e))) w) :
    x'.Safe Inv Rely := by
  cases hstep with
  | start hidle =>
    refine h.update htrans (hstart _ _ _ h.1) ?_
    rintro c p hnext w' hrely hinv
    cases hnext
    exact hcode _ _ _ hinv (hstarted _ _ _ _ hrely (List.mem_append_right _ (List.mem_singleton.2 rfl)))
  | access hat =>
    have hwp := h.2 _ _ _ hat _ (hrefl _ _) h.1
    refine h.update htrans hwp.1 ?_
    rintro c p hnext
    cases hnext
    exact hwp.2
  | choose hat hp =>
    refine h.update htrans ⟨h.1, fun u _ => hrefl u _⟩ ?_
    rintro c p hnext
    cases hnext
    exact fun w' hrely hinv => h.2 _ _ _ hat _ hrely hinv _ hp
  | acquire hat hfree =>
    have hwp := h.2 _ _ _ hat _ (hrefl _ _) h.1 hfree
    refine h.update htrans hwp.1 ?_
    rintro c p hnext
    cases hnext
    exact hwp.2
  | release hat =>
    have hwp := h.2 _ _ _ hat _ (hrefl _ _) h.1
    refine h.update htrans hwp.1 ?_
    rintro c p hnext
    cases hnext
    exact hwp.2
  | ret hat => exact h.update htrans (h.2 _ _ _ hat _ (hrefl _ _) h.1) nofun
  | fail hat => exact h.update htrans (h.2 _ _ _ hat _ (hrefl _ _) h.1) nofun

theorem Reachable.invariant {init : σ} (h : Reachable code init x) (hinit : Inv ⟨init, fun _ => none, [], []⟩)
    (hrefl : ∀ t w, Rely t w w) (htrans : ∀ t w w' w'', Rely t w w' → Rely t w' w'' → Rely t w w'')
    (hstart : ∀ t c w, Inv w → Moves Inv Rely t w (w.start c))
    (hstarted : ∀ t w w' c, Rely t w w' → c ∈ w.started → c ∈ w'.started)
    (hcode : ∀ t c w, Inv w → c ∈ w.started → wp Inv Rely t (code c)
      (fun r w => Moves Inv Rely t w (w.finish c (.ok r))) (fun e w => Moves Inv Rely t w (w.finish c (.error e))) w) :
    Inv x.world := by
  have hsafe : x.Safe Inv Rely := by
    induction h with
    | init => exact ⟨hinit, nofun⟩
    | step _ hstep ih => exact ih.step hstep hrefl htrans hstart hstarted hcode
  exact hsafe.1

end

section

variable {t : τ} {w w' : World σ L ε τ κ ρ}

theorem Reachable.exec {code : κ → Prog σ L ε ρ} {init : σ} {r : Except ε ρ} (c : κ)
    (h : Reachable code init ⟨w, fun _ : τ => none⟩) (hexec : Exec t (code c) (w.start c) r w') :
    Reachable code init ⟨w'.finish c r, fun _ : τ => none⟩ := by
  let thread (p : Prog σ L ε ρ) : τ → Option (κ × Prog σ L ε ρ) := update (fun _ => none) t (some (c, p))
  have hat : ∀ p, thread p t = some (c, p) := fun p => update_self ..
  have hnext : ∀ p p', update (thread p) t (some (c, p')) = thread p' := fun p p' => update_idem ..
  have hidle : ∀ p, update (thread p) t none = fun _ => none := by
    intro p
    rw [update_idem]
    exact update_eq_self t _
  have hrun : ∀ p w₁, Exec t p w₁ r w' → Reachable code init ⟨w₁, thread p⟩ →
      Reachable code init ⟨w'.finish c r, fun _ => none⟩ := by
    intro p
    induction p with
    | ret a =>
      rintro w₁ ⟨rfl, rfl⟩ hreach
      exact hidle (.ret a) ▸ hreach.step (.ret (hat _))
    | fail e =>
      rintro w₁ ⟨rfl, rfl⟩ hreach
      exact hidle (.fail e) ▸ hreach.step (.fail (hat _))
    | access f k ih =>
      intro w₁ hp hreach
      exact ih _ _ hp (hnext (.access f k) _ ▸ hreach.step (.access (hat _)))
    | choose p k ih =>
      rintro w₁ ⟨b, hb, hk⟩ hreach
      exact ih _ _ hk (hnext (.choose p k) _ ▸ hreach.step (.choose (hat _) hb))
    | acquire l k ih =>
      rintro w₁ ⟨hfree, hk⟩ hreach
      exact ih _ hk (hnext (.acquire l k) _ ▸ hreach.step (.acquire (hat _) hfree))
    | release l k ih =>
      intro w₁ hp hreach
      exact ih _ hp (hnext (.release l k) _ ▸ hreach.step (.release (hat _)))
  exact hrun _ _ hexec (h.step (.start rfl))

end

end Threads
