import SrasMage.Trts.Entry

/-!
This module contains the proof that the frames on the stack of a thread are its pending OCALLs, and what
follows for the ECALLs that are started and for the returns from OCALLs.
-/


namespace Trts.Entry

open List Function

variable {T : Type} {L : Layout T} {tab : Tables} {s s' : State T} {t t' : T}

def Chain (mem : Nat → Nat) (act : Nat → Pc) (limit base : Nat) : Nat → List Frame → Prop
  | sp, [] => sp = base
  | sp, f :: rest =>
    f.sp = sp ∧ limit ≤ sp ∧ mem (sp + 32) = ocallFlag ∧ mem (sp + 40) = f.index ∧ act sp = f.act ∧
      sp + frameSize ≤ mem (sp + 48) ∧ Chain mem act limit base (mem (sp + 48)) rest

section

variable {mem mem' : Nat → Nat} {act act' : Nat → Pc} {limit base sp : Nat} {frames : List Frame}

theorem Chain.le_base (h : Chain mem act limit base sp frames) : sp ≤ base := by
  induction frames generalizing sp with
  | nil => exact Nat.le_of_eq h
  | cons f rest ih =>
    obtain ⟨-, -, -, -, -, hsize, hrest⟩ := h
    have := ih hrest
    omega

theorem Chain.add_le_base {f : Frame} (h : Chain mem act limit base sp (f :: frames)) : sp + frameSize ≤ base := by
  obtain ⟨-, -, -, -, -, hsize, hrest⟩ := h
  exact hsize.trans hrest.le_base

theorem Chain.eq_nil (h : Chain mem act limit base base frames) : frames = [] := by
  cases frames with
  | nil => rfl
  | cons f rest =>
    have := h.add_le_base
    unfold frameSize at this
    omega

theorem Chain.bounds (h : Chain mem act limit base sp frames) {f : Frame} (hf : f ∈ frames) :
    limit ≤ f.sp ∧ sp ≤ f.sp ∧ f.sp + frameSize ≤ base ∧ OnChain mem base sp f.sp := by
  induction frames generalizing sp with
  | nil => cases hf
  | cons g rest ih =>
    have hbase := h.add_le_base
    have hne : sp ≠ base := by
      unfold frameSize at hbase
      omega
    obtain ⟨hsp, hlimit, -, -, -, hsize, hrest⟩ := h
    rcases mem_cons.1 hf with rfl | hf
    . rw [hsp]
      exact ⟨hlimit, Nat.le_refl _, hbase, .here hne⟩
    obtain ⟨hlimit', hle, hbase', hon⟩ := ih hrest hf
    exact ⟨hlimit', by omega, hbase', .up hne hon⟩

theorem Chain.congr (h : Chain mem act limit base sp frames)
    (hsame : ∀ f ∈ frames, ∀ a, f.sp ≤ a → a < f.sp + 160 → mem' a = mem a ∧ act' a = act a) :
    Chain mem' act' limit base sp frames := by
  induction frames generalizing sp with
  | nil => exact h
  | cons f rest ih =>
    obtain ⟨rfl, hlimit, hflag, hindex, hact, hsize, hrest⟩ := h
    have hword : ∀ k < 160, mem' (f.sp + k) = mem (f.sp + k) := fun k hk =>
      (hsame f mem_cons_self _ (by omega) (by omega)).1
    refine ⟨rfl, hlimit, ?_, ?_, ?_, ?_, ?_⟩
    . rw [hword 32 (by decide), hflag]
    . rw [hword 40 (by decide), hindex]
    . rw [(hsame f mem_cons_self _ (Nat.le_refl _) (by omega)).2, hact]
    . rw [hword 48 (by decide)]
      exact hsize
    . rw [hword 48 (by decide)]
      exact ih hrest fun g hg => hsame g (mem_cons_of_mem _ hg)

end

def Pc.isEarly : Pc → Bool
  | .out | .oret | .ecall _ | .aborted => true
  | _ => false

def Pc.isLate : Pc → Bool
  | .unlock _ | .dispatch _ | .run _ => true
  | _ => false

inductive Rep (L : Layout T) (s : State T) (t : T) : List Frame → Prop
  | fresh : s.mem (L.td t) = 0 → (s.pc t).isEarly = true → Rep L s t []
  | ready {frames : List Frame} : s.mem (L.td t) = L.td t → s.mem (L.td t + 16) = L.stackBase t →
    Chain s.mem s.act (L.stackLimit t) (L.stackBase t) (s.mem (L.td t + 8)) frames → Rep L s t frames

def Foot (L : Layout T) (t : T) (frames : List Frame) (a : Nat) : Prop :=
  L.td t ≤ a ∧ a < L.td t + 24 ∨ ∃ f ∈ frames, f.sp ≤ a ∧ a < f.sp + 160

variable {frames : List Frame}

theorem Layout.td_ne (L : Layout T) (t : T) : L.td t ≠ 0 := by
  have := L.above t
  omega

section

variable (h : Rep L s t frames)
include h

theorem Rep.ready_of_ne (hne : s.mem (L.td t) ≠ 0) : s.mem (L.td t) = L.td t ∧ s.mem (L.td t + 16) = L.stackBase t ∧
      Chain s.mem s.act (L.stackLimit t) (L.stackBase t) (s.mem (L.td t + 8)) frames := by
  cases h with
  | fresh hzero => exact absurd hzero hne
  | ready htd hbase hchain => exact ⟨htd, hbase, hchain⟩

theorem Rep.td_ne (hpc : (s.pc t).isEarly = false) : s.mem (L.td t) ≠ 0 := by
  cases h with
  | fresh _ hearly =>
    rw [hpc] at hearly
    cases hearly
  | ready htd =>
    rw [htd]
    exact L.td_ne t

theorem Rep.foot_bounds {a : Nat} (ha : Foot L t frames a) : L.stackLimit t ≤ a ∧ a < L.td t + 24 := by
  have hroom := L.room t
  have habove := L.above t
  rcases ha with ⟨hle, hlt⟩ | ⟨f, hf, hle, hlt⟩
  . omega
  cases h with
  | fresh => cases hf
  | ready _ _ hchain =>
    obtain ⟨hlimit, -, hbase, -⟩ := hchain.bounds hf
    unfold frameSize at hbase
    omega

theorem Rep.congr (hsame : ∀ a, Foot L t frames a → s'.mem a = s.mem a ∧ s'.act a = s.act a)
    (hpc : s.mem (L.td t) = 0 → (s'.pc t).isEarly = true) : Rep L s' t frames := by
  have hword : ∀ k < 24, s'.mem (L.td t + k) = s.mem (L.td t + k) := fun k hk =>
    (hsame _ (.inl ⟨by omega, by omega⟩)).1
  have htd' : s'.mem (L.td t) = s.mem (L.td t) := hword 0 (by decide)
  cases h with
  | fresh hzero _ => exact .fresh (htd'.trans hzero) (hpc hzero)
  | ready htd hbase hchain =>
    refine .ready (htd'.trans htd) ((hword 16 (by decide)).trans hbase) ?_
    rw [hword 8 (by decide)]
    exact hchain.congr fun f hf a hle hlt => hsame a (.inr ⟨f, hf, hle, hlt⟩)

theorem Rep.protected_of_foot {a : Nat} (ha : Foot L t frames a) : Protected L s a := by
  rcases ha with hle | ⟨f, hf, hle, hlt⟩
  . exact ⟨t, .inl hle⟩
  cases h with
  | fresh => cases hf
  | ready htd _ hchain =>
    refine ⟨t, .inr ⟨?_, f.sp, (hchain.bounds hf).2.2.2, hle, hlt⟩⟩
    rw [htd]
    exact L.td_ne t

theorem Rep.contains_of_foot {a : Nat} (ha : Foot L t frames a) : L.enclave.Contains a := by
  have hbounds := h.foot_bounds ha
  have hinside := L.inside t
  unfold Enclave.Contains
  omega

end

theorem Rep.of_other (h : Rep L s t' frames) (hne : t' ≠ t)
    (hsame : ∀ a, ¬(L.stackLimit t ≤ a ∧ a < L.td t + 24) → s'.mem a = s.mem a ∧ s'.act a = s.act a)
    (hpc : s'.pc t' = s.pc t') : Rep L s' t' frames := by
  refine h.congr (fun a ha => hsame a ?_) fun hzero => ?_
  . have hbounds := h.foot_bounds ha
    have hapart := L.apart t' t hne
    omega
  rw [hpc]
  cases h with
  | fresh _ hearly => exact hearly
  | ready htd => exact absurd (htd.symm.trans hzero) (L.td_ne t')

section

variable [DecidableEq T] {trace : List (Event T)} {e : Event T}

theorem pending_ocall (t : T) (trace : List (Event T)) (f : Frame) :
    pending t (trace ++ [.ocall t f]) = f :: pending t trace := by
  unfold pending
  rw [foldl_append]
  exact if_pos rfl

theorem pending_oret (t : T) (trace : List (Event T)) (f : Frame) :
    pending t (trace ++ [.oret t (some f)]) = (pending t trace).tail := by
  unfold pending
  rw [foldl_append]
  exact if_pos rfl

theorem pending_other (hocall : ∀ f, e ≠ .ocall t f) (horet : ∀ f, e ≠ .oret t (some f)) :
    pending t (trace ++ [e]) = pending t trace := by
  unfold pending
  rw [foldl_append, foldl_cons, foldl_nil]
  split
  next t' f => exact if_neg fun heq => hocall f (by rw [heq])
  next t' f => exact if_neg fun heq => horet f (by rw [heq])
  next => rfl

def Event.isQuiet : Event T → Bool
  | .ocall _ _ | .oret _ (some _) => false
  | _ => true

theorem pending_quiet (he : e.isQuiet = true) (t : T) : pending t (trace ++ [e]) = pending t trace :=
  pending_other (fun _ heq => by rw [heq] at he; cases he) fun _ heq => by rw [heq] at he; cases he

structure Inv (L : Layout T) (trace : List (Event T)) (s : State T) : Prop where
  rep : ∀ t, Rep L s t (pending t trace)
  late : ∀ t, (s.pc t).isLate = true → s.isFirstEcall = false
  acts : ∀ t, ∀ f ∈ pending t trace, f.act.isLate = true → s.isFirstEcall = false
  first : s.isFirstEcall = false → ∃ t, .initialised t ∈ trace

theorem Inv.control (h : Inv L trace s) (t : T) {pc : Pc} (hmem : s'.mem = s.mem) (hact : s'.act = s.act)
    (hpcs : s'.pc = update s.pc t pc) (hquiet : e.isQuiet = true)
    (hfirst : s'.isFirstEcall = s.isFirstEcall ∨ s'.isFirstEcall = false ∧ e = .initialised t)
    (hearly : pc.isEarly = true ∨ s.mem (L.td t) ≠ 0)
    (hlate : pc.isLate = true → s'.isFirstEcall = false) : Inv L (trace ++ [e]) s' := by
  have hkeep : s.isFirstEcall = false → s'.isFirstEcall = false := fun hfalse =>
    hfirst.elim (fun heq => heq.trans hfalse) And.left
  refine ⟨fun t' => ?_, fun t' => ?_, fun t' f hf hl => ?_, fun hfalse => ?_⟩
  . rw [pending_quiet hquiet]
    refine (h.rep t').congr (fun a _ => by rw [hmem, hact]; exact ⟨rfl, rfl⟩) fun hzero => ?_
    rw [hpcs]
    by_cases ht : t' = t
    . subst ht
      rw [update_self]
      exact hearly.resolve_right fun hne => hne hzero
    rw [update_of_ne ht]
    by_contra hpc
    exact (h.rep t').td_ne (Bool.eq_false_iff.2 hpc) hzero
  . rw [hpcs]
    by_cases ht : t' = t
    . subst ht
      rw [update_self]
      exact hlate
    . rw [update_of_ne ht]
      exact fun hl => hkeep (h.late t' hl)
  . rw [pending_quiet hquiet] at hf
    exact hkeep (h.acts t' f hf hl)
  . rcases hfirst with heq | ⟨-, rfl⟩
    . obtain ⟨t', hmem'⟩ := h.first (heq.symm.trans hfalse)
      exact ⟨t', mem_append_left _ hmem'⟩
    . exact ⟨t, mem_append_right _ mem_cons_self⟩

theorem Inv.memory (h : Inv L trace s)
    (hsame : ∀ t a, Foot L t (pending t trace) a → s'.mem a = s.mem a ∧ s'.act a = s.act a)
    (hpcs : s'.pc = s.pc) (hfirst : s'.isFirstEcall = s.isFirstEcall) : Inv L (trace ++ [.tau]) s' := by
  have hpending : ∀ t, pending t (trace ++ [.tau]) = pending t trace := pending_quiet rfl
  refine ⟨fun t => ?_, fun t hl => ?_, fun t f hf hl => ?_, fun hfalse => ?_⟩
  . rw [hpending]
    refine (h.rep t).congr (hsame t) fun hzero => ?_
    rw [hpcs]
    by_contra hpc
    exact (h.rep t).td_ne (Bool.eq_false_iff.2 hpc) hzero
  . rw [hpcs] at hl
    rw [hfirst]
    exact h.late t hl
  . rw [hpending] at hf
    rw [hfirst]
    exact h.acts t f hf hl
  . obtain ⟨t, hmem⟩ := h.first (hfirst.symm.trans hfalse)
    exact ⟨t, mem_append_left _ hmem⟩

omit [DecidableEq T] in
theorem doInitThread_mem_of_ne {a : Nat} (h : ¬(L.td t ≤ a ∧ a < L.td t + 24)) :
    (doInitThread L s t).mem a = s.mem a := by
  unfold doInitThread
  dsimp only
  rw [update_of_ne (by omega), update_of_ne (by omega), update_of_ne (by omega)]

omit [DecidableEq T] in
theorem doInitThread_mem_td (L : Layout T) (s : State T) (t : T) : (doInitThread L s t).mem (L.td t) = L.td t := by
  unfold doInitThread
  dsimp only
  rw [update_of_ne (by omega), update_of_ne (by omega), update_self]

omit [DecidableEq T] in
theorem Rep.doInitThread (L : Layout T) (s : State T) (t : T) : Rep L (doInitThread L s t) t [] := by
  refine .ready (doInitThread_mem_td L s t) (update_self _ _ _) ?_
  . unfold Entry.doInitThread
    dsimp only
    rw [update_of_ne (by omega), update_self]
    rfl

omit [DecidableEq T] in
theorem Rep.eq_nil_of_needsInit (h : Rep L s t frames) (hinit : needsInit L tab s t = true) : frames = [] := by
  cases h with
  | fresh => rfl
  | ready htd hbase hchain =>
    unfold needsInit getThreadData State.stackBaseAddr State.lastSp at hinit
    simp only [htd, hbase, Bool.or_eq_true, Bool.and_eq_true, decide_eq_true_eq] at hinit
    rcases hinit with hzero | ⟨hsp, -⟩
    . exact absurd hzero (L.td_ne t)
    rw [← hsp] at hchain
    exact hchain.eq_nil

theorem Inv.doInitThread (h : Inv L trace s) (hinit : needsInit L tab s t = true) :
    Inv L trace (doInitThread L s t) := by
  refine ⟨fun t' => ?_, h.late, h.acts, h.first⟩
  by_cases ht : t' = t
  . subst ht
    rw [(h.rep t').eq_nil_of_needsInit hinit]
    exact Rep.doInitThread L s t'
  refine (h.rep t').of_other ht (fun a ha => ⟨doInitThread_mem_of_ne fun hmem => ha ?_, rfl⟩) rfl
  have hroom := L.room t
  have habove := L.above t
  omega

omit [DecidableEq T] in
theorem Rep.doOcall (h : Rep L s t frames) (hne : s.mem (L.td t) ≠ 0) (index : UInt32) {sp : Nat}
    (hlimit : L.stackLimit t ≤ sp) (hsp : sp + frameSize ≤ s.lastSp (getThreadData L s t)) :
    Rep L (doOcall L s t index sp) t (⟨sp, index.toNat, s.pc t⟩ :: frames) := by
  obtain ⟨htd, hbase, hchain⟩ := h.ready_of_ne hne
  have hle := hchain.le_base
  have habove := L.above t
  unfold getThreadData State.lastSp at hsp
  rw [htd] at hsp
  unfold frameSize at hsp
  unfold Entry.doOcall getThreadData State.lastSp
  rw [htd]
  refine .ready ?_ ?_ ?_
  . dsimp only
    simp only [update_apply]
    split_ifs <;> omega
  . dsimp only
    simp only [update_apply]
    split_ifs <;> omega
  dsimp only
  rw [update_self]
  have hpre : update (update (update (update (update s.mem (sp + 32)
      ocallFlag) (sp + 40) index.toNat) (sp + 48) (s.mem (L.td t + 8))) (sp + 144)
      (if s.mem (L.td t + 8) = s.stackBaseAddr (L.td t) then 1 else s.mem (s.mem (L.td t + 8) + 144) + 1))
      (L.td t + 8) sp (sp + 48) = s.mem (L.td t + 8) := by
    rw [update_of_ne (by omega), update_of_ne (by omega), update_self]
  refine ⟨rfl, hlimit, ?_, ?_, update_self _ _ _, ?_, ?_⟩
  . rw [update_of_ne (by omega), update_of_ne (by omega), update_of_ne (by omega), update_of_ne (by omega), update_self]
  . rw [update_of_ne (by omega), update_of_ne (by omega), update_of_ne (by omega), update_self]
  . rw [hpre]
    exact hsp
  rw [hpre]
  -- the older frames are above the new one and below the thread data
  refine hchain.congr fun f hf a hfa hlt => ?_
  obtain ⟨-, hfsp, hfbase, -⟩ := hchain.bounds hf
  unfold frameSize at hfbase
  rw [update_of_ne (by omega), update_of_ne (by omega), update_of_ne (by omega),
    update_of_ne (by omega), update_of_ne (by omega), update_of_ne (by omega)]
  exact ⟨rfl, rfl⟩

theorem Inv.doOcall (h : Inv L trace s) (index : UInt32) {sp : Nat} (hcode : (s.pc t).isCode = true)
    (hlimit : L.stackLimit t ≤ sp) (hsp : sp + frameSize ≤ s.lastSp (getThreadData L s t)) :
    Inv L (trace ++ [.ocall t ⟨sp, index.toNat, s.pc t⟩]) ((doOcall L s t index sp).setPc t .out) := by
  have hne : s.mem (L.td t) ≠ 0 := by
    refine (h.rep t).td_ne ?_
    cases hpc : s.pc t <;> rw [hpc] at hcode <;> first | rfl | cases hcode
  obtain ⟨htd, -, hchain⟩ := (h.rep t).ready_of_ne hne
  have hother : ∀ t', t' ≠ t → pending t' (trace ++ [.ocall t ⟨sp, index.toNat, s.pc t⟩]) = pending t' trace := by
    intro t' ht
    exact pending_other (fun f heq => ht (Event.ocall.inj heq).1.symm) nofun
  refine ⟨fun t' => ?_, fun t' hl => ?_, fun t' f hf hl => ?_, fun hfalse => ?_⟩
  . by_cases ht : t' = t
    . subst ht
      rw [pending_ocall]
      refine ((h.rep t').doOcall hne index hlimit hsp).congr (fun _ _ => ⟨rfl, rfl⟩) fun _ => ?_
      unfold State.setPc
      dsimp only
      rw [update_self]
      rfl
    rw [hother t' ht]
    refine (h.rep t').of_other ht (fun a ha => ?_) (update_of_ne ht _ _)
    have hle := hchain.le_base
    have habove := L.above t
    unfold getThreadData State.lastSp at hsp
    rw [htd] at hsp
    unfold frameSize at hsp
    unfold State.setPc Entry.doOcall getThreadData
    rw [htd]
    dsimp only
    rw [update_of_ne (by omega), update_of_ne (by omega), update_of_ne (by omega),
      update_of_ne (by omega), update_of_ne (by omega), update_of_ne (by omega)]
    exact ⟨rfl, rfl⟩
  . by_cases ht : t' = t
    . subst ht
      unfold State.setPc at hl
      dsimp only at hl
      rw [update_self] at hl
      cases hl
    refine h.late t' ?_
    unfold State.setPc at hl
    dsimp only at hl
    rw [update_of_ne ht] at hl
    exact hl
  . by_cases ht : t' = t
    . subst ht
      rw [pending_ocall] at hf
      rcases mem_cons.1 hf with rfl | hf
      . exact h.late t' hl
      . exact h.acts t' f hf hl
    . rw [hother t' ht] at hf
      exact h.acts t' f hf hl
  . obtain ⟨t', hmem⟩ := h.first hfalse
    exact ⟨t', mem_append_left _ hmem⟩

omit [DecidableEq T] in
theorem Rep.checkOret (h : Rep L s t frames) (hne : s.mem (L.td t) ≠ 0) {context : Nat}
    (hcontext : context < entrySp L s t) : checkOret s (getThreadData L s t) context = frames.head? := by
  obtain ⟨htd, hbase, hchain⟩ := h.ready_of_ne hne
  have hroom := L.room t
  have habove := L.above t
  have hinside := L.inside t
  have hfits := L.enclave.fits
  unfold frameSize at hroom
  have hsub : sub64 (L.stackBase t) frameSize = L.stackBase t - 240 := by
    unfold sub64 frameSize
    omega
  unfold Entry.checkOret getThreadData State.lastSp State.stackBaseAddr
  rw [htd, hbase, hsub]
  dsimp only
  cases frames with
  | nil =>
    have hsp : s.mem (L.td t + 8) = L.stackBase t := hchain
    rw [hsp]
    split
    . rfl
    rw [if_pos (by omega)]
    rfl
  | cons f rest =>
    have hsize := hchain.add_le_base
    obtain ⟨hf, hlimit, hflag, hindex, hact, hpre, hrest⟩ := hchain
    have hle := hrest.le_base
    have hpos := L.pos t
    unfold frameSize at hsize hpre
    unfold entrySp at hcontext
    rw [if_neg (by omega)] at hcontext
    rw [if_neg (by omega), if_neg (by omega), if_neg (by rw [hflag]; exact not_not.2 rfl), if_neg (by omega), hindex,
      hact, ← hf]
    rfl

theorem Inv.oret (h : Inv L trace s) (hne : s.mem (L.td t) ≠ 0) {f : Frame} {rest : List Frame}
    (hpending : pending t trace = f :: rest) :
    Inv L (trace ++ [.oret t (some f)])
      ({ s with mem := update s.mem (getThreadData L s t + 8) (s.mem (f.sp + 48)) }.setPc t f.act) := by
  obtain ⟨htd, hbase, hchain⟩ := (h.rep t).ready_of_ne hne
  rw [hpending] at hchain
  have htail : pending t (trace ++ [.oret t (some f)]) = rest := by rw [pending_oret, hpending, tail_cons]
  have hother : ∀ t', t' ≠ t → pending t' (trace ++ [.oret t (some f)]) = pending t' trace := fun t' ht =>
    pending_other nofun fun g heq => ht (Event.oret.inj heq).1.symm
  unfold getThreadData
  rw [htd]
  refine ⟨fun t' => ?_, fun t' hl => ?_, fun t' g hg hl => ?_, fun hfalse => ?_⟩
  . by_cases ht : t' = t
    . subst ht
      rw [htail]
      obtain ⟨hf, -, -, -, -, -, hrest⟩ := hchain
      have habove := L.above t'
      refine .ready ?_ ?_ ?_
      . exact (update_of_ne (by omega) _ _).trans htd
      . exact (update_of_ne (by omega) _ _).trans hbase
      unfold State.setPc
      dsimp only
      rw [update_self, hf]
      refine hrest.congr fun g hg a hga hlt => ⟨update_of_ne ?_ _ _, rfl⟩
      obtain ⟨-, -, hgbase, -⟩ := hrest.bounds hg
      unfold frameSize at hgbase
      omega
    . rw [hother t' ht]
      refine (h.rep t').of_other ht (fun a ha => ⟨update_of_ne ?_ _ _, rfl⟩) (update_of_ne ht _ _)
      have hroom := L.room t
      have habove := L.above t
      omega
  . by_cases ht : t' = t
    . subst ht
      have hl' : f.act.isLate = true := by
        unfold State.setPc at hl
        dsimp only at hl
        rwa [update_self] at hl
      exact h.acts t' f (by rw [hpending]; exact mem_cons_self) hl'
    . refine h.late t' ?_
      unfold State.setPc at hl
      dsimp only at hl
      rwa [update_of_ne ht] at hl
  . by_cases ht : t' = t
    . subst ht
      rw [htail] at hg
      exact h.acts t' g (by rw [hpending]; exact mem_cons_of_mem _ hg) hl
    . rw [hother t' ht] at hg
      exact h.acts t' g hg hl
  . obtain ⟨t', hmem⟩ := h.first hfalse
    exact ⟨t', mem_append_left _ hmem⟩

def ReadyStep (L : Layout T) (tab : Tables) (s : State T) (e : Event T) (s' : State T) : Prop :=
  Step L tab s e s' ∧ ∀ t resumed, e = .oret t resumed → s.mem (L.td t) ≠ 0

theorem enterEnclave_early {index : Int32} {pc : Pc} (h : enterEnclave index = some pc) :
    pc.isEarly = true ∧ pc.isLate = false := by
  unfold enterEnclave at h
  split at h
  . cases h
    exact ⟨rfl, rfl⟩
  split at h <;> cases h
  exact ⟨rfl, rfl⟩

theorem Inv.step (h : Inv L trace s) (hstep : ReadyStep L tab s e s') : Inv L (trace ++ [e]) s' := by
  obtain ⟨hstep, hready⟩ := hstep
  cases hstep with
  | host mem act hsame => exact h.memory (fun t a ha => hsame a ((h.rep t).contains_of_foot ha)) rfl rfl
  | write t mem act _ hsame => exact h.memory (fun t a ha => hsame a ((h.rep t).protected_of_foot ha)) rfl rfl
  | crashed t hpc _ =>
    exact h.control t rfl rfl (Function.update_eq_self_iff.2 rfl).symm rfl (.inl rfl)
      (.inl (by rw [hpc]; rfl)) (by rw [hpc]; exact nofun)
  | enter t index pc _ _ henter =>
    obtain ⟨hearly, hlate⟩ := enterEnclave_early henter
    exact h.control t rfl rfl rfl rfl (.inl rfl) (.inl hearly) (by rw [hlate]; exact nofun)
  | enterOther t index =>
    exact h.control t rfl rfl rfl rfl (.inl rfl) (.inl rfl) nofun
  | ecall t ordinal hpc =>
    split
    next hinit =>
      have hne : (Entry.doInitThread L s t).mem (L.td t) ≠ 0 := by
        rw [doInitThread_mem_td]
        exact L.td_ne t
      exact (h.doInitThread hinit).control t rfl rfl rfl rfl (.inl rfl) (.inr hne) nofun
    next hinit =>
      have hne : s.mem (L.td t) ≠ 0 := fun hzero => hinit (by simp [needsInit, getThreadData, hzero])
      exact h.control t rfl rfl rfl rfl (.inl rfl) (.inr hne) nofun
  | ecallFailed t ordinal _ hinit =>
    exact (h.doInitThread hinit).control t rfl rfl rfl rfl (.inl rfl) (.inl rfl) nofun
  | trtsNested t ordinal hpc =>
    exact h.control t rfl rfl rfl rfl (.inl rfl) (.inl rfl) nofun
  | trtsFirst t ordinal hpc =>
    exact h.control t rfl rfl rfl rfl (.inl rfl) (.inr ((h.rep t).td_ne (by rw [hpc]; rfl))) nofun
  | trts t ordinal hpc hfirst =>
    exact h.control t rfl rfl rfl rfl (.inl rfl) (.inr ((h.rep t).td_ne (by rw [hpc]; rfl))) fun _ => hfirst
  | lock t ordinal hpc =>
    exact h.control t rfl rfl rfl rfl (.inl rfl) (.inr ((h.rep t).td_ne (by rw [hpc]; rfl))) nofun
  | locked t ordinal hpc =>
    refine h.control t rfl rfl rfl rfl (.inl rfl) (.inr ((h.rep t).td_ne (by rw [hpc]; rfl))) ?_
    split
    . exact nofun
    next hfirst => exact fun _ => Bool.eq_false_iff.2 hfirst
  | protect t ordinal hpc =>
    exact h.control t rfl rfl rfl rfl (.inl rfl) (.inr ((h.rep t).td_ne (by rw [hpc]; rfl))) nofun
  | protectFailed t ordinal status hpc =>
    exact h.control t rfl rfl rfl rfl (.inl rfl) (.inl rfl) nofun
  | construct t ordinal hpc =>
    exact h.control t rfl rfl rfl rfl (.inr ⟨rfl, rfl⟩) (.inr ((h.rep t).td_ne (by rw [hpc]; rfl))) fun _ => rfl
  | unlock t ordinal hpc =>
    exact h.control t rfl rfl rfl rfl (.inl rfl) (.inr ((h.rep t).td_ne (by rw [hpc]; rfl)))
      fun _ => h.late t (by rw [hpc]; rfl)
  | refuse t ordinal status =>
    exact h.control t rfl rfl rfl rfl (.inl rfl) (.inl rfl) nofun
  | start t ordinal addr hpc =>
    exact h.control t rfl rfl rfl rfl (.inl rfl) (.inr ((h.rep t).td_ne (by rw [hpc]; rfl)))
      fun _ => h.late t (by rw [hpc]; rfl)
  | startSwitchless t ordinal hpc =>
    exact h.control t rfl rfl rfl rfl (.inl rfl) (.inr ((h.rep t).td_ne (by rw [hpc]; rfl)))
      fun _ => h.late t (by rw [hpc]; rfl)
  | finish t ordinal status =>
    exact h.control t rfl rfl rfl rfl (.inl rfl) (.inl rfl) nofun
  | ocall t index sp hcode _ hlimit hsp => exact h.doOcall index hcode hlimit hsp
  | oret t context f _ hcontext hcheck =>
    have hne := hready t (some f) rfl
    rw [(h.rep t).checkOret hne hcontext] at hcheck
    obtain ⟨rest, hpending⟩ := head?_eq_some_iff.1 hcheck
    exact h.oret hne hpending
  | oretRefused t context =>
    exact h.control t rfl rfl rfl rfl (.inl rfl) (.inl rfl) nofun
  | abort t =>
    exact h.control t rfl rfl rfl rfl (.inl rfl) (.inl rfl) nofun

theorem Inv.initial (h : Initial L s) : Inv L [] s := by
  refine ⟨fun t => ?_, fun t hl => ?_, nofun, fun hfalse => ?_⟩
  . rcases h.td t with hzero | ⟨htd, hsp, hbase⟩
    . exact .fresh hzero (by rw [h.pc t]; rfl)
    . exact .ready htd hbase hsp
  . rw [h.pc t] at hl
    cases hl
  . rw [h.first] at hfalse
    cases hfalse

def Allowed (tab : Tables) (frames : List Frame) (ordinal : UInt32) : Prop :=
  ∃ info, tab.ecallTable[ordinal.toNat]? = some info ∧ match frames with
    | [] => info.isPriv = 0
    | f :: _ => f.index < tab.nrOcall ∧ tab.entryTable (f.index * tab.ecallTable.length + ordinal.toNat) ≠ 0

omit [DecidableEq T] in
theorem Rep.allowed (h : Rep L s t frames) (hne : s.mem (L.td t) ≠ 0) {ordinal : UInt32}
    (hallowed : isEcallAllowed tab s (getThreadData L s t) ordinal = .done sgxSuccess) :
    Allowed tab frames ordinal := by
  obtain ⟨htd, hbase, hchain⟩ := h.ready_of_ne hne
  unfold isEcallAllowed getThreadData State.lastSp State.stackBaseAddr at hallowed
  rw [htd, hbase] at hallowed
  split at hallowed
  . cases hallowed
  next info hinfo =>
    refine ⟨info, hinfo, ?_⟩
    dsimp only at hallowed
    cases frames with
    | nil =>
      have hsp : s.mem (L.td t + 8) = L.stackBase t := hchain
      rw [if_pos hsp] at hallowed
      by_contra hpriv
      rw [if_pos hpriv] at hallowed
      cases hallowed
    | cons f rest =>
      have hsize := hchain.add_le_base
      obtain ⟨-, -, hflag, hindex, -⟩ := hchain
      unfold frameSize at hsize
      rw [if_neg (by omega), if_neg (not_not.2 hflag), hindex] at hallowed
      split at hallowed
      . cases hallowed
      next hlt =>
        split at hallowed
        next hentry => exact ⟨Nat.lt_of_not_le hlt, hentry⟩
        next => cases hallowed

omit [DecidableEq T] in
theorem getFuncAddr_ecall {E : Enclave} {threadData : Nat} {ordinal : UInt32} {addr : Nat}
    (h : getFuncAddr E tab s threadData ordinal = .done (.ok (.ecall addr))) :
    isEcallAllowed tab s threadData ordinal = .done sgxSuccess := by
  unfold getFuncAddr at h
  split at h
  . split at h <;> cases h
  obtain ⟨status, hstatus, h⟩ := Outcome.bind_eq_done h
  split at h
  . cases h
  next heq => rw [hstatus, not_not.1 heq]

omit [DecidableEq T] in
theorem getFuncAddr_switchless {E : Enclave} {threadData : Nat} {ordinal : UInt32}
    (h : getFuncAddr E tab s threadData ordinal = .done (.ok .switchless)) :
    s.lastSp threadData = s.stackBaseAddr threadData := by
  unfold getFuncAddr at h
  split at h
  . split at h
    . cases h
    next heq => exact not_not.1 heq
  obtain ⟨status, -, h⟩ := Outcome.bind_eq_done h
  split at h
  . cases h
  split at h
  . cases h
  . split at h <;> cases h

/--
Every run in which a thread returns from an OCALL only if its thread data are set up. An ECALL is started if it is
not private or if the most recent OCALL that is pending allows it, and only after the global initialisation. The
functions of switchless calls are started without a pending OCALL. A return resumes the most recent OCALL, and is
refused if there is none.
-/
theorem nesting_of_run {s₀ : State T} (hinit : Initial L s₀) (h : Run (ReadyStep L tab) s₀ trace s)
    {pre post : List (Event T)} :
    (∀ t ordinal, trace = pre ++ .started t ordinal :: post →
      Allowed tab (pending t pre) ordinal ∧ ∃ t', .initialised t' ∈ pre) ∧
    (∀ t ordinal, trace = pre ++ .switchless t ordinal :: post →
      pending t pre = [] ∧ ∃ t', .initialised t' ∈ pre) ∧
    (∀ t resumed, trace = pre ++ .oret t resumed :: post → resumed = (pending t pre).head?) := by
  have hinv {trace : List (Event T)} {s : State T} (h : Run (ReadyStep L tab) s₀ trace s) : Inv L trace s :=
    h.invariant (I := Inv L) (.initial hinit) fun _ _ _ _ hinv hstep => hinv.step hstep
  refine ⟨?_, ?_, ?_⟩
  . rintro t ordinal rfl
    obtain ⟨s₁, s₂, hpre, ⟨hstep, -⟩, -⟩ := h.split
    have hinv₁ := hinv hpre
    cases hstep with
    | start _ _ addr hpc hfunc =>
      have hne := (hinv₁.rep t).td_ne (by rw [hpc]; rfl)
      exact ⟨(hinv₁.rep t).allowed hne (getFuncAddr_ecall hfunc), hinv₁.first (hinv₁.late t (by rw [hpc]; rfl))⟩
  . rintro t ordinal rfl
    obtain ⟨s₁, s₂, hpre, ⟨hstep, -⟩, -⟩ := h.split
    have hinv₁ := hinv hpre
    cases hstep with
    | startSwitchless _ _ hpc hfunc =>
      obtain ⟨htd, hbase, hchain⟩ := (hinv₁.rep t).ready_of_ne ((hinv₁.rep t).td_ne (by rw [hpc]; rfl))
      have hsp := getFuncAddr_switchless hfunc
      unfold getThreadData State.lastSp State.stackBaseAddr at hsp
      rw [htd, hbase] at hsp
      rw [hsp] at hchain
      exact ⟨hchain.eq_nil, hinv₁.first (hinv₁.late t (by rw [hpc]; rfl))⟩
  . rintro t resumed rfl
    obtain ⟨s₁, s₂, hpre, ⟨hstep, hready⟩, -⟩ := h.split
    have hne := hready t resumed rfl
    have hrep := (hinv hpre).rep t
    cases hstep with
    | oret _ context f _ hcontext hcheck => rw [← hrep.checkOret hne hcontext, hcheck]
    | oretRefused _ context _ hcontext hcheck => rw [← hrep.checkOret hne hcontext, hcheck]

end

theorem oneThread_pos : 0 < 0x10000 := by decide

theorem oneThread_fits : 0x10000 + 0x10000 ≤ 2 ^ 64 := by decide

theorem oneThread_aligned : sePageSize ∣ 0x10000 := by decide

def oneThread : Layout Unit where
  enclave := ⟨0x10000, 0x10000, oneThread_pos, oneThread_fits, oneThread_aligned, oneThread_aligned⟩
  stackLimit _ := 0x12000
  stackBase _ := 0x13000
  td _ := 0x14000
  pos _ := by decide
  room _ := by decide
  above _ := by decide
  inside _ := by decide
  apart _ _ h := absurd rfl h

def onePrivate : Tables where
  ecallTable := [⟨0x11000, 0⟩, ⟨0x11100, 1⟩]
  nrOcall := 1
  entryTable i := if i = 1 then 1 else 0
  threadPolicy := 0

def freshState : State Unit := ⟨fun _ => 0, fun _ => .out, false, true, false, fun _ => .out⟩

theorem freshState_initial : Initial oneThread freshState := ⟨fun _ => rfl, rfl, fun _ => .inl rfl⟩

theorem nesting_of_run_private :
    ∃ s, Run (ReadyStep oneThread onePrivate) freshState
        ([.tau, .tau, .tau, .tau, .tau, .tau, .initialised (), .tau, .started () 0, .ocall () ⟨0x12800, 0, .run 0⟩,
          .tau, .tau, .tau] ++
          .started () 1 :: [.left (), .tau, .oret () (some ⟨0x12800, 0, .run 0⟩)]) s ∧
      Allowed onePrivate [⟨0x12800, 0, .run 0⟩] 1 := by
  have h₀ : Run (ReadyStep oneThread onePrivate) freshState [] freshState := .nil
  have h₁ := h₀.snoc ⟨.enter () 0 (.ecall 0) rfl rfl rfl, nofun⟩
  have h₂ := h₁.snoc ⟨.ecall () 0 rfl, nofun⟩
  have h₃ := h₂.snoc ⟨.trtsFirst () 0 rfl rfl rfl, nofun⟩
  have h₄ := h₃.snoc ⟨.lock () 0 rfl rfl, nofun⟩
  have h₅ := h₄.snoc ⟨.locked () 0 rfl, nofun⟩
  have h₆ := h₅.snoc ⟨.protect () 0 rfl, nofun⟩
  have h₇ := h₆.snoc ⟨.construct () 0 rfl, nofun⟩
  have h₈ := h₇.snoc ⟨.unlock () 0 rfl, nofun⟩
  have h₉ := h₈.snoc ⟨.start () 0 0x11000 rfl rfl, nofun⟩
  have h₁₀ := h₉.snoc ⟨.ocall () 0 0x12800 rfl (.inl rfl) (by decide) (by decide), nofun⟩
  have h₁₁ := h₁₀.snoc ⟨.enter () 1 (.ecall 1) rfl rfl rfl, nofun⟩
  have h₁₂ := h₁₁.snoc ⟨.ecall () 1 rfl, nofun⟩
  have h₁₃ := h₁₂.snoc ⟨.trts () 1 rfl rfl, nofun⟩
  have h₁₄ := h₁₃.snoc ⟨.start () 1 0x11100 rfl rfl, nofun⟩
  have h₁₅ := h₁₄.snoc ⟨.finish () 1 sgxSuccess rfl, nofun⟩
  have h₁₆ := h₁₅.snoc ⟨.enter () (-2) .oret rfl rfl rfl, nofun⟩
  have h₁₇ := h₁₆.snoc
    ⟨.oret () 0x12000 ⟨0x12800, 0, .run 0⟩ rfl (by decide) (by decide +kernel), by rintro ⟨⟩ _ _; decide +kernel⟩
  have h : Run (ReadyStep oneThread onePrivate) freshState ([.tau, .tau, .tau, .tau, .tau, .tau, .initialised (), .tau,
      .started () 0, .ocall () ⟨0x12800, 0, .run 0⟩, .tau, .tau, .tau] ++ .started () 1 :: [.left (), .tau,
      .oret () (some ⟨0x12800, 0, .run 0⟩)]) _ := h₁₇
  exact ⟨_, h, ((nesting_of_run freshState_initial h).1 () 1 rfl).1⟩

def forgedMem (a : Nat) : Nat :=
  if a = 8 then 0x30000
  else if a = 16 then 0x40000
  else if a = 0x30000 + 32 then ocallFlag
  else if a = 0x30000 + 48 then 0x40000
  else 0

theorem oret_resumes_forged :
    ∃ s, Initial oneThread freshState ∧
      Run (Step oneThread onePrivate) freshState ([.tau, .tau] ++ [.oret () (some ⟨0x30000, 0, .run 0⟩)]) s ∧
      ¬oneThread.enclave.Contains 0x30000 ∧ pending () [.tau, .tau] = [] ∧ s.pc () = .run 0 := by
  have h₀ : Run (Step oneThread onePrivate) freshState [] freshState := .nil
  have h₁ := h₀.snoc
    (.host forgedMem (fun a => if a = 0x30000 then .run 0 else .out) fun a ha => by
      obtain ⟨hle, hlt⟩ := ha
      change 0x10000 ≤ a at hle
      change a < 0x10000 + 0x10000 at hlt
      unfold forgedMem
      rw [if_neg (by omega), if_neg (by omega), if_neg (by omega), if_neg (by omega), if_neg (by omega)]
      exact ⟨rfl, rfl⟩)
  have h₂ := h₁.snoc (.enter () (-2) .oret rfl rfl rfl)
  have h₃ := h₂.snoc (.oret () 0x12000 ⟨0x30000, 0, .run 0⟩ rfl (by decide) (by decide +kernel))
  exact ⟨_, freshState_initial, h₃, by decide, rfl, rfl⟩

end Trts.Entry
