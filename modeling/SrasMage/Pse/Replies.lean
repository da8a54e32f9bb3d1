import SrasMage.Pse.Session

/-!
This module contains the proof that a request of a session is replied to once.
-/

namespace Pse

open List Function

variable {K D C : Type} {decrypt : K → C → Option (List UInt8)} {s s' : State K D} {i j : Slot}
  {trace trace' : List Event}

def Phase.Le : Phase K D → Phase K D → Prop
  | .inProgress _, .inProgress _ => True
  | .inProgress _, .active _ _ => True
  | .active _ c, .active _ c' => c ≤ c'
  | _, _ => False

theorem Phase.Le.refl {p : Phase K D} (h : p.isClose = false) : p.Le p := by
  cases p with
  | close => cases h
  | inProgress => trivial
  | active aek c => exact UInt32.le_refl c

theorem Phase.Le.trans {p q r : Phase K D} (h : p.Le q) (h' : q.Le r) : p.Le r := by
  cases p <;> cases q <;> cases r <;> first
  | exact h.elim
  | exact h'.elim
  | trivial
  | exact UInt32.le_trans h h'

theorem Phase.Le.not_close {p q : Phase K D} (h : p.Le q) : p.isClose = false := by
  cases p with
  | close => exact h.elim
  | inProgress => rfl
  | active => rfl

def Shrinks (s s' : State K D) : Prop :=
  ∀ i, (s'.session i).phase.isClose = true ∨
    (s'.session i).sid = (s.session i).sid ∧ (s.session i).phase.Le (s'.session i).phase

theorem Shrinks.of_eq (h : s'.session = s.session) : Shrinks s s' := by
  intro i
  rw [h]
  cases hp : (s.session i).phase.isClose with
  | true => exact .inl rfl
  | false => exact .inr ⟨rfl, .refl hp⟩

theorem Shrinks.trans {s'' : State K D} (h : Shrinks s s') (h' : Shrinks s' s'') : Shrinks s s'' := by
  intro i
  rcases h' i with hclose | ⟨hsid', hle'⟩
  . exact .inl hclose
  rcases h i with hclose | ⟨hsid, hle⟩
  . rw [hle'.not_close] at hclose
    cases hclose
  . exact .inr ⟨hsid'.trans hsid, hle.trans hle'⟩

theorem Shrinks.set {session : Session K D}
    (h : session.phase.isClose = true ∨ session.sid = (s.session i).sid ∧ (s.session i).phase.Le session.phase) :
    Shrinks s (s.set i session) := by
  intro j
  unfold State.set
  dsimp only
  by_cases hj : j = i
  . subst hj
    rw [update_self]
    exact h
  . rw [update_of_ne hj]
    exact Shrinks.of_eq rfl j

theorem freeSession_shrinks (s : State K D) (i : Slot) : Shrinks s (freeSession s i) := .set (.inl rfl)

theorem pseCloseSession_shrinks (s : State K D) (sid : UInt32) : Shrinks s (pseCloseSession s sid) := by
  unfold pseCloseSession
  split
  . split
    . exact freeSession_shrinks _ _
    . exact .of_eq rfl
  . exact .of_eq rfl

theorem pseCloseSession_count (s : State K D) (sid : UInt32) :
    (pseCloseSession s sid).sessionCount = s.sessionCount := by
  unfold pseCloseSession
  split
  . split <;> rfl
  . rfl

theorem pseExchangeReport_shrinks (s : State K D) (tick : UInt64) (sid : UInt32)
    (procMsg2 : D → Option (K × IsvAttributes)) :
    Shrinks s (pseExchangeReport s tick sid procMsg2) ∧
      (pseExchangeReport s tick sid procMsg2).sessionCount = s.sessionCount := by
  unfold pseExchangeReport
  split
  . exact ⟨.of_eq rfl, rfl⟩
  split
  next i dh hphase =>
    split
    . exact ⟨pseCloseSession_shrinks s sid, pseCloseSession_count s sid⟩
    . exact ⟨.set (.inr ⟨rfl, by rw [hphase]; trivial⟩), rfl⟩
  next => exact ⟨.of_eq rfl, rfl⟩

theorem sid2session_some {sid : UInt32} (h : sid2session s sid = some i) :
    (s.session i).phase.isClose = false ∧ (s.session i).sid = sid := by
  have hfind := find?_some h
  rw [Bool.and_eq_true, Bool.not_eq_true', beq_iff_eq] at hfind
  exact hfind

theorem sid2session_none {sid : UInt32} (h : sid2session s sid = none) (i : Slot) :
    (s.session i).phase.isClose = true ∨ (s.session i).sid ≠ sid := by
  have hfind := find?_eq_none.1 h i (mem_finRange i)
  rw [Bool.and_eq_true, Bool.not_eq_true', beq_iff_eq, not_and] at hfind
  cases hclose : (s.session i).phase.isClose with
  | true => exact .inl rfl
  | false => exact .inr (hfind hclose)

theorem lt_add_two {c : UInt32} (h : ¬c.toNat ≥ uint32Max - 2) :
    (c + 1).toNat = c.toNat + 1 ∧ (c + 1 + 1).toNat = c.toNat + 2 := by
  unfold uint32Max at h
  have hone : (1 : UInt32).toNat = 1 := rfl
  constructor
  . rw [UInt32.toNat_add, hone, Nat.mod_eq_of_lt (by omega)]
  rw [UInt32.toNat_add, UInt32.toNat_add, hone]
  omega

theorem invokeActive_spec (decrypt : K → C → Option (List UInt8)) {aek : K} {c : UInt32}
    (hphase : (s.session i).phase = .active aek c) (hc : ¬c.toNat ≥ uint32Max - 2) (req : Request C) (env : Env) :
    let res := invokeActive decrypt s i aek c req env
    Shrinks s res.state ∧ res.state.sessionCount = s.sessionCount ∧ ∀ hdr reply, res.served = some (hdr, reply) →
        hdr.seqNum = c ∧ reply.sessionId = req.sessionId ∧ reply.seqNum = c + 1 ∧
        res.state.session = update s.session i { s.session i with phase := .active aek (c + 1 + 1) } := by
  have hraise : Shrinks s (s.set i { s.session i with phase := .active aek (c + 1 + 1) }) := by
    refine .set (.inr ⟨rfl, ?_⟩)
    rw [hphase]
    change c ≤ c + 1 + 1
    rw [UInt32.le_iff_toNat_le, (lt_add_two hc).2]
    omega
  unfold invokeActive
  dsimp only
  split
  . exact ⟨.of_eq rfl, rfl, nofun⟩
  split
  . exact ⟨.of_eq rfl, rfl, nofun⟩
  split
  . exact ⟨freeSession_shrinks s i, rfl, nofun⟩
  next hseq =>
    split
    . exact ⟨.of_eq rfl, rfl, nofun⟩
    split
    . exact ⟨fun j => hraise j, rfl, nofun⟩
    refine ⟨fun j => hraise j, rfl, ?_⟩
    rintro hdr reply ⟨⟩
    exact ⟨not_not.1 hseq, rfl, rfl, rfl⟩

structure Served (s : State K D) (req : Request C) (res : Answer K D) : Prop where
  shrinks : Shrinks s res.state
  count : res.state.sessionCount = s.sessionCount
  reply : ∀ hdr reply, res.served = some (hdr, reply) →
    ∃ i aek c attrs, sid2session s req.sessionId = some i ∧ (s.session i).phase = .active aek c ∧
      ¬c.toNat ≥ uint32Max - 2 ∧ hdr.seqNum = c ∧ reply.sessionId = req.sessionId ∧ reply.seqNum = c + 1 ∧
      res.state.session = update s.session i ⟨req.sessionId, .active aek (c + 1 + 1), attrs⟩

theorem invokeActive_served (decrypt : K → C → Option (List UInt8)) {aek : K} {c : UInt32} {req : Request C}
    (hsid : sid2session s req.sessionId = some i) (hphase : (s.session i).phase = .active aek c)
    (hc : ¬c.toNat ≥ uint32Max - 2) (attrs : IsvAttributes) (env : Env) :
    Served s req (invokeActive decrypt (s.set i { s.session i with isvAttributes := attrs }) i aek c req env) := by
  have hself : ∀ session : Session K D, (s.set i session).session i = session := fun _ => update_self _ _ _
  have htouch : Shrinks s (s.set i { s.session i with isvAttributes := attrs }) :=
    .set (.inr ⟨rfl, .refl (sid2session_some hsid).1⟩)
  have hactive : ((s.set i { s.session i with isvAttributes := attrs }).session i).phase = .active aek c := by
    rw [hself]
    exact hphase
  obtain ⟨hshrinks, hcount, hserved⟩ := invokeActive_spec decrypt hactive hc req env
  refine ⟨htouch.trans hshrinks, hcount, fun hdr reply hres => ?_⟩
  obtain ⟨hseq, hreply, hnum, hsession⟩ := hserved hdr reply hres
  refine ⟨i, aek, c, attrs, hsid, hphase, hc, hseq, hreply, hnum, ?_⟩
  rw [hsession, hself]
  unfold State.set
  dsimp only
  rw [update_idem, (sid2session_some hsid).2]

theorem invokeServiceWrapper_served (decrypt : K → C → Option (List UInt8)) (s : State K D) (tick : UInt64)
    (req : Request C) (env : Env) : Served s req (invokeServiceWrapper decrypt s tick req env) := by
  unfold invokeServiceWrapper
  dsimp only
  split
  . exact ⟨.of_eq rfl, rfl, nofun⟩
  split
  . exact ⟨.of_eq rfl, rfl, nofun⟩
  split
  . exact ⟨.of_eq rfl, rfl, nofun⟩
  next i hsid =>
    split
    next aek c hphase =>
      split
      . exact ⟨freeSession_shrinks s i, rfl, nofun⟩
      next hc => exact invokeActive_served decrypt hsid hphase hc _ env
    next => exact ⟨.of_eq rfl, rfl, nofun⟩

def Phase.Bound (numbers : List UInt32) : Phase K D → Prop
  | .close => True
  | .inProgress _ => numbers = []
  | .active _ c => ∀ n ∈ numbers, n < c

theorem Phase.Bound.mono {numbers : List UInt32} {p q : Phase K D} (h : p.Bound numbers) (hle : p.Le q) :
    q.Bound numbers := by
  cases p <;> cases q <;> first
  | exact hle.elim
  | exact h
  | skip
  . intro n hn
    rw [show numbers = [] from h] at hn
    cases hn
  . exact fun n hn => UInt32.lt_of_lt_of_le (h n hn) hle

theorem Phase.Bound.of_isClose {numbers : List UInt32} {p : Phase K D} (h : p.isClose = true) : p.Bound numbers := by
  cases p with
  | close => trivial
  | _ => cases h

theorem since_tau (sid : UInt32) (trace : List Event) : since sid (trace ++ [.tau]) = since sid trace := by
  unfold since
  rw [foldl_append]
  rfl

theorem since_created (sid sid' : UInt32) (trace : List Event) :
    since sid (trace ++ [.created sid']) = if sid' = sid then [] else since sid trace := by
  unfold since
  rw [foldl_append]
  rfl

theorem since_replied (sid sid' request reply : UInt32) (trace : List Event) :
    since sid (trace ++ [.replied sid' request reply]) =
      if sid' = sid then request :: since sid trace else since sid trace := by
  unfold since
  rw [foldl_append]
  rfl

structure Sound (trace : List Event) (s : State K D) : Prop where
  lt : ∀ i, (s.session i).phase.isClose = false → (s.session i).sid < s.sessionCount
  inj : ∀ i j, (s.session i).phase.isClose = false → (s.session j).phase.isClose = false →
    (s.session i).sid = (s.session j).sid → i = j
  bound : ∀ i, (s.session i).phase.Bound (since (s.session i).sid trace)

theorem Sound.shrinks (h : Sound trace s) (hs : Shrinks s s') (hcount : s.sessionCount ≤ s'.sessionCount)
    (hsince : ∀ sid, since sid trace' = since sid trace) : Sound trace' s' := by
  have hgoes : ∀ i, (s'.session i).phase.isClose = false →
      (s'.session i).sid = (s.session i).sid ∧ (s.session i).phase.Le (s'.session i).phase := fun i hi =>
    (hs i).resolve_left (by rw [hi]; exact nofun)
  refine ⟨fun i hi => ?_, fun i j hi hj heq => ?_, fun i => ?_⟩
  . obtain ⟨hsid, hle⟩ := hgoes i hi
    rw [hsid]
    exact UInt32.lt_of_lt_of_le (h.lt i hle.not_close) hcount
  . obtain ⟨hsid, hle⟩ := hgoes i hi
    obtain ⟨hsid', hle'⟩ := hgoes j hj
    rw [hsid, hsid'] at heq
    exact h.inj i j hle.not_close hle'.not_close heq
  . cases hi : (s'.session i).phase.isClose with
    | true => exact .of_isClose hi
    | false =>
      obtain ⟨hsid, hle⟩ := hgoes i hi
      rw [hsince, hsid]
      exact (h.bound i).mono hle

theorem Sound.wiped (trace : List Event) (count : UInt32) (eph : Bool) :
    Sound trace (⟨fun _ => .zero, count, eph⟩ : State K D) := ⟨nofun, nofun, fun _ => trivial⟩

theorem openSession_sound (h : Sound trace s) {tick : UInt64} {s1 : State K D} {slot : Option Slot}
    (hopen : openSession s tick = (s1, slot)) :
    Sound trace s1 ∧ s1.sessionCount ≠ sessionCounterMax ∧ (∀ i, slot = some i → (s1.session i).phase.isClose = true) ∧
      ∀ j, (s1.session j).phase.isClose = true ∨ s1.session j = s.session j := by
  unfold openSession at hopen
  extract_lets s0 at hopen
  have hs0 : Sound trace s0 ∧ s0.sessionCount ≠ sessionCounterMax ∧
      ∀ j, (s0.session j).phase.isClose = true ∨ s0.session j = s.session j := by
    dsimp only [s0]
    split
    . exact ⟨.wiped _ _ _, show (0 : UInt32) ≠ sessionCounterMax by decide, fun _ => .inl rfl⟩
    next hne => exact ⟨h, hne, fun _ => .inr rfl⟩
  clear_value s0
  obtain ⟨hsound, hcount, hkept⟩ := hs0
  split at hopen
  next i hfind =>
    cases hopen
    refine ⟨hsound, hcount, ?_, hkept⟩
    rintro _ ⟨⟩
    have hclose := find?_some hfind
    exact hclose
  next =>
    split at hopen
    next i _ =>
      cases hopen
      have hself : ((freeSession s0 i).session i) = .zero := update_self _ _ _
      refine ⟨hsound.shrinks (freeSession_shrinks s0 i) (UInt32.le_refl _) fun _ => rfl, hcount, ?_, fun j => ?_⟩
      . rintro _ ⟨⟩
        rw [hself]
        rfl
      by_cases hj : j = i
      . subst hj
        rw [hself]
        exact .inl rfl
      . rw [show (freeSession s0 i).session j = s0.session j from update_of_ne hj _ _]
        exact hkept j
    next =>
      cases hopen
      exact ⟨hsound, hcount, nofun, hkept⟩

theorem lt_succ_of_ne_max {count : UInt32} (h : count ≠ sessionCounterMax) : count < count + 1 := by
  have hne : count.toNat ≠ 2 ^ 32 - 1 := fun heq => h (UInt32.toNat.inj heq)
  have hlt := count.toNat_lt
  rw [UInt32.lt_iff_toNat_lt, UInt32.toNat_add, show (1 : UInt32).toNat = 1 from rfl, Nat.mod_eq_of_lt (by omega)]
  omega

theorem Sound.opened (h : Sound trace s) (hcount : s.sessionCount ≠ sessionCounterMax)
    {session : Session K D} (hsid : session.sid = s.sessionCount) (hphase : session.phase.Bound []) :
    Sound (trace ++ [.created s.sessionCount]) { s.set i session with sessionCount := s.sessionCount + 1 } := by
  have hself : (s.set i session).session i = session := update_self _ _ _
  have hother : ∀ j, j ≠ i → (s.set i session).session j = s.session j := fun j hj => update_of_ne hj _ _
  have hnew : ∀ j, (s.session j).phase.isClose = false → (s.session j).sid ≠ s.sessionCount := fun j hj heq =>
    UInt32.lt_irrefl _ (heq ▸ h.lt j hj)
  refine ⟨fun j hj => ?_, fun j k hj hk heq => ?_, fun j => ?_⟩ <;> dsimp only at *
  . by_cases hji : j = i
    . rw [hji, hself, hsid]
      exact lt_succ_of_ne_max hcount
    rw [hother j hji] at hj ⊢
    exact UInt32.lt_trans (h.lt j hj) (lt_succ_of_ne_max hcount)
  . by_cases hji : j = i <;> by_cases hki : k = i
    . rw [hji, hki]
    . rw [hji, hself, hother k hki, hsid] at heq
      rw [hother k hki] at hk
      exact absurd heq.symm (hnew k hk)
    . rw [hki, hself, hother j hji, hsid] at heq
      rw [hother j hji] at hj
      exact absurd heq (hnew j hj)
    . rw [hother j hji] at hj heq
      rw [hother k hki] at hk heq
      exact h.inj j k hj hk heq
  . rw [since_created]
    by_cases hji : j = i
    . rw [hji, hself, if_pos hsid.symm]
      exact hphase
    rw [hother j hji]
    cases hj : (s.session j).phase.isClose with
    | true => exact .of_isClose hj
    | false =>
      rw [if_neg fun heq => hnew j hj heq.symm]
      exact h.bound j

theorem pseCloseSession_opened (h : Sound trace s) (hcount : s.sessionCount ≠ sessionCounterMax) (i : Slot)
    (session : Session K D) (hsid : session.sid = s.sessionCount) (hphase : session.phase.isClose = false) :
    (pseCloseSession { s.set i session with sessionCount := s.sessionCount + 1 } s.sessionCount).session =
      (freeSession s i).session := by
  have hself : (s.set i session).session i = session := update_self _ _ _
  have hfound : sid2session { s.set i session with sessionCount := s.sessionCount + 1 } s.sessionCount = some i := by
    cases hfind : sid2session { s.set i session with sessionCount := s.sessionCount + 1 } s.sessionCount with
    | none =>
      rcases sid2session_none hfind i with hclose | hne <;> dsimp only at *
      . rw [hself, hphase] at hclose
        cases hclose
      rw [hself] at hne
      exact absurd hsid hne
    | some j =>
      obtain ⟨hj, heq⟩ := sid2session_some hfind
      dsimp only at hj heq
      by_cases hji : j = i
      . rw [hji]
      rw [show (s.set i session).session j = s.session j from update_of_ne hji _ _] at hj heq
      exact absurd (heq ▸ h.lt j hj) (UInt32.lt_irrefl _)
  have hvalid : s.sessionCount ≠ invadeSessionId := hcount
  unfold pseCloseSession
  rw [if_pos hvalid, hfound]
  unfold freeSession State.set
  dsimp only
  rw [update_idem]

def Event.ofId : Option UInt32 → Event
  | some sid => .created sid
  | none => .tau

theorem pseCreateSession_sound (h : Sound trace s) {tick : UInt64} {dhInit : Bool} {dhMsg1 : Option D}
    {id : Option UInt32} (hcreate : pseCreateSession s tick dhInit dhMsg1 = (s', id)) :
    Sound (trace ++ [Event.ofId id]) s' ∧ ∀ j, (s'.session j).phase.isActive = true → s'.session j = s.session j := by
  have hactive : ∀ {p : Phase K D}, p.isClose = true → p.isActive = true → False := by
    intro p hclose hact
    cases p with
    | close => cases hact
    | _ => cases hclose
  unfold pseCreateSession at hcreate
  split at hcreate
  . cases hcreate
    exact ⟨h.shrinks (.of_eq rfl) (UInt32.le_refl _) fun sid => since_tau sid trace, fun _ _ => rfl⟩
  split at hcreate
  next s1 hopen =>
    cases hcreate
    obtain ⟨hsound, -, -, hkept⟩ := openSession_sound h hopen
    refine ⟨hsound.shrinks (.of_eq rfl) (UInt32.le_refl _) fun sid => since_tau sid trace, fun j hj => ?_⟩
    exact (hkept j).resolve_left fun hclose => hactive hclose hj
  next s1 i hopen =>
    obtain ⟨hsound, hcount, -, hkept⟩ := openSession_sound h hopen
    have hother {session : Session K D} (hphase : session.phase.isActive = false) (j : Slot)
        (hj : ((s1.set i session).session j).phase.isActive = true) : (s1.set i session).session j = s.session j := by
      by_cases hji : j = i
      . rw [hji, show (s1.set i session).session i = session from update_self _ _ _, hphase] at hj
        cases hj
      rw [show (s1.set i session).session j = s1.session j from update_of_ne hji _ _] at hj ⊢
      exact (hkept j).resolve_left fun hclose => hactive hclose hj
    dsimp only at hcreate
    split at hcreate
    next =>
      cases hcreate
      have hclosed := pseCloseSession_opened hsound hcount i
        { s1.session i with sid := s1.sessionCount, phase := .inProgress none } rfl rfl
      refine ⟨hsound.shrinks ?_ ?_ fun sid => since_tau sid trace, fun j hj => ?_⟩
      . intro j
        rw [hclosed]
        exact freeSession_shrinks s1 i j
      . rw [pseCloseSession_count]
        exact UInt32.le_of_lt (lt_succ_of_ne_max hcount)
      . rw [hclosed] at hj ⊢
        exact hother rfl j hj
    next dh =>
      cases hcreate
      have hself : ∀ session : Session K D, (s1.set i session).session i = session := fun _ =>
        update_self _ _ _
      have hset : ∀ session session' : Session K D, { s1.set i session with sessionCount := s1.sessionCount + 1 }.set i
          session' = { s1.set i session' with sessionCount := s1.sessionCount + 1 } := by
        intro session session'
        unfold State.set
        dsimp only
        rw [update_idem]
      rw [hset, hself]
      exact ⟨hsound.opened hcount rfl rfl, fun j hj => hother rfl j hj⟩

theorem Sound.step (h : Sound trace s) {e : Event} (hstep : Step decrypt s e s') :
    Sound (trace ++ [e]) s' ∧ ∀ i, (s'.session i).phase.isActive = true →
      (s.session i).phase.Le (s'.session i).phase := by
  have hopen : ∀ {p : Phase K D}, p.isActive = true → p.isClose = false := by
    intro p hact
    cases p with
    | active => rfl
    | _ => cases hact
  have hquiet {s' : State K D} (hs : Shrinks s s') (hcount : s'.sessionCount = s.sessionCount) :
      Sound (trace ++ [.tau]) s' ∧
        ∀ i, (s'.session i).phase.isActive = true → (s.session i).phase.Le (s'.session i).phase :=
    ⟨h.shrinks hs (by rw [hcount]; exact UInt32.le_refl _) fun sid => since_tau sid trace, fun i hi =>
      ((hs i).resolve_left (by rw [hopen hi]; exact nofun)).2⟩
  have hcreated {id : Option UInt32} {tick : UInt64} {dhInit : Bool} {dhMsg1 : Option D}
      (hcreate : pseCreateSession s tick dhInit dhMsg1 = (s', id)) :
      Sound (trace ++ [Event.ofId id]) s' ∧
        ∀ i, (s'.session i).phase.isActive = true → (s.session i).phase.Le (s'.session i).phase := by
    obtain ⟨hsound, hkept⟩ := pseCreateSession_sound h hcreate
    refine ⟨hsound, fun i hi => ?_⟩
    rw [← hkept i hi]
    exact .refl (hopen hi)
  cases hstep with
  | ephemeral eph => exact hquiet (.of_eq rfl) rfl
  | create tick dhInit dhMsg1 sid _ hcreate => exact hcreated hcreate
  | createFailed tick dhInit dhMsg1 _ hcreate => exact hcreated hcreate
  | exchange tick sid procMsg2 _ =>
    obtain ⟨hs, hcount⟩ := pseExchangeReport_shrinks s tick sid procMsg2
    exact hquiet hs hcount
  | close sid => exact hquiet (pseCloseSession_shrinks s sid) (pseCloseSession_count s sid)
  | noReply tick req env _ =>
    have hserved := invokeServiceWrapper_served decrypt s tick req env
    exact hquiet hserved.shrinks hserved.count
  | reply tick req env hdr reply hres =>
    have hserved := invokeServiceWrapper_served decrypt s tick req env
    obtain ⟨i, aek, c, attrs, hsid, hphase, hc, hseq, hreply, hnum, hsession⟩ := hserved.reply hdr reply hres
    obtain ⟨hnotclose, hi⟩ := sid2session_some hsid
    refine ⟨⟨?_, ?_, fun j => ?_⟩, (hquiet hserved.shrinks hserved.count).2⟩
    . exact (hquiet hserved.shrinks hserved.count).1.lt
    . exact (hquiet hserved.shrinks hserved.count).1.inj
    rw [since_replied, hsession, hreply, hseq]
    by_cases hj : j = i
    . subst hj
      rw [update_self]
      dsimp only
      rw [if_pos rfl]
      have hbound := h.bound j
      rw [hphase, hi] at hbound
      have hlt : c < c + 1 + 1 := by
        rw [UInt32.lt_iff_toNat_lt, (lt_add_two hc).2]
        omega
      intro n hn
      rcases mem_cons.1 hn with rfl | hn
      . exact hlt
      . exact UInt32.lt_trans (hbound n hn) hlt
    . rw [update_of_ne hj]
      cases hjc : (s.session j).phase.isClose with
      | true => exact .of_isClose hjc
      | false =>
        rw [if_neg fun heq => hj (h.inj j i hjc hnotclose (by rw [hi, heq]))]
        exact h.bound j

theorem sound_of_run (h : Run (Step decrypt) State.init trace s) : Sound trace s :=
  h.invariant (I := Sound) (.wiped _ _ _) fun _ _ _ _ hsound hstep => (hsound.step hstep).1

def numberOf (payload : List UInt8) : UInt32 := UInt32.ofNat (Memory.ofBytes (payload.take 4))

theorem reqHdr_seqNum {payload : List UInt8} (h : 4 ≤ payload.length) (heap : Nat → UInt8) :
    (reqHdr payload heap).seqNum = numberOf payload := by
  match payload, h with
  | _ :: _ :: _ :: _ :: _, _ => rfl

theorem Sound.sid2session_freed (h : Sound trace s) {sid : UInt32} (hsid : sid2session s sid = some i)
    (hfreed : s'.session = update s.session i .zero) : sid2session s' sid = none := by
  obtain ⟨hopen, hi⟩ := sid2session_some hsid
  cases hfind : sid2session s' sid with
  | none => rfl
  | some j =>
    obtain ⟨hj, heq⟩ := sid2session_some hfind
    rw [hfreed] at hj heq
    by_cases hji : j = i
    . rw [hji, update_self] at hj
      cases hj
    rw [update_of_ne hji] at hj heq
    exact absurd (h.inj j i hj hopen (heq.trans hi.symm)) hji

theorem Sound.closes (h : Sound trace s) {req : Request C} {env : Env} {aek : K} {c : UInt32} {payload : List UInt8}
    (tick : UInt64) (hsizes : req.sizesOk = true) (heph : s.ephActive = true) (hmalloc : env.mallocReq = true)
    (hsid : sid2session s req.sessionId = some i) (hphase : (s.session i).phase = .active aek c)
    (hdecrypt : decrypt aek req.cipher = some payload) (hlength : 4 ≤ payload.length) (hne : numberOf payload ≠ c) :
    sid2session (invokeServiceWrapper decrypt s tick req env).state req.sessionId = none := by
  refine h.sid2session_freed hsid ?_
  rw [← reqHdr_seqNum hlength env.heap] at hne
  unfold invokeServiceWrapper
  rw [if_neg (by rw [hsizes]; exact nofun), if_neg (by rw [heph]; exact nofun), hsid]
  dsimp only
  rw [hphase]
  dsimp only
  split
  . rfl
  unfold invokeActive
  rw [if_neg (by rw [hmalloc]; exact nofun), hdecrypt]
  dsimp only
  rw [if_pos hne]
  unfold freeSession State.set
  dsimp only
  rw [update_idem]

/--
Every run. Sessions that are not closed have ids of their own, that are valid. A request number is replied to once in
a session, with the next number. The counter of a session does not go down. A request of the other side with another
number than the counter closes the session, if it passes the checks that are made before it is decrypted.
-/
theorem answered_once (h : Run (Step decrypt) State.init trace s) :
    (∀ i j, (s.session i).phase.isClose = false → (s.session j).phase.isClose = false →
      (s.session i).sid = (s.session j).sid → i = j) ∧
    (∀ i, (s.session i).phase.isClose = false → (s.session i).sid ≠ invadeSessionId) ∧
    (∀ pre post sid request reply, trace = pre ++ .replied sid request reply :: post →
      request ∉ since sid pre ∧ reply.toNat = request.toNat + 1) ∧
    (∀ e s' i aek c aek' c', Step decrypt s e s' → (s.session i).phase = .active aek c →
      (s'.session i).phase = .active aek' c' → c.toNat ≤ c'.toNat) ∧
    (∀ tick req env i aek c payload, req.sizesOk = true → s.ephActive = true → env.mallocReq = true →
      sid2session s req.sessionId = some i → (s.session i).phase = .active aek c →
      decrypt aek req.cipher = some payload → 4 ≤ payload.length → numberOf payload ≠ c →
      sid2session (invokeServiceWrapper decrypt s tick req env).state req.sessionId = none) := by
  have hsound := sound_of_run h
  refine ⟨hsound.inj, fun i hi heq => ?_, ?_, ?_, ?_⟩
  . have hlt := hsound.lt i hi
    rw [heq, UInt32.lt_iff_toNat_lt] at hlt
    have hmax : invadeSessionId.toNat = 2 ^ 32 - 1 := rfl
    have hcount := s.sessionCount.toNat_lt
    omega
  . rintro pre post sid request reply rfl
    obtain ⟨s₁, s₂, hpre, hstep, -⟩ := h.split
    cases hstep with
    | reply tick req env hdr reply hres =>
      have hsound₁ := sound_of_run hpre
      obtain ⟨i, aek, c, attrs, hsid, hphase, hc, hseq, hreply, hnum, -⟩ :=
        (invokeServiceWrapper_served decrypt s₁ tick req env).reply hdr reply hres
      have hbound := hsound₁.bound i
      rw [hphase, (sid2session_some hsid).2] at hbound
      rw [hseq, hreply, hnum]
      exact ⟨fun hmem => UInt32.lt_irrefl c (hbound c hmem), (lt_add_two hc).1⟩
  . intro e s' i aek c aek' c' hstep hphase hphase'
    have hle := (hsound.step hstep).2 i (by rw [hphase']; rfl)
    rw [hphase, hphase'] at hle
    exact UInt32.le_iff_toNat_le.1 hle
  . intro tick req env i aek c payload hsizes heph hmalloc hsid hphase hdecrypt hlength hne
    exact hsound.closes tick hsizes heph hmalloc hsid hphase hdecrypt hlength hne

def plain (_ : Unit) (payload : List UInt8) : Option (List UInt8) := some payload

def timeRequest (number : UInt8) (respMsgSize : UInt32) : Request (List UInt8) :=
  ⟨false, 48, respMsgSize, 0, 52, 8, [number, 0, 0, 0, 0, 0, 0, 0]⟩

def firstSlot : Slot := ⟨0, by decide⟩

def goodEnv : Env := ⟨true, fun _ => 0, true, 0, true, true⟩

def createdState : State Unit Unit := (pseCreateSession { State.init with ephActive := true } 1 true (some ())).1

def activeState : State Unit Unit := pseExchangeReport createdState 1 0 fun _ => some ((), ⟨0, 0, 0, 0, 0, 0⟩)

theorem run_activeState : Run (Step plain) State.init [.tau, .created 0, .tau] activeState := by
  have h0 : Run (Step plain) (State.init : State Unit Unit) [] State.init := .nil
  have h1 := h0.snoc (.ephemeral true)
  have h2 : Run (Step plain) State.init [.tau, .created 0] createdState :=
    h1.snoc (.create 1 true (some ()) 0 rfl (Prod.ext rfl (by decide +kernel)))
  exact h2.snoc (.exchange 1 0 (fun _ => some ((), ⟨0, 0, 0, 0, 0, 0⟩)) (by decide +kernel))

theorem answered_once_time :
    ∃ s : State Unit Unit, Run (Step plain) State.init ([.tau, .created 0, .tau] ++ [.replied 0 0 1]) s ∧
      0 ∉ since 0 [.tau, .created 0, .tau] ∧
      sid2session (invokeServiceWrapper plain s 2 (timeRequest 0 92) goodEnv).state 0 = none := by
  have hserved : (invokeServiceWrapper plain activeState 2 (timeRequest 0 92) goodEnv).served =
      some (⟨0, 0, 0⟩, ⟨0, 52, 1, 0, 0⟩) := by decide +kernel
  have h := run_activeState.snoc (.reply 2 (timeRequest 0 92) goodEnv _ _ hserved)
  obtain ⟨-, -, hreplied, -, hcloses⟩ := answered_once h
  refine ⟨_, h, (hreplied _ [] 0 0 1 rfl).1, ?_⟩
  exact hcloses 2 (timeRequest 0 92) goodEnv firstSlot () 2 [0, 0, 0, 0, 0, 0, 0, 0] (by decide) (by decide +kernel) rfl
    (by decide +kernel) (by decide +kernel) rfl (by decide) (by decide)

theorem wrong_number_refused :
    Run (Step plain) State.init [.tau, .created 0, .tau] activeState ∧
      (activeState.session firstSlot).phase = .active () 0 ∧
      plain () (timeRequest 5 0).cipher = some [5, 0, 0, 0, 0, 0, 0, 0] ∧
      numberOf [5, 0, 0, 0, 0, 0, 0, 0] = 5 ∧
      (invokeServiceWrapper plain activeState 2 (timeRequest 5 0) goodEnv).err = .parameterError ∧
      sid2session (invokeServiceWrapper plain activeState 2 (timeRequest 5 0) goodEnv).state 0 = some firstSlot :=
  ⟨run_activeState, by decide +kernel, rfl, by decide, by decide +kernel, by decide +kernel⟩

end Pse
