import SrasMage.Pse.Session
import Mathlib.Data.List.Count
import Mathlib.Data.List.Forall2

/-!
This module contains the proof that a session is evicted by the number of sessions of an enclave and by age.
-/

namespace Pse

open List

variable {K D : Type} {s : State K D} {tick : UInt64} {done : List Slot} {i j : Slot}

def IsvAttributes.identity (a : IsvAttributes) : BitVec 256 × BitVec 256 × UInt16 :=
  (a.mrEnclave, a.mrSigner, a.isvProdId)

def State.identity (s : State K D) (i : Slot) : BitVec 256 × BitVec 256 × UInt16 :=
  (s.session i).isvAttributes.identity

def State.tickCount (s : State K D) (i : Slot) : UInt64 := (s.session i).isvAttributes.tickCount

def State.isActive (s : State K D) (i : Slot) : Bool := (s.session i).phase.isActive

/--
The number of sessions among `done` that an identity owns: those that it has established.
-/
def ownedIn (s : State K D) (done : List Slot) (id : BitVec 256 × BitVec 256 × UInt16) : Nat :=
  done.countP fun i => s.isActive i && s.identity i == id

def owned (s : State K D) (id : BitVec 256 × BitVec 256 × UInt16) : Nat :=
  ownedIn s (List.finRange sessionConnection) id

def OwnsMost (s : State K D) (i : Slot) : Prop :=
  s.isActive i = true ∧ ∀ id, owned s id ≤ owned s (s.identity i)

/--
The policy for a table without a free slot.
-/
structure Evicts (s : State K D) (tick : UInt64) (res : Option Slot) : Prop where
  overQuota : (∃ id, maxInstPerEnclave < owned s id) →
    ∃ i, res = some i ∧ OwnsMost s i ∧ ∀ j, OwnsMost s j → s.tickCount i ≤ s.tickCount j
  idle : (∀ id, owned s id ≤ maxInstPerEnclave) →
    (∃ i, res = some i ∧ (∀ j, s.tickCount i ≤ s.tickCount j) ∧ sessionIdleTime ≤ tick - s.tickCount i) ∨
    (res = none ∧ ∀ i, tick - s.tickCount i < sessionIdleTime)

theorem sameEnclave_eq_true {a b : IsvAttributes} : sameEnclave a b = true ↔ a.identity = b.identity := by
  simp [sameEnclave, IsvAttributes.identity, and_assoc]

/--
The entry that the first loop keeps for an identity after the slots `done`.
-/
structure Group (s : State K D) (done : List Slot) (e : Instances) : Prop where
  active : s.isActive e.timeStamp = true
  instances : e.instances = ownedIn s done (s.identity e.timeStamp)
  oldest : ∀ j ∈ done, s.isActive j = true → s.identity j = s.identity e.timeStamp →
    s.tickCount e.timeStamp ≤ s.tickCount j

def identities (s : State K D) (entries : List Instances) : List (BitVec 256 × BitVec 256 × UInt16) :=
  entries.map fun e => s.identity e.timeStamp

theorem ownedIn_concat (id : BitVec 256 × BitVec 256 × UInt16) : ownedIn s (done ++ [i]) id =
      ownedIn s done id + if s.isActive i = true ∧ s.identity i = id then 1 else 0 := by
  simp [ownedIn, countP_append, countP_singleton]

theorem Group.concat_other {e : Instances} (h : Group s done e)
    (hi : ¬ (s.isActive i = true ∧ s.identity i = s.identity e.timeStamp)) : Group s (done ++ [i]) e where
  active := h.active
  instances := by rw [ownedIn_concat, if_neg hi, h.instances, Nat.add_zero]
  oldest j hj hactive hid := by
    rcases mem_append.1 hj with hj | hj
    . exact h.oldest j hj hactive hid
    rw [mem_singleton] at hj
    subst hj
    exact absurd ⟨hactive, hid⟩ hi

theorem Group.concat_same {e : Instances} (h : Group s done e) (hi : s.isActive i = true)
    (hid : s.identity i = s.identity e.timeStamp) :
    ∃ e' : Instances, e' = ⟨if s.tickCount i < s.tickCount e.timeStamp then i else e.timeStamp, e.instances + 1⟩ ∧
      s.identity e'.timeStamp = s.identity e.timeStamp ∧ Group s (done ++ [i]) e' := by
  have hcount : e.instances + 1 = ownedIn s (done ++ [i]) (s.identity e.timeStamp) := by
    rw [ownedIn_concat, if_pos ⟨hi, hid⟩, h.instances]
  have hmem : ∀ {j}, j ∈ done ++ [i] → j ∈ done ∨ j = i := by simp
  refine ⟨_, rfl, ?_⟩
  split
  . next hlt =>
    refine ⟨hid, hi, hid ▸ hcount, ?_⟩
    intro j hj hactive hsame
    rcases hmem hj with hj | rfl
    . exact UInt64.le_of_lt (UInt64.lt_of_lt_of_le hlt (h.oldest j hj hactive (hsame.trans hid)))
    . exact UInt64.le_refl _
  next hle =>
  refine ⟨rfl, h.active, hcount, ?_⟩
  intro j hj hactive hsame
  rcases hmem hj with hj | rfl
  . exact h.oldest j hj hactive hsame
  . exact UInt64.not_lt.1 hle

theorem addInstance_spec (hi : s.isActive i = true) (entries : List Instances)
    (hnodup : (identities s entries).Nodup) (h : ∀ e ∈ entries, Group s done e) :
    (addInstance s i entries = none ∧ s.identity i ∉ identities s entries) ∨
    ∃ entries' n, addInstance s i entries = some (entries', n) ∧ identities s entries' = identities s entries ∧
      (∀ e ∈ entries', Group s (done ++ [i]) e) ∧ s.identity i ∈ identities s entries ∧
      n = ownedIn s (done ++ [i]) (s.identity i) := by
  induction entries with
  | nil => exact .inl ⟨rfl, not_mem_nil⟩
  | cons e rest ih =>
    rw [identities, map_cons, nodup_cons] at hnodup
    have hrest : ∀ e' ∈ rest, Group s done e' := fun e' he' => h e' (mem_cons_of_mem _ he')
    unfold addInstance
    by_cases hsame : s.identity i = s.identity e.timeStamp
    . obtain ⟨e', he', hid, hgroup⟩ := (h e mem_cons_self).concat_same hi hsame
      refine .inr ⟨e' :: rest, e.instances + 1, ?_, ?_, ?_, ?_, ?_⟩
      . rw [he']
        exact if_pos (sameEnclave_eq_true.2 hsame)
      . rw [identities, identities, map_cons, map_cons, hid]
      . intro e'' he''
        rcases mem_cons.1 he'' with rfl | hmem
        . exact hgroup
        refine (hrest e'' hmem).concat_other ?_
        rintro ⟨-, heq⟩
        exact hnodup.1 (hsame ▸ heq ▸ mem_map_of_mem hmem)
      . rw [hsame]
        exact mem_cons_self
      . rw [hsame, ← hid, ← hgroup.instances, he']
    have hne : sameEnclave (s.session i).isvAttributes (s.session e.timeStamp).isvAttributes = false :=
      Bool.eq_false_iff.2 fun heq => hsame (sameEnclave_eq_true.1 heq)
    dsimp only
    rw [hne]
    rcases ih hnodup.2 hrest with ⟨hnone, hnot⟩ | ⟨entries', n, hsome, hids, hgroups, hmem, hn⟩
    . refine .inl ⟨by rw [hnone]; rfl, ?_⟩
      rw [identities, map_cons, mem_cons, not_or]
      exact ⟨hsame, hnot⟩
    refine .inr ⟨e :: entries', n, by rw [hsome]; rfl, ?_, ?_, mem_cons_of_mem _ hmem, hn⟩
    . exact congrArg (s.identity e.timeStamp :: ·) hids
    intro e'' he''
    rcases mem_cons.1 he'' with rfl | he''
    . exact (h _ mem_cons_self).concat_other fun hboth => hsame hboth.2
    . exact hgroups e'' he''

/--
What the first loop has counted after the slots `done`.
-/
structure Counted (s : State K D) (done : List Slot) (res : List Instances × Nat) : Prop where
  groups : ∀ e ∈ res.1, Group s done e
  nodup : (identities s res.1).Nodup
  complete : ∀ j ∈ done, s.isActive j = true → s.identity j ∈ identities s res.1
  bound : ∀ id, ownedIn s done id ≤ res.2
  attained : ∃ id, ownedIn s done id = res.2

theorem Counted.concat {res : List Instances × Nat} (h : Counted s done res) (hi : s.isActive i = true)
    {entries : List Instances} (hgroups : ∀ e ∈ entries, Group s (done ++ [i]) e)
    (hnodup : (identities s entries).Nodup)
    (hids : ∀ id, id ∈ identities s entries ↔ id ∈ identities s res.1 ∨ id = s.identity i) {n : Nat}
    (hn : n = ownedIn s (done ++ [i]) (s.identity i)) :
    Counted s (done ++ [i]) (entries, if n > res.2 then n else res.2) where
  groups := hgroups
  nodup := hnodup
  complete j hj hactive := by
    rw [hids]
    rcases mem_append.1 hj with hj | hj
    . exact .inl (h.complete j hj hactive)
    rw [mem_singleton.1 hj]
    exact .inr rfl
  bound id := by
    by_cases hid : s.identity i = id
    . subst hid
      dsimp only
      split <;> omega
    have hle := h.bound id
    rw [ownedIn_concat, if_neg fun hboth => hid hboth.2]
    dsimp only
    split <;> omega
  attained := by
    dsimp only
    split
    . exact ⟨_, hn.symm⟩
    next hle =>
    obtain ⟨id, hid⟩ := h.attained
    refine ⟨id, ?_⟩
    rw [ownedIn_concat, hid]
    split
    . next hsame =>
      rw [hn, ownedIn_concat, if_pos ⟨hi, rfl⟩, hsame.2, hid] at hle
      omega
    . rfl

theorem foldl_invariant {α β : Type} {I : List α → β → Prop} {f : β → α → β}
    (hstep : ∀ done acc a, I done acc → I (done ++ [a]) (f acc a)) (acc : β) (done : List α) (h : I done acc)
    (rest : List α) : I (done ++ rest) (rest.foldl f acc) := by
  induction rest generalizing done acc with
  | nil =>
    rw [append_nil]
    exact h
  | cons a rest ih =>
    rw [foldl_cons, append_cons]
    exact ih _ _ (hstep done acc a h)

theorem countInstances_spec (s : State K D) : Counted s (List.finRange sessionConnection) (countInstances s) := by
  refine foldl_invariant (I := Counted s) ?_ ([], 0) [] ⟨fun _ he => absurd he not_mem_nil, nodup_nil,
    fun _ hj => absurd hj not_mem_nil, fun _ => le_rfl, ⟨(0, 0, 0), rfl⟩⟩ _
  rintro done ⟨entries0, n0⟩ i h
  dsimp only
  split
  . next hinactive =>
    have hnot : ∀ id, ¬ (s.isActive i = true ∧ s.identity i = id) := by
      rintro id ⟨hactive, -⟩
      exact absurd (hactive.symm.trans hinactive) (by decide)
    have hcount : ∀ id, ownedIn s (done ++ [i]) id = ownedIn s done id := by
      intro id
      rw [ownedIn_concat, if_neg (hnot id), Nat.add_zero]
    refine ⟨fun e he => (h.groups e he).concat_other (hnot _), h.nodup, ?_, ?_, ?_⟩
    . intro j hj hactive
      rcases mem_append.mp hj with hj | hj
      . exact h.complete j hj hactive
      rw [mem_singleton] at hj
      exact absurd ⟨hj ▸ hactive, rfl⟩ (hnot _)
    . intro id
      rw [hcount]
      exact h.bound id
    . obtain ⟨id, hid⟩ := h.attained
      exact ⟨id, (hcount id).trans hid⟩
  next hactive =>
  have hi : s.isActive i = true := Bool.not_eq_false _ |>.mp hactive
  rcases addInstance_spec hi entries0 h.nodup h.groups with
    ⟨hnone, hnot⟩ | ⟨entries, n, hsome, hids, hgroups, hmem, hn⟩
  . rw [hnone]
    have hzero : ownedIn s done (s.identity i) = 0 := by
      rw [ownedIn, countP_eq_zero]
      intro j hj hown
      rw [Bool.and_eq_true, beq_iff_eq] at hown
      exact hnot (hown.2 ▸ h.complete j hj hown.1)
    have hone : 1 = ownedIn s (done ++ [i]) (s.identity i) := by rw [ownedIn_concat, if_pos ⟨hi, rfl⟩, hzero]
    have hconcat : identities s (entries0 ++ [⟨i, 1⟩]) = identities s entries0 ++ [s.identity i] := by
      rw [identities, map_append]
      rfl
    refine h.concat hi ?_ ?_ ?_ hone
    . intro e he
      rcases mem_append.mp he with he | he
      . refine (h.groups e he).concat_other ?_
        rintro ⟨-, heq⟩
        exact hnot (heq ▸ mem_map_of_mem he)
      rw [mem_singleton] at he
      subst he
      refine ⟨hi, hone, ?_⟩
      intro j hj hactive' hsame
      rcases mem_append.mp hj with hj | hj
      . exact absurd (hsame ▸ h.complete j hj hactive') hnot
      rw [mem_singleton.mp hj]
      exact UInt64.le_refl _
    . rw [hconcat, nodup_append]
      refine ⟨h.nodup, nodup_singleton _, ?_⟩
      intro a ha b hb heq
      rw [mem_singleton] at hb
      exact hnot (hb ▸ heq ▸ ha)
    . intro id
      rw [hconcat, mem_append, mem_singleton]
  . rw [hsome]
    refine h.concat hi hgroups (hids ▸ h.nodup) ?_ hn
    intro id
    rw [hids]
    exact ⟨.inl, fun hid => hid.elim (fun h => h) fun heq => heq ▸ hmem⟩

/--
The second loop after the entries `seen`: the oldest of the sessions of those with `n` instances.
-/
def Oldest (s : State K D) (n : Nat) (seen : List Instances) : Option Slot → Prop
  | none => ∀ e ∈ seen, e.instances ≠ n
  | some i => (∃ e ∈ seen, e.instances = n ∧ e.timeStamp = i) ∧
      ∀ e ∈ seen, e.instances = n → s.tickCount i ≤ s.tickCount e.timeStamp

theorem Oldest.pickOlder {n : Nat} {seen : List Instances} {session : Option Slot}
    (h : Oldest s n seen session) (e : Instances) : Oldest s n (seen ++ [e]) (pickOlder s n session e) := by
  have hmem : ∀ {e'}, e' ∈ seen ++ [e] → e' ∈ seen ∨ e' = e := by simp
  have hself : e ∈ seen ++ [e] := by simp
  unfold Pse.pickOlder
  split
  . next hn =>
    split
    . refine ⟨⟨e, hself, hn, rfl⟩, ?_⟩
      intro e' he' hn'
      rcases hmem he' with he' | rfl
      . exact absurd hn' (h e' he')
      . exact UInt64.le_refl _
    next i =>
    obtain ⟨⟨e0, he0, hn0, hts⟩, hold⟩ := h
    split
    . next hgt =>
      refine ⟨⟨e, hself, hn, rfl⟩, ?_⟩
      intro e' he' hn'
      rcases hmem he' with he' | rfl
      . exact UInt64.le_of_lt (UInt64.lt_of_lt_of_le hgt (hold e' he' hn'))
      . exact UInt64.le_refl _
    next hle =>
    refine ⟨⟨e0, mem_append_left _ he0, hn0, hts⟩, ?_⟩
    intro e' he' hn'
    rcases hmem he' with he' | rfl
    . exact hold e' he' hn'
    . exact UInt64.not_lt.1 hle
  . next hn =>
    cases session with
    | none =>
      intro e' he'
      rcases hmem he' with he' | rfl
      . exact h e' he'
      . exact hn
    | some i =>
      obtain ⟨⟨e0, he0, hn0, hts⟩, hold⟩ := h
      refine ⟨⟨e0, mem_append_left _ he0, hn0, hts⟩, ?_⟩
      intro e' he' hn'
      rcases hmem he' with he' | rfl
      . exact hold e' he' hn'
      . exact absurd hn' hn

theorem Counted.entry_of {res : List Instances × Nat} (h : Counted s (List.finRange sessionConnection) res)
    (hj : s.isActive j = true) :
    ∃ e ∈ res.1, e.instances = owned s (s.identity j) ∧ s.tickCount e.timeStamp ≤ s.tickCount j := by
  obtain ⟨e, he, hid⟩ := mem_map.1 (h.complete j (mem_finRange j) hj)
  refine ⟨e, he, ?_, (h.groups e he).oldest j (mem_finRange j) hj hid.symm⟩
  rw [(h.groups e he).instances, hid]
  rfl

theorem overQuota_of_lt (hover : ∃ id, maxInstPerEnclave < owned s id) :
    ∃ i, overQuota s = some i ∧ OwnsMost s i ∧ ∀ j, OwnsMost s j → s.tickCount i ≤ s.tickCount j := by
  have h := countInstances_spec s
  unfold overQuota
  generalize countInstances s = res at h ⊢
  obtain ⟨entries, n⟩ := res
  obtain ⟨id, hid⟩ := hover
  have hn : maxInstPerEnclave < n := Nat.lt_of_lt_of_le hid (h.bound id)
  have hold : Oldest s n ([] ++ entries) (entries.foldl (pickOlder s n) none) :=
    foldl_invariant (I := Oldest s n) (fun _ _ e h => h.pickOlder e) none [] (fun _ he => absurd he not_mem_nil) _
  dsimp only
  rw [if_pos hn]
  change ∃ i, entries.foldl (pickOlder s n) none = some i ∧ _
  generalize entries.foldl (pickOlder s n) none = res at hold ⊢
  cases res with
  | none =>
    -- an identity that owns the most has an entry
    obtain ⟨top, htop⟩ := h.attained
    have hpos : 0 < ownedIn s (List.finRange sessionConnection) top := by
      rw [htop]
      exact Nat.zero_lt_of_lt hn
    obtain ⟨j, -, hj⟩ := countP_pos_iff.1 hpos
    rw [Bool.and_eq_true, beq_iff_eq] at hj
    obtain ⟨e, he, hcount, -⟩ := h.entry_of hj.1
    rw [hj.2] at hcount
    exact absurd (hcount.trans htop) (hold e he)
  | some i =>
    obtain ⟨⟨e, he, hcount, rfl⟩, hmin⟩ := hold
    have howned : owned s (s.identity e.timeStamp) = n := (h.groups e he).instances.symm.trans hcount
    refine ⟨_, rfl, ⟨(h.groups e he).active, ?_⟩, ?_⟩
    . intro id
      rw [howned]
      exact h.bound id
    intro j hj
    obtain ⟨top, htop⟩ := h.attained
    have hmost : owned s (s.identity j) = n :=
      Nat.le_antisymm (h.bound _) (htop.symm.trans_le (hj.2 top))
    obtain ⟨e', he', hcount', hle⟩ := h.entry_of hj.1
    exact UInt64.le_trans (hmin e' he' (hcount'.trans hmost)) hle

theorem overQuota_of_le (hunder : ∀ id, owned s id ≤ maxInstPerEnclave) : overQuota s = none := by
  obtain ⟨id, hid⟩ := (countInstances_spec s).attained
  unfold overQuota
  dsimp only
  rw [if_neg (Nat.not_lt.2 (hid ▸ hunder id))]

theorem leastActive_spec (htick : ∀ i, s.tickCount i ≤ tick) (rest : List Slot) :
    ∀ (done : List Slot) (elapse : UInt64) (session : Option Slot), (∀ j ∈ done, tick - s.tickCount j ≤ elapse) →
      (session = none ∧ elapse = 0 ∨ ∃ i, session = some i ∧ elapse = tick - s.tickCount i) →
      (∃ i, leastActive s tick rest elapse session = some i ∧
        (∀ j ∈ done ++ rest, tick - s.tickCount j ≤ tick - s.tickCount i) ∧
        sessionIdleTime ≤ tick - s.tickCount i) ∨
      (leastActive s tick rest elapse session = none ∧ ∀ j ∈ done ++ rest, tick - s.tickCount j < sessionIdleTime) := by
  induction rest with
  | nil =>
    intro done elapse session hdone hsession
    rw [leastActive, append_nil]
    split
    . next hlt => exact .inr ⟨rfl, fun j hj => UInt64.lt_of_le_of_lt (hdone j hj) hlt⟩
    next hle =>
    rcases hsession with ⟨-, rfl⟩ | ⟨i, rfl, rfl⟩
    . exact absurd (by decide) hle
    . exact .inl ⟨i, rfl, hdone, UInt64.not_lt.1 hle⟩
  | cons i rest ih =>
    intro done elapse session hdone hsession
    have hwrap : ¬ tick - s.tickCount i > tick := by
      have hle := UInt64.le_iff_toNat_le.1 (htick i)
      rw [gt_iff_lt, UInt64.lt_iff_toNat_lt, UInt64.toNat_sub_of_le _ _ (htick i)]
      omega
    rw [leastActive, append_cons]
    rw [if_neg (show ¬ tick - (s.session i).isvAttributes.tickCount > tick from hwrap)]
    have hmem : ∀ {j}, j ∈ done ++ [i] → j ∈ done ∨ j = i := by simp
    split
    . next hgt =>
      refine ih _ _ _ ?_ (.inr ⟨i, rfl, rfl⟩)
      intro j hj
      rcases hmem hj with hj | rfl
      . exact UInt64.le_of_lt (UInt64.lt_of_le_of_lt (hdone j hj) hgt)
      . exact UInt64.le_refl _
    next hle =>
    refine ih _ _ _ ?_ hsession
    intro j hj
    rcases hmem hj with hj | rfl
    . exact hdone j hj
    . exact UInt64.not_lt.1 hle

/--
For every table and every tick that is not earlier than those in it, the session that `find_idle_session` returns
is the one that the policy names.
-/
theorem findIdleSession_evicts (s : State K D) (tick : UInt64) (htick : ∀ i, s.tickCount i ≤ tick) :
    Evicts s tick (findIdleSession s tick) := by
  constructor
  . intro hover
    obtain ⟨i, hi, hmost, hmin⟩ := overQuota_of_lt hover
    exact ⟨i, by rw [findIdleSession, hi], hmost, hmin⟩
  intro hunder
  rw [findIdleSession, overQuota_of_le hunder]
  rcases leastActive_spec htick (List.finRange sessionConnection) [] 0 none
    (fun _ hj => absurd hj not_mem_nil) (.inl ⟨rfl, rfl⟩) with
    ⟨i, hi, hmin, hidle⟩ | ⟨hnone, hbusy⟩
  . refine .inl ⟨i, hi, ?_, hidle⟩
    intro j
    have hle := UInt64.le_iff_toNat_le.mp (hmin j (mem_finRange j))
    have hti := UInt64.le_iff_toNat_le.mp (htick i)
    have htj := UInt64.le_iff_toNat_le.mp (htick j)
    rw [UInt64.toNat_sub_of_le _ _ (htick i), UInt64.toNat_sub_of_le _ _ (htick j)] at hle
    rw [UInt64.le_iff_toNat_le]
    omega
  . exact .inr ⟨hnone, fun j => hbusy j (mem_finRange j)⟩

/--
A table in which one enclave has established all sessions.
-/
def crowdedTable : State Unit Unit where
  session i := ⟨UInt32.ofNat i, .active () 0, ⟨UInt64.ofNat i, 0, 0, 0, 0, 0⟩⟩
  sessionCount := 0
  ephActive := false

theorem findIdleSession_evicts_crowded :
    (∀ i, (crowdedTable.session i).phase.isClose = false) ∧
      Evicts crowdedTable 127 (findIdleSession crowdedTable 127) :=
  ⟨fun _ => rfl, findIdleSession_evicts crowdedTable 127 (by decide +kernel)⟩

end Pse
