import SrasMage.Vmc.Effects
import SrasMage.Vmc.HonestDb

/-!
This module contains the counters on an untrusted database.
-/

namespace Vmc

open Toy
open Merkle TreeCache

variable {W D R : Type} {P : Outside W D R}

structure Counter (D : Type) where
  ownerPolicy : UInt16
  ownerMaskFlags : UInt64
  ownerMaskXfrm : UInt64
  ownerId : D
  ownerSvn : UInt16
  value : UInt32

def Leaf.counter (a : Leaf D) : Counter D :=
  ⟨a.ownerPolicy, a.ownerMaskFlags, a.ownerMaskXfrm, a.ownerId, a.ownerSvn, a.value⟩

abbrev Counters (D : Type) := Nat → Nonce → Option (Counter D)

namespace Counters

def empty : Counters D := fun _ _ => none

variable (m : Counters D) (i : Nat) (nonce : Nonce)

def put (c : Counter D) : Counters D :=
  fun j n => if j = i then (if n = nonce then some c else none) else m j n

theorem put_self (c : Counter D) : m.put i nonce c i nonce = some c := by rw [put, if_pos rfl, if_pos rfl]

theorem put_of_ne {i j : Nat} (n : Nonce) (c : Counter D) (h : j ≠ i) : m.put i nonce c j n = m j n :=
  if_neg h

def free : Counters D := fun j n => if j = i then none else m j n

end Counters

open Classical in
noncomputable def leafOf (P : Outside W D R) (root : R) (k : Nat) : Option (Leaf D) :=
  if h : ∃ a, LeafAt P.hashes root k a then some h.choose else none

def Leaf.holds (nonce : Nonce) (a : Leaf D) : Option (Counter D) :=
  if a.isUsed ≠ 0 ∧ a.nonce = nonce then some a.counter else none

noncomputable def counters (P : Outside W D R) (root : R) : Counters D := fun i nonce =>
  if i < initLeafNodeIdBase then (leafOf P root (i + initLeafNodeIdBase)).bind (Leaf.holds nonce)
  else none

section

variable {root root' : R} {a : Leaf D} {i : Nat}

theorem isLeafId_add (hi : i < initLeafNodeIdBase) : IsLeafId (i + initLeafNodeIdBase) := by
  unfold IsLeafId initMaxLeafNodeId
  unfold initLeafNodeIdBase at hi ⊢
  omega

variable (hh : CollisionFree P.hashes)
include hh

theorem leafOf_eq {k : Nat} (ha : LeafAt P.hashes root k a) : leafOf P root k = some a := by
  have hex : ∃ a, LeafAt P.hashes root k a := ⟨a, ha⟩
  rw [leafOf, dif_pos hex, hex.choose_spec.unique hh ha]

theorem leafOf_congr {k : Nat} (h : ∀ a, LeafAt P.hashes root' k a ↔ LeafAt P.hashes root k a) :
    leafOf P root' k = leafOf P root k := by
  by_cases hex : ∃ a, LeafAt P.hashes root k a
  . obtain ⟨a, ha⟩ := hex
    rw [leafOf_eq hh ha, leafOf_eq hh ((h a).2 ha)]
  rw [leafOf, leafOf, dif_neg hex, dif_neg]
  rintro ⟨a, ha⟩
  exact hex ⟨a, (h a).1 ha⟩

theorem counters_eq (hi : i < initLeafNodeIdBase)
    (ha : LeafAt P.hashes root (i + initLeafNodeIdBase) a) (nonce : Nonce) :
    counters P root i nonce = a.holds nonce := by
  rw [counters, if_pos hi, leafOf_eq hh ha]
  rfl

theorem counters_empty (he : EmptyRoot P root) : counters P root = Counters.empty := by
  funext i nonce
  by_cases hi : i < initLeafNodeIdBase
  . rw [counters_eq hh hi (he.leafAt (isLeafId_add hi)), Leaf.holds]
    exact if_neg fun h => h.1 rfl
  rw [counters, if_neg hi]
  rfl

theorem Replaced.counters (hi : i < initLeafNodeIdBase)
    (hr : Replaced P.hashes root root' (i + initLeafNodeIdBase) a) :
    counters P root' = fun j nonce => if j = i then a.holds nonce else counters P root j nonce := by
  funext j nonce
  by_cases hj : j = i
  . rw [if_pos hj, hj, counters_eq hh hi hr.self]
  rw [if_neg hj]
  unfold Vmc.counters
  split
  . next hlt => rw [leafOf_congr hh (hr.others _ (isLeafId_add hlt) (by omega))]
  . rfl

end

def createdCounter (P : Outside W D R) (owner : IsvAttributes) (data : Leaf D) : Counter D :=
  ⟨data.ownerPolicy, data.ownerMaskFlags, data.ownerMaskXfrm,
    P.ownerId owner data.ownerPolicy data.ownerMaskFlags data.ownerMaskXfrm, owner.isvSvn, data.value⟩

def Agrees (P : Outside W D R) (m : Counters D) : Call D → Response D → Counters D → Prop
  | .create owner data, r, m' =>
    ∃ uuid, r.uuid = some uuid ∧ (∀ nonce, m uuid.entryIndex.toNat nonce = none) ∧
      m' = m.put uuid.entryIndex.toNat uuid.nonce (createdCounter P owner data)
  | .read _ uuid _, r, m' =>
    ∃ leaf, r.leaf = some leaf ∧ m uuid.entryIndex.toNat uuid.nonce = some leaf.counter ∧ m' = m
  | .inc _ uuid _, r, m' =>
    ∃ leaf c, r.leaf = some leaf ∧ m uuid.entryIndex.toNat uuid.nonce = some c ∧
      leaf.counter = { c with value := c.value + 1 } ∧
      m' = m.put uuid.entryIndex.toNat uuid.nonce leaf.counter
  | .delete _ uuid, _, m' =>
    ∃ c, m uuid.entryIndex.toNat uuid.nonce = some c ∧ m' = m.free uuid.entryIndex.toNat

/--
An update of the RPDATA that the CSME applies during a call: the one of the operation itself, or one of
those that set the database up anew.
-/
inductive Change (P : Outside W D R) (call : Call D) : Counters D → Counters D → Prop where
  | operation {m m' : Counters D} (r : Response D) (agrees : Agrees P m call r m') : Change P call m m'
  | reset {m : Counters D} (old : R) (w : W) :
    Change P call m (counters P (P.psdaResetRpdata old w).1.2.roothash)
  | clear {m : Counters D} : Change P call m Counters.empty

/--
A call on the counters `m` with the response `r`, by whether it finds the database broken.
-/
structure AgreesOrClears (P : Outside W D R) (broken : Bool) (m : Counters D) (call : Call D) (r : Response D)
    (m' : Counters D) : Prop where
  unbroken : broken = false → m' = m ∨ ∃ r, Agrees P m call r m'
  changes : Relation.ReflTransGen (Change P call) m m'
  success : r.rc = .success →
    (∃ m₀ m₁, (m₀ = m ∨ broken = true ∧ (P.Truthful → m₀ = Counters.empty)) ∧ Agrees P m₀ call r m₁ ∧
      Stored P m₀ m₁ m') ∨
    match call with
    | .delete _ _ => broken = true ∧ (P.Truthful → m' = Counters.empty)
    | _ => False

section

variable {root root' : R}

theorem holds_of_used {a : Leaf D} (hused : a.isUsed ≠ 0) (nonce : Nonce) :
    a.holds nonce = if nonce = a.nonce then some a.counter else none := by
  unfold Leaf.holds
  by_cases hn : nonce = a.nonce
  . rw [if_pos hn, if_pos ⟨hused, hn.symm⟩]
  . rw [if_neg hn, if_neg fun h => hn h.2.symm]

theorem holds_of_unused {a : Leaf D} (hused : a.isUsed = 0) (nonce : Nonce) : a.holds nonce = none :=
  if_neg fun h => h.1 hused

def createdLeaf (P : Outside W D R) (owner : IsvAttributes) (data : Leaf D) (nonce : Nonce) : Leaf D :=
  { data with
    ownerId := P.ownerId owner data.ownerPolicy data.ownerMaskFlags data.ownerMaskXfrm
    ownerSvn := owner.isvSvn, nonce := nonce }

variable {leaf : Leaf D} {owner : IsvAttributes} {uuid : Uuid} {flag : Option OpLeafnodeFlag}
  (hh : CollisionFree P.hashes) (hi : uuid.entryIndex.toNat < initLeafNodeIdBase)
include hh hi

theorem Effect.agrees_read {rpdb : Leaf D}
    (he : Effect P .read uuid.nonce rpdb flag (uuid.entryIndex.toNat + initLeafNodeIdBase) root root'
      leaf) (rc : OpError) (u : Option Uuid) :
    Agrees P (counters P root) (.read owner uuid rpdb) ⟨rc, u, some leaf⟩ (counters P root') := by
  obtain ⟨old, hold, ⟨hused, hnonce⟩, rfl, rfl⟩ := he
  refine ⟨leaf, rfl, ?_, rfl⟩
  rw [counters_eq hh hi hold, holds_of_used hused, if_pos hnonce.symm]

theorem Effect.agrees_inc {rpdb : Leaf D}
    (he : Effect P .increment uuid.nonce rpdb flag (uuid.entryIndex.toNat + initLeafNodeIdBase) root root'
      leaf) (rc : OpError) (u : Option Uuid) :
    Agrees P (counters P root) (.inc owner uuid rpdb) ⟨rc, u, some leaf⟩ (counters P root') := by
  obtain ⟨old, hold, ⟨hused, hnonce⟩, rfl, hr⟩ := he
  refine ⟨_, old.counter, rfl, ?_, rfl, ?_⟩
  . rw [counters_eq hh hi hold, holds_of_used hused, if_pos hnonce.symm]
  rw [hr.counters hh hi, ← hnonce]
  funext j n
  unfold Counters.put
  split
  . exact holds_of_used (a := { old with value := old.value + 1 }) hused n
  . rfl

theorem Effect.agrees_delete {signer : BitVec 256}
    (he : Effect P .delete uuid.nonce P.zeroLeaf (some ⟨.clrLeafnodeFlag, signer⟩)
      (uuid.entryIndex.toNat + initLeafNodeIdBase) root root' leaf) (r : Response D) :
    Agrees P (counters P root) (.delete owner uuid) r (counters P root') := by
  obtain ⟨old, hold, ⟨hused, hnonce⟩, hr⟩ := he
  refine ⟨old.counter, ?_, ?_⟩
  . rw [counters_eq hh hi hold, holds_of_used hused, if_pos hnonce.symm]
  rw [hr.counters hh hi]
  funext j n
  unfold Counters.free
  split
  . exact holds_of_unused rfl n
  . rfl

theorem Effect.agrees_create {data : Leaf D} {signer : BitVec 256}
    (he : Effect P .create uuid.nonce { createdLeaf P owner data uuid.nonce with isUsed := 1 }
      (some ⟨.setLeafnodeFlag, signer⟩) (uuid.entryIndex.toNat + initLeafNodeIdBase) root root' leaf)
    (rc : OpError) (l : Option (Leaf D)) :
    Agrees P (counters P root) (.create owner data) ⟨rc, some uuid, l⟩ (counters P root') := by
  obtain ⟨old, hold, hunused, hr⟩ := he
  refine ⟨uuid, rfl, fun n => ?_, ?_⟩
  . rw [counters_eq hh hi hold, holds_of_unused hunused]
  rw [hr.counters hh hi]
  funext j n
  unfold Counters.put
  split
  . exact holds_of_used (by decide : (1 : UInt8) ≠ 0) n
  . rfl

end

section

variable {call : Call D} {r : Response D} {m m' m₀ : Counters D}

structure Round (P : Outside W D R) (m : Counters D) (call : Call D) (r : Response D) (m' : Counters D) : Prop where
  held : m' = m ∨ ∃ r, Agrees P m call r m'
  success : r.rc = .success → ∃ m₁, Agrees P m call r m₁ ∧ Stored P m m₁ m'

theorem Round.of_error (hrc : r.rc ≠ .success) : Round P m call r m := ⟨.inl rfl, fun h => absurd h hrc⟩

theorem Round.changes (h : Round P m call r m') : Relation.ReflTransGen (Change P call) m m' := by
  obtain rfl | ⟨r, h⟩ := h.held
  . exact .refl
  . exact .single (.operation r h)

theorem Operated.round {op : RpdbOp} {nonce : Nonce} {rpdb leaf : Leaf D} {flag : Option OpLeafnodeFlag}
    {leafId : Nat} {root held : R} {rc : OpError} (h : Operated P op nonce rpdb flag leafId root held rc leaf)
    (hr : r.rc = rc)
    (hagrees : ∀ root' leaf', Effect P op nonce rpdb flag leafId root root' leaf' →
      ∃ r', Agrees P (counters P root) call r' (counters P root') ∧ (leaf' = leaf → r' = r)) :
    Round P (counters P root) call r (counters P held) := by
  refine ⟨?_, fun hrc => ?_⟩
  . obtain rfl | ⟨leaf', heff⟩ := h.1
    . exact .inl rfl
    . obtain ⟨r', hr', -⟩ := hagrees _ _ heff
      exact .inr ⟨r', hr'⟩
  . obtain ⟨root', heff, hstored⟩ := h.2 (hr.symm.trans hrc)
    obtain ⟨r', hr', heq⟩ := hagrees _ _ heff
    rw [heq rfl] at hr'
    exact ⟨_, hr', hstored.map (counters P)⟩

theorem Initialised.changes (hh : CollisionFree P.hashes) {anew : Bool} {root root' : R} {rc : OpError}
    (h : Initialised P anew root root' rc) (call : Call D) :
    Relation.ReflTransGen (Change P call) (counters P root) (counters P root') := by
  refine h.rewrites.lift (counters P) fun root root' h => ?_
  unfold Function.onFun
  cases h with
  | reset old w => exact .reset old w
  | clear hempty =>
    rw [counters_empty hh hempty]
    exact .clear

theorem AgreesOrClears.of_round {broken : Bool} (hchain : Relation.ReflTransGen (Change P call) m m₀)
    (hbase : m₀ = m ∨ broken = true ∧ (P.Truthful → m₀ = Counters.empty)) (h : Round P m₀ call r m') :
    AgreesOrClears P broken m call r m' where
  unbroken hno := by
    obtain rfl | ⟨hbroken, -⟩ := hbase
    . exact h.held
    . rw [hno] at hbroken
      cases hbroken
  changes := hchain.trans h.changes
  success hrc := by
    obtain ⟨m₁, hagrees, hstored⟩ := h.success hrc
    exact .inl ⟨m₀, m₁, hbase, hagrees, hstored⟩

theorem AgreesOrClears.of_broken (hchain : Relation.ReflTransGen (Change P call) m m') (hrc : r.rc ≠ .success) :
    AgreesOrClears P true m call r m' :=
  ⟨fun h => (by cases h), hchain, fun h => absurd h hrc⟩

/--
A service that cannot be brought up: the call returns its error.
-/
theorem Initialised.fails (hh : CollisionFree P.hashes) {anew : Bool} {root root' : R} {rc : OpError}
    (h : Initialised P anew root root' rc) (hrc : r.rc ≠ .success) :
    AgreesOrClears P (anew || false) (counters P root) call r (counters P root') := by
  rw [Bool.or_false]
  cases anew with
  | false =>
    rw [h.same rfl]
    exact .of_round .refl (.inl rfl) (.of_error hrc)
  | true => exact .of_broken (h.changes hh call) hrc

theorem Initialised.base (hh : CollisionFree P.hashes) {anew : Bool} {root root' : R}
    (h : Initialised P anew root root' .success) (broken : Bool) :
    counters P root' = counters P root ∨
      (anew || broken) = true ∧ (P.Truthful → counters P root' = Counters.empty) := by
  cases anew with
  | false => exact .inl (congrArg _ (h.same rfl))
  | true => exact .inr ⟨rfl, fun ht => counters_empty hh (h.empty rfl rfl ht)⟩

end

section

variable [DecidableEq D] [DecidableEq R]

def operationFindsBroken (P : Outside W D R) : Call D → State W D R → Bool
  | .create owner data, s =>
    match calculateOwnerId P owner data.ownerPolicy data.ownerMaskFlags data.ownerMaskXfrm s.world with
    | (none, _) => false
    | (some id, w) =>
      match P.readRand w with
      | (none, _) => false
      | (some nonce, w) =>
        isBroken (createLoop P owner { data with ownerId := id, ownerSvn := owner.isvSvn, nonce := nonce } 0
          { s with world := w }).1.1
  | .read owner uuid rpdb, s => isBroken (operateVmc P owner uuid rpdb .read none s).1.1
  | .inc owner uuid rpdb, s => isBroken (operateVmc P owner uuid rpdb .increment none s).1.1
  | .delete owner uuid, s =>
    isBroken (operateVmc P owner uuid P.zeroLeaf .delete (some ⟨.clrLeafnodeFlag, 0⟩) s).1.1

/--
The call meets `OP_ERROR_INVALID_VMC_DB` or `OP_ERROR_DATABASE_FATAL`.
-/
def findsBroken (P : Outside W D R) (call : Call D) (s : State W D R) : Bool :=
  serviceFindsBroken P s || match ensureService P s with
    | (.success, s) => operationFindsBroken P call s
    | _ => false

def Described (P : Outside W D R) (call : Call D) (s : State W D R) : Prop :=
  (step P call s).2.tree.Sound P.hashes ∧
    AgreesOrClears P (findsBroken P call s) (counters P s.rpdata.roothash) call (step P call s).1
      (counters P (step P call s).2.rpdata.roothash)

theorem not_success_of_isBroken {rc : OpError} (h : isBroken rc = true) : rc ≠ .success := by
  rintro rfl
  cases h

section

variable (hh : CollisionFree P.hashes) {s : State W D R}
include hh

/--
The operation of a call that answers a broken database by setting it up anew.
-/
theorem operateVmc_round (call : Call D) (op : RpdbOp) (owner : IsvAttributes) (uuid : Uuid) (rpdb : Leaf D)
    (flag : Option OpLeafnodeFlag) (resp : OpError → Leaf D → Response D) (hresp : ∀ rc leaf, (resp rc leaf).rc = rc)
    (hagrees : ∀ {root root' : R} {leaf : Leaf D}, uuid.entryIndex.toNat < initLeafNodeIdBase →
      Effect P op uuid.nonce rpdb flag (uuid.entryIndex.toNat + initLeafNodeIdBase) root root' leaf →
      ∀ rc, Agrees P (counters P root) call (resp rc leaf) (counters P root'))
    (hs : s.tree.Sound P.hashes) :
    let res := operateVmc P owner uuid rpdb op flag s
    res.2.tree.Sound P.hashes ∧
      Round P (counters P s.rpdata.roothash) call (resp res.1.1 res.1.2) (counters P res.2.rpdata.roothash) := by
  obtain ⟨hs1, hindex, hop⟩ := operateVmc_spec hh owner uuid rpdb op flag hs
  generalize operateVmc P owner uuid rpdb op flag s = res at hs1 hindex hop ⊢
  obtain ⟨⟨rc, leaf⟩, s1⟩ := res
  refine ⟨hs1, ?_⟩
  obtain hi | ⟨hsame, hrc⟩ := hindex
  . refine hop.round (hresp rc leaf) fun root' leaf' heff => ?_
    exact ⟨_, hagrees hi heff rc, fun h => by rw [h]⟩
  . rw [show s1.rpdata = s.rpdata from hsame]
    apply Round.of_error
    rw [hresp]
    exact hrc

omit [DecidableEq D] in
theorem reinit_changes (call : Call D) (s : State W D R) :
    let res := initializeSqliteDatabaseFile P true s
    res.2.tree.Sound P.hashes ∧
      Relation.ReflTransGen (Change P call) (counters P s.rpdata.roothash) (counters P res.2.rpdata.roothash) ∧
      (res.1 = .success → P.Truthful → counters P res.2.rpdata.roothash = Counters.empty) := by
  obtain ⟨htree, hinit⟩ := initializeSqliteDatabaseFile_spec (P := P) true s
  refine ⟨?_, hinit.changes hh call, fun hrc ht => counters_empty hh (hinit.empty rfl hrc ht)⟩
  rw [htree]
  exact sound_flush

theorem accessVmc_spec {op : RpdbOp} {owner : IsvAttributes} {uuid : Uuid} {rpdb : Leaf D} {call : Call D}
    (hagrees : ∀ {root root' : R} {leaf : Leaf D}, uuid.entryIndex.toNat < initLeafNodeIdBase →
      Effect P op uuid.nonce rpdb none (uuid.entryIndex.toNat + initLeafNodeIdBase) root root' leaf →
      ∀ rc, Agrees P (counters P root) call ⟨rc, none, some leaf⟩ (counters P root'))
    (hcall : ∀ s, operationFindsBroken P call s = isBroken (operateVmc P owner uuid rpdb op none s).1.1)
    (hs : s.tree.Sound P.hashes) :
    let res := accessVmc P op owner uuid rpdb s
    res.2.tree.Sound P.hashes ∧ AgreesOrClears P (findsBroken P call s) (counters P s.rpdata.roothash) call
      ⟨res.1.1, none, some res.1.2⟩ (counters P res.2.rpdata.roothash) := by
  obtain ⟨hs1, hinit⟩ := ensureService_spec hs
  unfold accessVmc findsBroken
  generalize serviceFindsBroken P s = anew at hinit ⊢
  generalize ensureService P s = res at hs1 hinit ⊢
  obtain ⟨rc, s1⟩ := res
  by_cases hrc : rc = .success
  . subst hrc
    dsimp only at hs1 hinit ⊢
    rw [hcall]
    obtain ⟨hs2, hround⟩ := operateVmc_round hh call op owner uuid rpdb none (fun rc leaf => ⟨rc, none, some leaf⟩)
      (fun _ _ => rfl) hagrees hs1
    generalize operateVmc P owner uuid rpdb op none s1 = res at hs2 hround ⊢
    obtain ⟨⟨rc, leaf⟩, s2⟩ := res
    dsimp only
    split
    . next hbroken =>
      obtain ⟨hs3, hreinit, -⟩ := reinit_changes hh call s2
      have hchain := ((hinit.changes hh call).trans hround.changes).trans hreinit
      rw [hbroken, Bool.or_true]
      generalize initializeSqliteDatabaseFile P true s2 = res at hs3 hchain ⊢
      obtain ⟨rc, s3⟩ := res
      cases rc <;> exact ⟨hs3, .of_broken hchain fun h => by cases h⟩
    . exact ⟨hs2, .of_round (hinit.changes hh call) (hinit.base hh _) hround⟩
  . cases rc <;> first | exact absurd rfl hrc | exact ⟨hs1, hinit.fails hh hrc⟩

theorem deleteVmc_spec (owner : IsvAttributes) (uuid : Uuid) (hs : s.tree.Sound P.hashes) :
    Described P (.delete owner uuid) s := by
  obtain ⟨hs1, hinit⟩ := ensureService_spec hs
  unfold Described step deleteVmc findsBroken
  dsimp only
  generalize serviceFindsBroken P s = anew at hinit ⊢
  generalize ensureService P s = res at hs1 hinit ⊢
  obtain ⟨rc, s1⟩ := res
  by_cases hrc : rc = .success
  . subst hrc
    dsimp only [operationFindsBroken] at hs1 hinit ⊢
    have hbase := hinit.base hh
    split
    . exact ⟨hs1, .of_round (hinit.changes hh _) (hbase _) (.of_error fun h => by cases h)⟩
    obtain ⟨hs2, hround⟩ := operateVmc_round hh (.delete owner uuid) .delete owner uuid P.zeroLeaf
      (some ⟨.clrLeafnodeFlag, 0⟩) (fun rc _ => ⟨rc, none, none⟩) (fun _ _ => rfl)
      (fun hi heff rc => heff.agrees_delete hh hi _) hs1
    generalize operateVmc P owner uuid P.zeroLeaf .delete (some ⟨.clrLeafnodeFlag, 0⟩) s1 = res at hs2 hround ⊢
    obtain ⟨⟨rc, leaf⟩, s2⟩ := res
    dsimp only
    split
    . next hbroken =>
      obtain ⟨hs3, hreinit, hempty⟩ := reinit_changes hh (.delete owner uuid) s2
      rw [hbroken, Bool.or_true]
      refine ⟨hs3, fun h => (by cases h), ?_, fun hrc => .inr ⟨rfl, hempty hrc⟩⟩
      exact ((hinit.changes hh _).trans hround.changes).trans hreinit
    . exact ⟨hs2, .of_round (hinit.changes hh _) (hbase _) hround⟩
  . cases rc <;> first | exact absurd rfl hrc | exact ⟨hs1, hinit.fails hh hrc⟩

omit hh in
theorem createAt_eq (owner : IsvAttributes) (data : Leaf D) (uuid fallback : Uuid) (s : State W D R)
    (again : OpError → State W D R → (OpError × Uuid) × State W D R) :
    let res := createAt P owner data uuid s fun rc s => ((rc, fallback), s)
    createAt P owner data uuid s again = if isBroken res.1.1 then again res.1.1 res.2 else res := by
  unfold createAt
  generalize operateVmc P owner uuid _ .create _ s = res
  obtain ⟨⟨rc, leaf⟩, s1⟩ := res
  cases h : isBroken rc <;> simp only [h, if_true, Bool.false_eq_true, if_false]

omit hh in
theorem createRound_eq (owner : IsvAttributes) (data : Leaf D) (s : State W D R)
    (again : OpError → State W D R → (OpError × Uuid) × State W D R) :
    let res := createLoop P owner data 0 s
    createRound P owner data s again = if isBroken res.1.1 then again res.1.1 res.2 else res := by
  unfold createLoop createRound
  generalize P.sqliteGetEmptyLeafnode owner.mrSigner s.world = answer
  obtain ⟨_ | ⟨rc, leafNodeId⟩, w⟩ := answer
  . rfl
  dsimp only
  by_cases hrc : rc = .success
  . simp only [if_pos hrc]
    by_cases hrange : leafNodeId < initLeafNodeIdBase ∨ leafNodeId > initMaxLeafNodeId
    . simp only [if_pos hrange]
      rfl
    . simp only [if_neg hrange]
      exact createAt_eq owner data _ _ _ again
  . simp only [if_neg hrc]
    cases h : isBroken rc <;> simp only [h, if_true, Bool.false_eq_true, if_false]

theorem createAt_round (owner : IsvAttributes) (data : Leaf D) {nonce : Nonce} (uuid fallback : Uuid)
    (hnonce : uuid.nonce = nonce) (hs : s.tree.Sound P.hashes) :
    let res := createAt P owner (createdLeaf P owner data nonce) uuid s fun rc s => ((rc, fallback), s)
    res.2.tree.Sound P.hashes ∧ Round P (counters P s.rpdata.roothash) (.create owner data)
      ⟨res.1.1, some res.1.2, none⟩ (counters P res.2.rpdata.roothash) := by
  subst hnonce
  obtain ⟨hs1, hround⟩ := operateVmc_round hh (.create owner data) .create owner uuid
    { createdLeaf P owner data uuid.nonce with isUsed := 1 } (some ⟨.setLeafnodeFlag, owner.mrSigner⟩)
    (fun rc _ => ⟨rc, some uuid, none⟩) (fun _ _ => rfl)
    (fun hi heff rc => heff.agrees_create hh hi rc none) hs
  unfold createAt
  generalize operateVmc P owner uuid _ .create _ s = res at hs1 hround ⊢
  obtain ⟨⟨rc, leaf⟩, s1⟩ := res
  dsimp only at hs1 hround ⊢
  split
  . next hbroken => exact ⟨hs1, hround.held, fun h => absurd h (not_success_of_isBroken hbroken)⟩
  . exact ⟨hs1, hround⟩

theorem createLoop_round (owner : IsvAttributes) (data : Leaf D) (nonce : Nonce)
    (hs : s.tree.Sound P.hashes) :
    let res := createLoop P owner (createdLeaf P owner data nonce) 0 s
    res.2.tree.Sound P.hashes ∧ Round P (counters P s.rpdata.roothash) (.create owner data)
      ⟨res.1.1, some res.1.2, none⟩ (counters P res.2.rpdata.roothash) := by
  unfold createLoop createRound
  generalize P.sqliteGetEmptyLeafnode owner.mrSigner s.world = answer
  obtain ⟨_ | ⟨rc, leafNodeId⟩, w⟩ := answer
  . exact ⟨hs, .of_error fun h => by cases h⟩
  dsimp only
  by_cases hrc : rc = .success
  . simp only [if_pos hrc]
    by_cases hrange : leafNodeId < initLeafNodeIdBase ∨ leafNodeId > initMaxLeafNodeId
    . simp only [if_pos hrange]
      exact ⟨hs, .of_error fun h => by cases h⟩
    . simp only [if_neg hrange]
      generalize BitVec.ofNat 24 (leafNodeId.toNat - initLeafNodeIdBase) = entryIndex
      exact createAt_round hh owner data ⟨entryIndex, nonce⟩ ⟨0, nonce⟩ rfl (s := { s with world := w }) hs
  . simp only [if_neg hrc]
    cases isBroken rc <;> exact ⟨hs, .of_error hrc⟩

theorem createLoop_spec (owner : IsvAttributes) (data : Leaf D) (nonce : Nonce)
    (hs : s.tree.Sound P.hashes) {m : Counters D} {anew : Bool}
    (hchain : Relation.ReflTransGen (Change P (.create owner data)) m (counters P s.rpdata.roothash))
    (hbase : ∀ broken, counters P s.rpdata.roothash = m ∨
      (anew || broken) = true ∧ (P.Truthful → counters P s.rpdata.roothash = Counters.empty)) :
    let res := createLoop P owner (createdLeaf P owner data nonce) 1 s
    res.2.tree.Sound P.hashes ∧
      AgreesOrClears P (anew || isBroken (createLoop P owner (createdLeaf P owner data nonce) 0 s).1.1) m
        (.create owner data) ⟨res.1.1, some res.1.2, none⟩ (counters P res.2.rpdata.roothash) := by
  obtain ⟨hs1, hround⟩ := createLoop_round hh owner data nonce hs
  have heq : createLoop P owner (createdLeaf P owner data nonce) 1 s = _ := createRound_eq owner _ s _
  intro res
  rw [show res = _ from heq]
  clear res heq
  generalize createLoop P owner (createdLeaf P owner data nonce) 0 s = res at hs1 hround ⊢
  obtain ⟨⟨rc, uuid⟩, s1⟩ := res
  dsimp only at hs1 hround ⊢
  cases hbroken : isBroken rc with
  | false =>
    rw [if_neg (by decide)]
    exact ⟨hs1, .of_round hchain (hbase _) hround⟩
  | true =>
    rw [if_pos rfl, Bool.or_true]
    obtain ⟨hs2, hreinit, hempty⟩ := reinit_changes hh (.create owner data) s1
    have hchain' := (hchain.trans hround.changes).trans hreinit
    generalize initializeSqliteDatabaseFile P true s1 = res at hs2 hchain' hempty ⊢
    obtain ⟨rc, s2⟩ := res
    by_cases hrc : rc = .success
    . subst hrc
      obtain ⟨hs3, hround'⟩ := createLoop_round hh owner data nonce hs2
      exact ⟨hs3, .of_round hchain' (.inr ⟨rfl, hempty rfl⟩) hround'⟩
    . cases rc <;> first | exact absurd rfl hrc | exact ⟨hs2, .of_broken hchain' hrc⟩

theorem createVmc_spec (owner : IsvAttributes) (data : Leaf D) (hs : s.tree.Sound P.hashes) :
    Described P (.create owner data) s := by
  obtain ⟨hs1, hinit⟩ := ensureService_spec hs
  unfold Described step createVmc findsBroken
  dsimp only
  generalize serviceFindsBroken P s = anew at hinit ⊢
  generalize ensureService P s = res at hs1 hinit ⊢
  obtain ⟨rc, s1⟩ := res
  by_cases hrc : rc = .success
  . subst hrc
    dsimp only [operationFindsBroken] at hs1 hinit ⊢
    have hchain := hinit.changes hh (.create owner data)
    have hbase := hinit.base hh
    unfold calculateOwnerId
    generalize P.sha256 s1.world = answer
    obtain ⟨_ | _, w⟩ := answer
    . exact ⟨hs1, .of_round hchain (hbase _) (.of_error fun h => by cases h)⟩
    dsimp only
    generalize P.readRand w = answer
    obtain ⟨_ | nonce, w2⟩ := answer
    . exact ⟨hs1, .of_round hchain (hbase _) (.of_error fun h => by cases h)⟩
    dsimp only
    obtain ⟨hs2, hloop⟩ := createLoop_spec hh owner data nonce (s := { s1 with world := w2 }) hs1 hchain hbase
    rw [← createdLeaf]
    generalize createLoop P owner (createdLeaf P owner data nonce) 1 _ = res at hs2 hloop ⊢
    obtain ⟨⟨rc, uuid⟩, s2⟩ := res
    cases rc <;> first
      | exact ⟨hs2, hloop⟩
      | exact ⟨hs2, hloop.unbroken, hloop.changes, fun h => by cases h⟩
  . cases rc <;> first | exact absurd rfl hrc | exact ⟨hs1, hinit.fails hh hrc⟩

theorem step_described (call : Call D) (hs : s.tree.Sound P.hashes) : Described P call s := by
  cases call with
  | create owner data => exact createVmc_spec hh owner data hs
  | read owner uuid rpdb => exact accessVmc_spec hh (fun hi heff rc => heff.agrees_read hh hi rc none) (fun _ => rfl) hs
  | inc owner uuid rpdb => exact accessVmc_spec hh (fun hi heff rc => heff.agrees_inc hh hi rc none) (fun _ => rfl) hs
  | delete owner uuid => exact deleteVmc_spec hh owner uuid hs

theorem sound_of_run (calls : List (Call D))
    (hs : s.tree.Sound P.hashes) : (run P calls s).tree.Sound P.hashes := by
  induction calls generalizing s with
  | nil => exact hs
  | cons call calls ih => exact ih (step_described hh call hs).1

end

/--
For every sequence of calls, whatever the database, the CSME and the runtime answer: a call agrees with the
counters that the RPDATA in the CSME stands for before and after it, up to a new initialisation of a database
that is found broken. An update that the CSME reports and does not make leaves the counters as they are.
-/
theorem run_agrees (hh : CollisionFree P.hashes) (world : W) (rpdata : Rpdata R) (calls : List (Call D))
    (call : Call D) :
    let s := run P calls (.loaded P world rpdata)
    AgreesOrClears P (findsBroken P call s) (counters P s.rpdata.roothash) call (step P call s).1
      (counters P (step P call s).2.rpdata.roothash) :=
  (step_described hh call (sound_of_run hh calls sound_flush)).2

/--
After every sequence of calls, a node in the cache is the only one that the cached root stands for at its place.
-/
theorem run_cache_authentic (hh : CollisionFree P.hashes) (world : W) (rpdata : Rpdata R) (calls : List (Call D)) :
    let t := (run P calls (.loaded P world rpdata)).tree
    (∀ i c, t.internals i = some c → ∃ r ∈ t.root, ∀ d, NodeAt P.hashes r.node i d ↔ d = c.node) ∧
      ∀ i c, t.leaves i = some c → ∃ r ∈ t.root, ∀ a, LeafAt P.hashes r.node i a ↔ a = c.node := by
  obtain ⟨hinternals, hleaves⟩ := sound_of_run hh calls (s := .loaded P world rpdata) sound_flush
  constructor
  . intro i c hc
    obtain ⟨-, r, hr, h⟩ := hinternals i c hc
    exact ⟨r, hr, fun d => ⟨fun h' => h'.unique hh h, fun h' => h' ▸ h⟩⟩
  . intro i c hc
    obtain ⟨-, r, hr, h⟩ := hleaves i c hc
    exact ⟨r, hr, fun a => ⟨fun h' => h'.unique hh h, fun h' => h' ▸ h⟩⟩

end

namespace Toy

theorem emptyRoot : EmptyRoot (honest suite) emptyRpdata.roothash :=
  ⟨(suite.pairingNonce, 3), by decide +kernel⟩

theorem create_fresh : (step (honest suite) (.create owner request) fresh).1.rc = .success ∧
      (step (honest suite) (.create owner request) fresh).1.uuid = some counterA := by decide +kernel

theorem truthful_honest : (honest suite).Truthful := by
  intro old new w
  simp only [honest]
  split
  . exact fun _ => rfl
  . next e _ => cases e <;> exact fun h => by cases h

theorem counters_refused : counters (honest suite)
        (run (honest suite) [.create owner request, .inc owner counterA request] fresh).rpdata.roothash =
      Counters.empty.put 0 77 (createdCounter (honest suite) owner request) := by
  have hsame : (run (honest suite) [.create owner request, .inc owner counterA request] fresh).rpdata.roothash =
      (step (honest suite) (.create owner request) fresh).2.rpdata.roothash := by decide +kernel
  rw [hsame]
  have hstep := (step_described (P := honest suite) collisionFree (.create owner request) (s := fresh) sound_flush).2
  have hempty : counters (honest suite) fresh.rpdata.roothash = Counters.empty :=
    counters_empty collisionFree emptyRoot
  rw [hempty] at hstep
  obtain ⟨m₀, m₁, hbase, ⟨uuid, huuid, -, hm⟩, hstored⟩ := (hstep.success create_fresh.1).resolve_right id
  obtain rfl : m₀ = Counters.empty := hbase.elim id fun h => h.2 truthful_honest
  rw [create_fresh.2] at huuid
  cases huuid
  rw [hstored.resolve_right fun h => h.1 truthful_honest, hm]
  rfl

def dropping : Outside (Disk Nat Nat) Nat Nat :=
  { honest suite with psdaUpdateRpdata := fun _ _ w => (⟨.success, false⟩, w) }

end Toy

theorem run_agrees_inc :
    let s := run (honest suite) [.create owner request, .inc owner counterA request]
      (.loaded (honest suite) disk emptyRpdata)
    let call := .inc owner counterA request
    (step (honest suite) call s).1.rc = .success ∧ findsBroken (honest suite) call s = false ∧
      AgreesOrClears (honest suite) (findsBroken (honest suite) call s)
        (counters (honest suite) s.rpdata.roothash) call (step (honest suite) call s).1
        (counters (honest suite) (step (honest suite) call s).2.rpdata.roothash) := by
  refine ⟨by decide +kernel, by decide +kernel, ?_⟩
  apply run_agrees (P := honest suite) collisionFree

theorem run_cache_authentic_create :
    let t := (run (honest suite) [.create owner request] (.loaded (honest suite) disk emptyRpdata)).tree
    (t.leaves initLeafNodeIdBase).isSome ∧ ∀ c, t.leaves initLeafNodeIdBase = some c →
      ∃ r ∈ t.root, ∀ a, LeafAt (honest suite).hashes r.node initLeafNodeIdBase a ↔ a = c.node :=
  ⟨by decide +kernel, (run_cache_authentic (P := honest suite) collisionFree disk emptyRpdata _).2 _⟩

/--
A deletion clears the counter of another entry, and a creation succeeds on a CSME that reports the update and
does not make it.
-/
theorem delete_clears_other_counter :
    (let s := run (honest suite) [.create owner request, .inc owner counterA request]
        fresh
      let call := .delete owner counterB
      (step (honest suite) call s).1.rc = .success ∧
        counters (honest suite) s.rpdata.roothash 0 77 =
          some (createdCounter (honest suite) owner request) ∧
        counters (honest suite) (step (honest suite) call s).2.rpdata.roothash 0 77 = none) ∧
    let s := State.loaded dropping disk emptyRpdata
    let call := .create owner request
    (step dropping call s).1.rc = .success ∧
      ¬ Agrees dropping (counters dropping s.rpdata.roothash) call (step dropping call s).1
        (counters dropping (step dropping call s).2.rpdata.roothash) := by
  constructor
  . have hrc : (step (honest suite) (.delete owner counterB)
        (run (honest suite) [.create owner request, .inc owner counterA request]
          fresh)).1.rc = .success := by
      decide +kernel
    have hstep := (step_described (P := honest suite) collisionFree (.delete owner counterB)
      (sound_of_run (P := honest suite) collisionFree
        [.create owner request, .inc owner counterA request] (s := fresh)
        sound_flush)).2
    rw [counters_refused] at hstep
    refine ⟨hrc, ?_, ?_⟩
    . rw [counters_refused]
      exact Counters.put_self _ _ _ _
    obtain ⟨m₀, -, hbase, ⟨c, hc, -⟩, -⟩ | ⟨-, hempty⟩ := hstep.success hrc
    . obtain rfl | ⟨-, hbase⟩ := hbase
      . rw [Counters.put_of_ne _ _ _ _ (by decide)] at hc
        cases hc
      . rw [hbase truthful_honest] at hc
        cases hc
    . rw [hempty truthful_honest]
      rfl
  . have hrc : (step dropping (.create owner request) (.loaded dropping disk emptyRpdata)).1.rc = .success
        ∧ (step dropping (.create owner request) (.loaded dropping disk emptyRpdata)).2.rpdata.roothash
          = (State.loaded dropping disk emptyRpdata).rpdata.roothash := by
      decide +kernel
    refine ⟨hrc.1, ?_⟩
    rintro ⟨uuid, -, hnone, hm⟩
    rw [hrc.2] at hm
    have hput := congrFun (congrFun hm uuid.entryIndex.toNat) uuid.nonce
    rw [Counters.put_self, hnone] at hput
    cases hput

end Vmc
