import SrasMage.Vmc.SoundCache

/-!
This module contains the effect of the operations on the RPDATA and on the tree it stands for, whatever the
database answers.
-/

namespace Vmc

open Merkle TreeCache

variable {W D R : Type} {P : Outside W D R}

theorem readRpdata_cases (P : Outside W D R) (s : State W D R) : ∃ w, readRpdata P s =
        (.success, { s with world := w, cachedRpdata := s.rpdata, rpdataCacheInitialized := true }) ∨
      ∃ rc, rc ≠ .success ∧ readRpdata P s = (rc, { s with world := w }) := by
  unfold readRpdata
  generalize P.psdaReadRpdata s.world = answer
  obtain ⟨rc, w⟩ := answer
  refine ⟨w, ?_⟩
  dsimp only
  split
  . split
    . exact .inr ⟨.internal, by decide, rfl⟩
    . exact .inl rfl
  . next hrc => exact .inr ⟨rc, hrc, rfl⟩

def Outside.Truthful (P : Outside W D R) : Prop := ∀ old new w,
  (P.psdaUpdateRpdata old new w).1.report = .success → (P.psdaUpdateRpdata old new w).1.applied = true

theorem updateRpdata_cases (P : Outside W D R) (s : State W D R) (rpdataNew : R) : ∃ w rpdata,
      (rpdata = s.rpdata ∨ rpdata = { s.rpdata with roothash := rpdataNew }) ∧
      ((updateRpdata P s rpdataNew = (.success, { s with
          world := w, rpdata := rpdata
          cachedRpdata := ⟨rpdataNew, s.rpdata.epoch⟩, rpdataCacheInitialized := true }) ∧
        (P.Truthful → rpdata = { s.rpdata with roothash := rpdataNew })) ∨
      ∃ rc, rc ≠ .success ∧ updateRpdata P s rpdataNew = (rc, { s with world := w, rpdata := rpdata })) := by
  have htruthful := fun h : P.Truthful => h s.cachedRpdata.roothash rpdataNew s.world
  unfold updateRpdata
  generalize P.psdaUpdateRpdata s.cachedRpdata.roothash rpdataNew s.world = answer at htruthful ⊢
  obtain ⟨⟨report, applied⟩, w⟩ := answer
  dsimp only at htruthful ⊢
  generalize hrpdata : (if applied = true then _ else s.rpdata) = rpdata
  have hcases : rpdata = s.rpdata ∨ rpdata = { s.rpdata with roothash := rpdataNew } := by
    rw [← hrpdata]
    cases applied
    . exact .inl rfl
    . exact .inr rfl
  have hepoch : rpdata.epoch = s.rpdata.epoch := by
    obtain h | h := hcases <;> rw [h]
  refine ⟨w, rpdata, hcases, ?_⟩
  rw [hepoch]
  split
  . next hreport =>
    split
    . exact .inr ⟨.internal, by decide, rfl⟩
    . exact .inl ⟨rfl, fun h => hrpdata.symm.trans (if_pos (htruthful h hreport))⟩
  . next hreport => exact .inr ⟨_, hreport, rfl⟩

theorem resetRpdata_cases (P : Outside W D R) (s : State W D R) : ∃ w rpdata rpdataNew,
      (rpdata = s.rpdata ∨ ∃ old w, rpdata = (P.psdaResetRpdata old w).1.2) ∧
      (resetRpdata P s = (.success, { s with
          world := w, rpdata := rpdata, cachedRpdata := rpdataNew, rpdataCacheInitialized := true }) ∨
      ∃ rc, rc ≠ .success ∧ resetRpdata P s = (rc, { s with world := w, rpdata := rpdata })) := by
  have hnew : ∃ old w, (P.psdaResetRpdata s.cachedRpdata.roothash s.world).1.2 = (P.psdaResetRpdata old w).1.2 :=
    ⟨_, _, rfl⟩
  unfold resetRpdata
  generalize P.psdaResetRpdata s.cachedRpdata.roothash s.world = answer at hnew ⊢
  obtain ⟨⟨⟨report, applied⟩, rpdataNew⟩, w⟩ := answer
  refine ⟨w, if applied then rpdataNew else s.rpdata, rpdataNew, ?_, ?_⟩
  . cases applied
    . exact .inl rfl
    . exact .inr hnew
  dsimp only
  split
  . exact .inl rfl
  . next hreport => exact .inr ⟨_, hreport, rfl⟩

/--
What is held after an update from `old` to `new` that the CSME has reported as a success.
-/
def Stored (P : Outside W D R) {α : Type} (old new held : α) : Prop :=
  held = new ∨ ¬ P.Truthful ∧ held = old

theorem Stored.map {α β : Type} {old new held : α} (h : Stored P old new held) (f : α → β) :
    Stored P (f old) (f new) (f held) :=
  h.imp (congrArg f) (And.imp_right (congrArg f))

theorem commit_spec (hh : CollisionFree P.hashes) (op : RpdbOp) (flag : Option OpLeafnodeFlag)
    {leafId : Nat} (hid : IsLeafId leafId) {path : Path D R} {root : R} {e : BitVec 128 × UInt32}
    (hopens : path.Opens P.hashes root e leafId) (leaf : Leaf D) {s : State W D R}
    (hs : s.tree.Sound P.hashes) (hroot : s.tree.RootIs root) :
    let res := commit P op flag { path with self := leaf } s
    res.2.tree.Sound P.hashes ∧ (res.2.rpdata.roothash = s.rpdata.roothash ∨
        Replaced P.hashes root res.2.rpdata.roothash leafId (applyFlag leaf (flagOp op flag))) ∧
      (res.1 = .success → ∃ root', Replaced P.hashes root root' leafId (applyFlag leaf (flagOp op flag)) ∧
        Stored P s.rpdata.roothash root' res.2.rpdata.roothash) := by
  have hids : { path with self := leaf }.HasIds leafId :=
    ⟨hopens.hasIds.selfId, hopens.hasIds.brotherId, hopens.hasIds.ids⟩
  obtain ⟨w, hw, hpath⟩ := updateRelatedNodesOfLeaf_spec (P := P) hid hids (flagOp op flag) s
  unfold commit
  generalize updateRelatedNodesOfLeaf P { path with self := leaf } (flagOp op flag) s = res at hw hpath ⊢
  rcases res with ⟨_ | path', s1⟩
  . obtain rfl : s1 = _ := hw
    exact ⟨hs, .inl rfl, fun h => by cases h⟩
  obtain rfl : s1 = _ := hw
  obtain ⟨hopens', hself, hbrother, hbrothers⟩ := hpath path' rfl
  have hr : Rebased P.hashes root path'.root leafId path path' :=
    ⟨⟨_, hopens⟩, ⟨_, hopens'⟩, hbrother, hbrothers⟩
  have hreplaced := hr.replaced hh hid
  rw [show path'.self = applyFlag leaf (flagOp op flag) from hself] at hreplaced
  dsimp only
  split
  . exact ⟨hs, .inl rfl, fun h => by cases h⟩
  . next w1 hwrite =>
    obtain ⟨w2, rpdata, hrpdata, hupdate⟩ := updateRpdata_cases P { s with world := w1 } path'.root
    have hheld : rpdata.roothash = s.rpdata.roothash ∨
        Replaced P.hashes root rpdata.roothash leafId (applyFlag leaf (flagOp op flag)) := by
      obtain rfl | rfl := hrpdata
      . exact .inl rfl
      . exact .inr hreplaced
    obtain ⟨hupdate, htruthful⟩ | ⟨rc, hrc, hupdate⟩ := hupdate
    . rw [hupdate]
      dsimp only
      obtain ⟨t, w3, heq, ht⟩ := sound_updateHashTreeCache (P := P) hh hid op (s := { s with
          world := w2, rpdata := rpdata
          cachedRpdata := ⟨path'.root, s.rpdata.epoch⟩, rpdataCacheInitialized := true }) hs hroot hr
        rfl
      rw [heq]
      refine ⟨ht, hheld, fun _ => ⟨_, hreplaced, ?_⟩⟩
      obtain rfl | rfl := hrpdata
      . by_cases h : P.Truthful
        . exact .inl (congrArg Rpdata.roothash (htruthful h))
        . exact .inr ⟨h, rfl⟩
      . exact .inl rfl
    . rw [hupdate]
      cases rc <;> first | exact absurd rfl hrc | exact ⟨hs, hheld, fun h => by cases h⟩
  . next rc w1 hne hwrite => exact ⟨hs, .inl rfl, fun h => absurd h (by simpa using hne)⟩

theorem checkLeaf_success [DecidableEq D] {owner : IsvAttributes} {nonce : Nonce} {op : RpdbOp} {leaf : Leaf D}
    {w w' : W} (h : checkLeaf P owner nonce op leaf w = (.success, w')) :
    if op = .create then leaf.isUsed = 0 else leaf.isUsed ≠ 0 ∧ leaf.nonce = nonce := by
  unfold checkLeaf at h
  split at h
  . rw [if_pos rfl]
    by_contra hne
    rw [if_pos hne] at h
    cases h
  . rw [if_neg (by decide)]
    split at h
    . cases h
    next hused =>
    split at h
    . cases h
    . next hnonce => exact ⟨hused, (not_not.1 hnonce).symm⟩
  . next hcreate _ =>
    rw [if_neg hcreate]
    split at h
    . cases h
    next hused =>
    split at h
    . cases h
    . next hnonce => exact ⟨hused, (not_not.1 hnonce).symm⟩

section

variable [DecidableEq D] [DecidableEq R]

theorem fetchFromDb_spec {leafId : Nat} (hid : IsLeafId leafId) (s : State W D R) :
    ∃ w, (fetchFromDb P leafId s).2 = { s with world := w } ∧ (fetchFromDb P leafId s).1 ≠ .error .success ∧
      ∀ path, (fetchFromDb P leafId s).1 = .ok path → ∃ e, path.Opens P.hashes s.cachedRpdata.roothash e leafId := by
  unfold fetchFromDb
  split
  . exact ⟨_, rfl, fun h => (by cases h), fun _ h => by cases h⟩
  next rc cache w hread =>
  split
  . next hrc => exact ⟨_, rfl, fun h => hrc (Except.error.inj h), fun _ h => by cases h⟩
  obtain ⟨w', hw⟩ := verifyRelatedNodesOfLeaf_world (P := P) (setRelatedNodesIds leafId cache) { s with world := w }
  dsimp only
  split
  . next n s' hver =>
    rw [hver] at hw
    refine ⟨w', hw, fun h => (by cases h), ?_⟩
    rintro path ⟨⟩
    have hopens := opens_of_verify hid hver
    exact ⟨_, hopens⟩
  . next rc' n s' hno hver =>
    rw [hver] at hw
    refine ⟨w', hw, ?_, fun _ h => by cases h⟩
    rintro ⟨⟩
    exact hno rfl

theorem fetch_spec (hh : CollisionFree P.hashes) (op : RpdbOp) {leafId : Nat} (hid : IsLeafId leafId)
    {s : State W D R} (hs : s.tree.Sound P.hashes) :
    ∃ t w, (fetch P op leafId s.cachedRpdata.roothash s).2 = { s with tree := t, world := w } ∧
      t.Sound P.hashes ∧ t.RootIs s.cachedRpdata.roothash ∧
      (fetch P op leafId s.cachedRpdata.roothash s).1 ≠ .error .success ∧
      ∀ path b, (fetch P op leafId s.cachedRpdata.roothash s).1 = .ok (path, b) →
        ∃ e, path.Opens P.hashes s.cachedRpdata.roothash e leafId := by
  obtain ⟨t, w, hstate, ht, hroot, hread⟩ :=
    readHashTreeCache_spec hh op hid s.cachedRpdata.roothash hs
  unfold fetch
  split
  . next path s' heq =>
    rw [heq] at hstate hread
    refine ⟨t, w, hstate, ht, hroot, fun h => (by cases h), ?_⟩
    rintro path' b ⟨⟩
    exact hread path rfl
  next s' heq =>
  rw [heq] at hstate
  obtain rfl : s' = _ := hstate
  obtain ⟨w', hw, herr, hdb⟩ := fetchFromDb_spec (P := P) hid { s with tree := t, world := w }
  split
  . next path s' heq' =>
    rw [heq'] at hw hdb
    refine ⟨t, w', hw, ht, hroot, fun h => (by cases h), ?_⟩
    rintro path' b ⟨⟩
    exact hdb path rfl
  . next rc s' heq' =>
    rw [heq'] at hw herr
    exact ⟨t, w', hw, ht, hroot, fun h => herr (by cases h; rfl), fun _ _ h => by cases h⟩

def Effect (P : Outside W D R) (op : RpdbOp) (nonce : Nonce) (rpdb : Leaf D)
    (flag : Option OpLeafnodeFlag) (leafId : Nat) (root root' : R) (leaf : Leaf D) : Prop :=
  ∃ old, LeafAt P.hashes root leafId old ∧
    (if op = .create then old.isUsed = 0 else old.isUsed ≠ 0 ∧ old.nonce = nonce) ∧
    match op with
    | .read => leaf = old ∧ root' = root
    | .increment =>
      leaf = { old with value := old.value + 1 } ∧ Replaced P.hashes root root' leafId leaf
    | _ => Replaced P.hashes root root' leafId (applyFlag rpdb (flagOp op flag))

def Operated (P : Outside W D R) (op : RpdbOp) (nonce : Nonce) (rpdb : Leaf D) (flag : Option OpLeafnodeFlag)
    (leafId : Nat) (root held : R) (rc : OpError) (leaf : Leaf D) : Prop :=
  (held = root ∨ ∃ leaf, Effect P op nonce rpdb flag leafId root held leaf) ∧
    (rc = .success → ∃ root', Effect P op nonce rpdb flag leafId root root' leaf ∧ Stored P root root' held)

omit [DecidableEq D] [DecidableEq R] in
theorem Operated.of_error {op : RpdbOp} {nonce : Nonce} {rpdb leaf : Leaf D} {flag : Option OpLeafnodeFlag}
    {leafId : Nat} {root : R} {rc : OpError} (hrc : rc ≠ .success) :
    Operated P op nonce rpdb flag leafId root root rc leaf :=
  ⟨.inl rfl, fun h => absurd h hrc⟩

theorem operateLeaf_spec (hh : CollisionFree P.hashes) (owner : IsvAttributes) (nonce : Nonce)
    (rpdb : Leaf D) (op : RpdbOp) (flag : Option OpLeafnodeFlag) {leafId : Nat} (hid : IsLeafId leafId)
    {s : State W D R} (hs : s.tree.Sound P.hashes) (hcached : s.cachedRpdata = s.rpdata) :
    let res := operateLeaf P owner nonce rpdb op flag leafId s.cachedRpdata.roothash s
    res.2.tree.Sound P.hashes ∧ Operated P op nonce rpdb flag leafId s.rpdata.roothash
      res.2.rpdata.roothash res.1.1 res.1.2 := by
  obtain ⟨t, w, hstate, ht, hroot, herr, hok⟩ := fetch_spec hh op hid hs
  unfold operateLeaf
  generalize fetch P op leafId s.cachedRpdata.roothash s = res at hstate herr hok ⊢
  obtain ⟨rc | ⟨path, b⟩, s1⟩ := res
  . obtain rfl : s1 = _ := hstate
    refine ⟨ht, .of_error ?_⟩
    rintro rfl
    exact herr rfl
  obtain rfl : s1 = _ := hstate
  obtain ⟨e, hopens⟩ := hok path b rfl
  rw [hcached] at hopens hroot
  have hleaf := (hopens.leafAt hid).1
  dsimp only
  split
  . next w1 hcheck =>
    have hold := checkLeaf_success hcheck
    -- the commits differ in the leaf alone
    have hcommit (op : RpdbOp) (leaf : Leaf D) := commit_spec hh op flag hid hopens leaf
      (s := { s with tree := t, world := w1 }) ht hroot
    cases op with
    | read =>
      have hread : Operated P .read nonce rpdb flag leafId s.rpdata.roothash s.rpdata.roothash .success path.self :=
        ⟨.inl rfl, fun _ => ⟨_, ⟨path.self, hleaf, hold, rfl, rfl⟩, .inl rfl⟩⟩
      dsimp only
      split
      . exact ⟨ht, hread⟩
      split
      . exact ⟨ht, .of_error fun h => by cases h⟩
      next root hget =>
      have hroot' : root = s.rpdata.roothash := by
        unfold getCachedRoothash at hget
        split at hget
        . cases hget
          rw [hcached]
        . cases hget
      subst hroot'
      have hr : Rebased P.hashes s.rpdata.roothash s.rpdata.roothash leafId path
          { path with root := s.rpdata.roothash } :=
        ⟨⟨e, hopens⟩, ⟨e, ⟨hopens.hasIds.1, hopens.hasIds.2, hopens.hasIds.3⟩, hopens.climbs, hopens.leaf⟩, rfl, rfl⟩
      obtain ⟨t', w2, heq, ht'⟩ := sound_updateHashTreeCache (P := P) hh hid .read
        (s := { s with tree := t, world := w1 }) ht hroot hr rfl
      rw [heq]
      exact ⟨ht', hread⟩
    | increment =>
      obtain ⟨hsound, hheld, hrep⟩ := hcommit .increment { path.self with value := path.self.value + 1 }
      refine ⟨hsound, hheld.imp_right fun h => ⟨_, path.self, hleaf, hold, rfl, h⟩, fun h => ?_⟩
      obtain ⟨root', h, hstored⟩ := hrep h
      exact ⟨root', ⟨path.self, hleaf, hold, rfl, h⟩, hstored⟩
    | create =>
      obtain ⟨hsound, hheld, hrep⟩ := hcommit .create rpdb
      refine ⟨hsound, hheld.imp_right fun h => ⟨rpdb, path.self, hleaf, hold, h⟩, fun h => ?_⟩
      obtain ⟨root', h, hstored⟩ := hrep h
      exact ⟨root', ⟨path.self, hleaf, hold, h⟩, hstored⟩
    | delete =>
      obtain ⟨hsound, hheld, hrep⟩ := hcommit .delete rpdb
      refine ⟨hsound, hheld.imp_right fun h => ⟨rpdb, path.self, hleaf, hold, h⟩, fun h => ?_⟩
      obtain ⟨root', h, hstored⟩ := hrep h
      exact ⟨root', ⟨path.self, hleaf, hold, h⟩, hstored⟩
  . next rc w1 hne hcheck =>
    refine ⟨ht, .of_error ?_⟩
    rintro rfl
    exact hne rfl

theorem operateVmc_spec (hh : CollisionFree P.hashes) (owner : IsvAttributes) (uuid : Uuid)
    (rpdb : Leaf D) (op : RpdbOp) (flag : Option OpLeafnodeFlag) {s : State W D R}
    (hs : s.tree.Sound P.hashes) :
    let res := operateVmc P owner uuid rpdb op flag s
    res.2.tree.Sound P.hashes ∧ (uuid.entryIndex.toNat < initLeafNodeIdBase ∨
        res.2.rpdata = s.rpdata ∧ res.1.1 ≠ .success) ∧
      Operated P op uuid.nonce rpdb flag (uuid.entryIndex.toNat + initLeafNodeIdBase) s.rpdata.roothash
        res.2.rpdata.roothash res.1.1 res.1.2 := by
  unfold operateVmc
  split
  . exact ⟨hs, .inr ⟨rfl, fun h => by cases h⟩, .of_error fun h => by cases h⟩
  next hindex =>
  have hlt : uuid.entryIndex.toNat < initLeafNodeIdBase := by
    unfold initLeafNodeIdBase at hindex ⊢
    omega
  have hid : IsLeafId (uuid.entryIndex.toNat + initLeafNodeIdBase) := by
    unfold IsLeafId
    unfold initLeafNodeIdBase at hlt ⊢
    unfold initMaxLeafNodeId
    omega
  obtain ⟨w, hread | ⟨rc, hrc, hread⟩⟩ := readRpdata_cases P s
  . rw [hread]
    obtain ⟨hsound, heffect⟩ := operateLeaf_spec hh owner uuid.nonce rpdb op flag hid
      (s := { s with world := w, cachedRpdata := s.rpdata, rpdataCacheInitialized := true }) hs rfl
    exact ⟨hsound, .inl hlt, heffect⟩
  . rw [hread]
    cases rc <;> first | exact absurd rfl hrc | exact ⟨hs, .inl hlt, .of_error fun h => by cases h⟩

omit [DecidableEq D] in
theorem verifyRootNode_world (children : D × D) (s : State W D R) :
    ∃ w, (verifyRootNode P children s).2 = { s with world := w } := by
  obtain ⟨w, hw, -⟩ := hashRoot_cases P s children
  unfold verifyRootNode
  generalize hashRoot P s children = res at hw ⊢
  refine ⟨w, ?_⟩
  obtain ⟨_ | root, s1⟩ := res
  . exact hw
  dsimp only
  split <;> exact hw

omit [DecidableEq D] [DecidableEq R] in
theorem getDbChildrenOfRoot_world (s : State W D R) : ∃ w, (getDbChildrenOfRoot P s).2 = { s with world := w } := by
  unfold getDbChildrenOfRoot
  split
  . exact ⟨_, rfl⟩
  . split <;> exact ⟨_, rfl⟩

omit [DecidableEq D] in
theorem pseVmcDatabaseCheckError_world (s : State W D R) :
    ∃ w, (pseVmcDatabaseCheckError P s).2 = { s with world := w } := by
  unfold pseVmcDatabaseCheckError
  obtain ⟨w1, hw1⟩ := getDbChildrenOfRoot_world (P := P) s
  split
  . next rc s1 heq =>
    rw [heq] at hw1
    exact ⟨w1, hw1⟩
  next children s1 heq =>
  rw [heq] at hw1
  obtain rfl : s1 = _ := hw1
  obtain ⟨w2, hw2⟩ := verifyRootNode_world (P := P) children { s with world := w1 }
  split
  . next s2 heq2 =>
    rw [heq2] at hw2
    obtain rfl : s2 = _ := hw2
    split
    . next s3 heq3 =>
      obtain rfl := congrArg Prod.snd heq3
      exact ⟨_, rfl⟩
    next s3 heq3 =>
    obtain rfl := congrArg Prod.snd heq3
    -- the same two steps again, on what the rollback has left
    split
    . next rc s4 heq4 =>
      have hs4 : _ = s4 := congrArg Prod.snd heq4
      rw [← hs4]
      exact getDbChildrenOfRoot_world _
    next children s4 heq4 =>
    have hs4 : _ = s4 := congrArg Prod.snd heq4
    obtain ⟨w4, hw4⟩ := getDbChildrenOfRoot_world (P := P) _
    rw [hs4] at hw4
    obtain rfl : s4 = _ := hw4
    exact verifyRootNode_world children _
  . next rc s2 _ heq2 =>
    rw [heq2] at hw2
    exact ⟨w2, hw2⟩

def EmptyRoot (P : Outside W D R) (root : R) : Prop :=
  ∃ e, P.hashes.root e (P.internalNodeHashValueTable (initMaxHashTreeLayer - 3))
    (P.internalNodeHashValueTable (initMaxHashTreeLayer - 3)) = root

omit [DecidableEq D] [DecidableEq R] in
theorem EmptyRoot.nodeAt {root : R} (he : EmptyRoot P root) (n : Nat) (hn : n ≤ 11) {i : Nat}
    (hlo : 2 ^ (n + 1) ≤ i) (hhi : i < 2 ^ (n + 2)) :
    NodeAt P.hashes root i (P.internalNodeHashValueTable (11 - n)) := by
  induction n generalizing i with
  | zero =>
    obtain ⟨e, he⟩ := he
    obtain rfl | rfl : i = 2 ∨ i = 3 := by omega
    . exact .left he
    . exact .right he
  | succ n ih =>
    have hup := ih (by omega) (i := i / 2) (by rw [Nat.pow_succ] at hlo; omega) (by rw [Nat.pow_succ] at hhi; omega)
    rw [show 11 - n = 11 - (n + 1) + 1 by omega, Suite.internalNodeHashValueTable] at hup
    refine (NodeAt.children (b := P.internalNodeHashValueTable (11 - (n + 1))) ?_).1
    unfold order
    split <;> exact hup

omit [DecidableEq D] [DecidableEq R] in
theorem EmptyRoot.leafAt {root : R} (he : EmptyRoot P root) {k : Nat} (hk : IsLeafId k) :
    LeafAt P.hashes root k P.zeroLeaf := by
  have hhalf := hk.half
  refine ⟨P.zeroLeaf, ?_⟩
  have hat := he.nodeAt 11 (by omega) (i := k / 2) (by omega) (by omega)
  unfold order
  split <;> exact hat

inductive Rewrites (P : Outside W D R) : R → R → Prop where
  | reset {root : R} (old : R) (w : W) : Rewrites P root (P.psdaResetRpdata old w).1.2.roothash
  | clear {root root' : R} (empty : EmptyRoot P root') : Rewrites P root root'

/--
What a call of `initialize_sqlite_database_file` does to the root in the RPDATA, by whether it sets the
database up anew.
-/
structure Initialised (P : Outside W D R) (anew : Bool) (root root' : R) (rc : OpError) : Prop where
  rewrites : Relation.ReflTransGen (Rewrites P) root root'
  same : anew = false → root' = root
  empty : anew = true → rc = .success → P.Truthful → EmptyRoot P root'

omit [DecidableEq D] [DecidableEq R] in
theorem Initialised.refl {anew : Bool} {root : R} {rc : OpError} (h : anew = false ∨ rc ≠ .success) :
    Initialised P anew root root rc where
  rewrites := .refl
  same _ := rfl
  empty hanew hrc := by
    obtain h | h := h
    . rw [h] at hanew
      cases hanew
    . exact absurd hrc h

omit [DecidableEq D] [DecidableEq R] in
theorem reinitDb_spec (s : State W D R) : (reinitDb P s).2.tree = s.tree ∧
      Initialised P true s.rpdata.roothash (reinitDb P s).2.rpdata.roothash (reinitDb P s).1 := by
  unfold reinitDb
  obtain ⟨w, rpdata, rpdataNew, hrpdata, hreset⟩ := resetRpdata_cases P s
  have hrewrites : Relation.ReflTransGen (Rewrites P) s.rpdata.roothash rpdata.roothash := by
    obtain rfl | ⟨old, w, rfl⟩ := hrpdata
    . exact .refl
    . exact .single (.reset old w)
  have hfails {rc : OpError} (hrc : rc ≠ .success) :
      Initialised P true s.rpdata.roothash rpdata.roothash rc :=
    ⟨hrewrites, fun h => (by cases h), fun _ h => absurd h hrc⟩
  obtain hreset | ⟨rc, hrc, hreset⟩ := hreset
  . rw [hreset]
    dsimp only
    set s1 : State W D R := { s with
      world := w, rpdata := rpdata, cachedRpdata := rpdataNew, rpdataCacheInitialized := true }
    set child := P.internalNodeHashValueTable (initMaxHashTreeLayer - 3)
    obtain ⟨w2, hw2, hroot⟩ := hashRoot_cases P s1 (child, child)
    generalize hashRoot P s1 (child, child) = res at hw2 hroot ⊢
    obtain ⟨_ | root, s2⟩ := res
    . obtain rfl : s2 = _ := hw2
      exact ⟨rfl, hfails fun h => by cases h⟩
    obtain rfl : s2 = _ := hw2
    have hempty : EmptyRoot P root := ⟨_, (hroot root rfl).symm⟩
    obtain ⟨w3, rpdata', hrpdata', hupdate⟩ := updateRpdata_cases P { s1 with world := w2 } root
    have hrewrites' : Relation.ReflTransGen (Rewrites P) s.rpdata.roothash rpdata'.roothash := by
      obtain rfl | rfl := hrpdata'
      . exact hrewrites
      . exact hrewrites.tail (.clear hempty)
    dsimp only
    obtain ⟨hupdate, htruthful⟩ | ⟨rc, hrc, hupdate⟩ := hupdate
    . rw [hupdate]
      dsimp only
      have hdone {rc : OpError} : Initialised P true s.rpdata.roothash rpdata'.roothash rc := by
        refine ⟨hrewrites', fun h => (by cases h), fun _ _ h => ?_⟩
        rw [htruthful h]
        exact hempty
      split <;> exact ⟨rfl, hdone⟩
    . rw [hupdate]
      cases rc <;> first
        | exact absurd rfl hrc
        | exact ⟨rfl, hrewrites', fun h => (by cases h), fun _ h => by cases h⟩
  . rw [hreset]
    cases rc <;> first | exact absurd rfl hrc | exact ⟨rfl, hfails hrc⟩

def checkFindsBroken (P : Outside W D R) (s : State W D R) : Bool :=
  match readRpdata P { s with tree := flushHashTreeCache } with
  | (.success, s) => isBroken (pseVmcDatabaseCheckError P s).1
  | _ => false

omit [DecidableEq D] in
theorem initializeSqliteDatabaseFile_spec (isForEmptyDbCreation : Bool) (s : State W D R) :
    let res := initializeSqliteDatabaseFile P isForEmptyDbCreation s
    res.2.tree = flushHashTreeCache ∧ Initialised P (isForEmptyDbCreation || checkFindsBroken P s)
      s.rpdata.roothash res.2.rpdata.roothash res.1 := by
  unfold initializeSqliteDatabaseFile checkFindsBroken
  obtain ⟨w, hread | ⟨rc, hrc, hread⟩⟩ := readRpdata_cases P { s with tree := flushHashTreeCache }
  . rw [hread]
    dsimp only
    split
    . next hfor =>
      rw [hfor, Bool.true_or]
      exact reinitDb_spec { s with
        tree := flushHashTreeCache, world := w, cachedRpdata := s.rpdata, rpdataCacheInitialized := true }
    next hfor =>
    rw [Bool.not_eq_true] at hfor
    rw [hfor, Bool.false_or]
    obtain ⟨w2, hw2⟩ := pseVmcDatabaseCheckError_world (P := P) { s with
      tree := flushHashTreeCache, world := w, cachedRpdata := s.rpdata, rpdataCacheInitialized := true }
    generalize pseVmcDatabaseCheckError P _ = res at hw2 ⊢
    obtain ⟨rc, s2⟩ := res
    obtain rfl : s2 = _ := hw2
    have hreinit := reinitDb_spec (P := P) { s with
      tree := flushHashTreeCache, world := w2, cachedRpdata := s.rpdata, rpdataCacheInitialized := true }
    dsimp only
    split
    . next heq =>
      cases heq
      exact hreinit
    . next heq =>
      cases heq
      exact hreinit
    . next hfatal hinvalid heq =>
      cases heq
      refine ⟨rfl, .refl (.inl ?_)⟩
      rw [isBroken, Bool.or_eq_false_iff, decide_eq_false_iff_not, decide_eq_false_iff_not]
      exact ⟨hinvalid, hfatal⟩
  . rw [hread]
    cases rc <;> first | exact absurd rfl hrc | exact ⟨rfl, .refl (.inr hrc)⟩

def serviceFindsBroken (P : Outside W D R) (s : State W D R) : Bool :=
  s.mcServiceStatus ≠ .success && checkFindsBroken P s

omit [DecidableEq D] in
theorem ensureService_spec {s : State W D R} (hs : s.tree.Sound P.hashes) :
    (ensureService P s).2.tree.Sound P.hashes ∧ Initialised P (serviceFindsBroken P s)
      s.rpdata.roothash (ensureService P s).2.rpdata.roothash (ensureService P s).1 := by
  unfold ensureService serviceFindsBroken
  split
  . next hstatus => exact ⟨hs, .refl (.inl (by simp [hstatus]))⟩
  next hstatus =>
  obtain ⟨htree, hres⟩ := initializeSqliteDatabaseFile_spec (P := P) false s
  rw [Bool.false_or] at hres
  simp only [hstatus, ne_eq, not_false_eq_true, decide_true, Bool.true_and]
  refine ⟨?_, hres⟩
  rw [htree]
  exact sound_flush

end

end Vmc
