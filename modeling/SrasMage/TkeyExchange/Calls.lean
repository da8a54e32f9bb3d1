import SrasMage.TkeyExchange.Invariant

/-!
This module contains what each call keeps at every step, and what it says about the item of its context when
it ends.
-/

namespace TkeyExchange

open Threads List Nat

section

variable {τ α : Type} {crypto : Crypto} {t : τ} {w : State τ} {Q : α → State τ → Prop} {E : SgxError → State τ → Prop}
  {p : Nat} {item : Item}

theorem wp_require {Q : Unit → State τ → Prop} (convert : SgxError → SgxError) (hQ : Q () w) (hE : ∀ e, E e w) :
    wp (Inv crypto) Rely t (require convert) Q E w := by
  refine wp_bind.2 (wp_choose fun status _ => ?_)
  cases status with
  | none => exact hQ
  | some e => exact hE _

theorem wp_ensure {Q : Unit → State τ → Prop} {ok : Bool} {e : SgxError} (hQ : ok = true → Q () w) (hE : E e w) :
    wp (Inv crypto) Rely t (ensure ok e) Q E w := by
  cases ok with
  | false => exact hE
  | true => exact hQ rfl

theorem wp_loadAny {f : Mem → α} (hinv : Inv crypto w) (h : ∀ w', Grows w w' → Inv crypto w' → Q (f w.mem) w') :
    wp (Inv crypto) Rely t (load f) Q E w :=
  wp_load (fun u => Rely.refl u w) hinv fun w' hrely hinv' => h w' hrely.1 hinv'

structure Ends (crypto : Crypto) (t : τ) (l : Lock) (P : State τ → Prop) (w : State τ) : Prop where
  inv : Inv crypto w
  owner : w.owner l = some t
  later : ∀ w', Grows w w' → Inv crypto w' → P w'

theorem Grows.setOwner {w w' : State τ} {l : Lock} {o : Option τ} (h : Grows (w.setOwner l o) w') : Grows w w' :=
  ⟨h.started, h.kdfCookie, h.data, h.allocated, h.item⟩

theorem db_ne_item {n : Nat} (p : Nat) (h : Lock.db = .item p) : p < n := Lock.noConfusion h

theorem wp_locked {l : Lock} {body : M α} (hinv : Inv crypto w) (hl : ∀ p, l = .item p → p < w.mem.allocated)
    (h : ∀ w', Grows w w' → Inv crypto w' → w'.owner l = some t →
      wp (Inv crypto) Rely t body (fun a => Ends crypto t l (Q a)) (fun e => Ends crypto t l (E e)) w') :
    wp (Inv crypto) Rely t (withLock l body) Q E w := by
  apply wp_withLock
  intro hfree
  refine ⟨moves_acquire t hinv hfree hl, fun w' hrely hinv' => ?_⟩
  have howner : w'.owner l = some t := (hrely.2 l (Function.update_self ..)).1
  refine wp_mono (h w' hrely.1.setOwner hinv' howner) ?_ ?_
  . exact fun a w'' hend => ⟨moves_release t hend.inv hend.owner, fun w3 hrely3 hinv3 =>
      hend.later w3 hrely3.1.setOwner hinv3⟩
  . exact fun e w'' hend => ⟨moves_release t hend.inv hend.owner, fun w3 hrely3 hinv3 =>
      hend.later w3 hrely3.1.setOwner hinv3⟩

theorem wp_readItem {f : Item → α} (hinv : Inv crypto w) (howned : Owned t p item w)
    (h : ∀ w', Grows w w' → Inv crypto w' → Owned t p item w' → Q (f item) w') :
    wp (Inv crypto) Rely t (readItem p f) Q E w := by
  refine wp_load (fun u => Rely.refl u w) hinv fun w' hrely hinv' => ?_
  rw [howned.heap]
  exact h w' hrely.1 hinv' (howned.rely hrely)

theorem wp_writeItem {Q : Unit → State τ → Prop} {f : Item → Item} (hinv : Inv crypto w)
    (howned : Owned t p item w) (hevolves : item.Evolves (f item))
    (hpair : item.state = .inited → (f item).state ≠ .inited → (f item).gA = crypto.publicKey (f item).a)
    (hprocessed : (f item).state = .procMsg2ed → Processed crypto w p (f item))
    (h : ∀ w', Grows w w' → Inv crypto w' → Owned t p (f item) w' → Q () w') :
    wp (Inv crypto) Rely t (writeItem p f) Q E w := by
  have hmoves := moves_writeItem hinv howned hevolves hpair hprocessed
  have hgrows : Grows w (w.setMem { w.mem with heap := Function.update w.mem.heap p (f item) }) :=
    grows_writeItem (by rw [howned.heap]; exact hevolves)
  have hnew : Owned t p (f item) (w.setMem { w.mem with heap := Function.update w.mem.heap p (f item) }) :=
    ⟨howned.owner, Function.update_self ..⟩
  refine wp_store ?_ ?_
  . rw [howned.heap]
    exact hmoves
  . rw [howned.heap]
    exact fun w' hrely hinv' => h w' (hgrows.trans hrely.1) hinv' (hnew.rely hrely)

theorem entry_of_vectorGet {m : Mem} {c p : Nat} (h : m.vectorGet c = some p) : m.Entry c p := by
  unfold Mem.vectorGet at h
  split at h
  . exact Option.join_eq_some_iff.1 h
  . cases h

theorem wp_enter {Q : Nat → State τ → Prop} (c : Nat) (argsOk : Bool) (hinv : Inv crypto w)
    (hQ : ∀ w' p, Grows w w' → Inv crypto w' → w'.mem.Entry c p → Q p w')
    (hE : ∀ e w', Grows w w' → Inv crypto w' → E e w') :
    wp (Inv crypto) Rely t (enter c argsOk) Q E w := by
  refine wp_bind.2 (wp_loadAny hinv fun w1 hgrows1 hinv1 => ?_)
  refine wp_bind.2 (wp_ensure (fun _ => ?_) (hE _ w1 hgrows1 hinv1))
  refine wp_bind.2 (wp_locked hinv1 db_ne_item fun w2 hgrows2 hinv2 howner2 => ?_)
  refine wp_load (fun u => Rely.refl u w2) hinv2 fun w3 hrely hinv3 => ?_
  refine ⟨hinv3, (hrely.2 _ howner2).1, fun w4 hgrows4 hinv4 => ?_⟩
  have hgrows : Grows w w4 := ((hgrows1.trans hgrows2).trans hrely.1).trans hgrows4
  cases hget : w2.mem.vectorGet c with
  | none => exact hE _ w4 hgrows hinv4
  | some p => exact hQ w4 p hgrows hinv4 ((hrely.1.trans hgrows4).data c p (entry_of_vectorGet hget))

theorem Owned.lt (h : Owned t p item w) (hinv : Inv crypto w) : p < w.mem.allocated :=
  hinv.locked p t h.owner

theorem Item.Evolves.of_inited {item item' : Item} (hstate : item.state = .inited)
    (hspPubkey : item'.spPubkey = item.spPubkey) (hcb : item'.deriveKeyCb = item.deriveKeyCb) : item.Evolves item' :=
  ⟨hspPubkey, hcb, fun h => absurd hstate h, fun h => by rw [hstate] at h; cases h⟩

theorem Item.Evolves.of_getGaed {item item' : Item} (hstate : item.state = .getGaed)
    (hspPubkey : item'.spPubkey = item.spPubkey) (hcb : item'.deriveKeyCb = item.deriveKeyCb) (ha : item'.a = item.a)
    (hgA : item'.gA = item.gA) (hstate' : item'.state ≠ .inited) : item.Evolves item' :=
  ⟨hspPubkey, hcb, fun _ => ⟨hstate', ha, hgA⟩, fun h => by rw [hstate] at h; cases h⟩

theorem wp_createKeyPair {Q : Answer → State τ → Prop} (hinv : Inv crypto w)
    (howned : Owned t p item w)
    (hQ : ∀ gA w', Grows w w' → Inv crypto w' → (w'.mem.heap p).state ≠ .inited → (w'.mem.heap p).gA = gA →
      Q (.ga gA) w')
    (hE : ∀ e w', Grows w w' → Inv crypto w' → E e w') :
    wp (Inv crypto) Rely t (createKeyPair crypto p) (fun a => Ends crypto t (.item p) (Q a))
      (fun e => Ends crypto t (.item p) (E e)) w := by
  refine wp_bind.2 (wp_readItem hinv howned fun w1 hgrows1 hinv1 howned1 => ?_)
  have hE1 : ∀ e, Ends crypto t (.item p) (E e) w1 :=
    fun e => ⟨hinv1, howned1.owner, fun w' hgrows => hE e w' (hgrows1.trans hgrows)⟩
  refine wp_bind.2 (wp_ensure (fun hstate => ?_) (hE1 _))
  replace hstate : item.state = .inited := of_decide_eq_true hstate
  refine wp_bind.2 (wp_require _ ?_ fun e => hE1 _)
  refine wp_bind.2 (wp_require _ ?_ fun e => hE1 _)
  refine wp_bind.2 (wp_choose fun pair hpair => ?_)
  -- the state is the last field to change
  refine wp_bind.2 (wp_writeItem hinv1 howned1 (.of_inited hstate rfl rfl)
    (fun _ h => absurd hstate h) (fun h => absurd (hstate.symm.trans h) (by decide)) fun w2 hgrows2 hinv2 howned2 => ?_)
  refine wp_bind.2 (wp_writeItem hinv2 howned2 (.of_inited hstate rfl rfl)
    (fun _ h => absurd hstate h) (fun h => absurd (hstate.symm.trans h) (by decide)) fun w3 hgrows3 hinv3 howned3 => ?_)
  refine wp_bind.2 (wp_writeItem hinv3 howned3 (.of_inited hstate rfl rfl) (fun _ _ => hpair) nofun
    fun w4 hgrows4 hinv4 howned4 => ?_)
  refine ⟨hinv4, howned4.owner, fun w5 hgrows5 hinv5 => ?_⟩
  have hitem := hgrows5.item p (howned4.lt hinv4)
  rw [howned4.heap] at hitem
  obtain ⟨hstate5, -, hgA5⟩ := hitem.keyPair (by simp)
  exact hQ _ w5 ((((hgrows1.trans hgrows2).trans hgrows3).trans hgrows4).trans hgrows5) hinv5 hstate5 hgA5

theorem reports_error (c : Call) (e : SgxError) : Reports crypto w (c, .error e) := by
  cases c <;> trivial

theorem moves_error (c : Call) (e : SgxError) (hinv : Inv crypto w) :
    Moves (Inv crypto) Rely t w (w.finish c (.error e)) :=
  moves_finish t c _ hinv (reports_error c e)

theorem wp_sgxRaGetGa (c : Nat) (argsOk : Bool) (hinv : Inv crypto w) :
    wp (Inv crypto) Rely t (sgxRaGetGa crypto c argsOk)
      (fun r w => Moves (Inv crypto) Rely t w (w.finish (.getGa c argsOk) (.ok r)))
      (fun e w => Moves (Inv crypto) Rely t w (w.finish (.getGa c argsOk) (.error e))) w := by
  refine wp_bind.2 (wp_enter c argsOk hinv (fun w1 p hgrows1 hinv1 hp1 => ?_) fun e w' _ => moves_error _ e)
  refine wp_locked hinv1 (fun q hq => Lock.item.inj hq ▸ hinv1.data c p hp1) fun w2 hgrows2 hinv2 howner2 => ?_
  refine wp_createKeyPair hinv2 ⟨howner2, rfl⟩ (fun gA w3 hgrows3 hinv3 hstate hgA => ?_) fun e w' _ => moves_error _ e
  exact moves_finish t _ _ hinv3 ⟨p, (hgrows2.trans hgrows3).data c p hp1, hstate, hgA⟩

structure Snapshot.Of (snap : Snapshot) (p : Nat) (w : State τ) : Prop where
  lt : p < w.mem.allocated
  state : (w.mem.heap p).state ≠ .inited
  a : (w.mem.heap p).a = snap.a
  gA : (w.mem.heap p).gA = snap.gA
  spPubkey : (w.mem.heap p).spPubkey = snap.spPubkey
  keyCb : (w.mem.heap p).deriveKeyCb ^^^ w.mem.kdfCookie = snap.keyCb

theorem Snapshot.Of.grows {w w' : State τ} {snap : Snapshot} (h : snap.Of p w) (hinv : Inv crypto w)
    (hgrows : Grows w w') : snap.Of p w' := by
  have hitem := hgrows.item p h.lt
  obtain ⟨hstate, ha, hgA⟩ := hitem.keyPair h.state
  exact {
    lt := lt_of_lt_of_le h.lt hgrows.allocated
    state := hstate
    a := ha.trans h.a
    gA := hgA.trans h.gA
    spPubkey := hitem.spPubkey.trans h.spPubkey
    keyCb := by
      rw [hitem.deriveKeyCb, hgrows.kdfCookie (hinv.kdfCookie (zero_lt_of_lt h.lt))]
      exact h.keyCb }

theorem wp_snapshot {Q : Snapshot → State τ → Prop} (hinv : Inv crypto w)
    (howned : Owned t p item w) (hQ : ∀ snap w', Grows w w' → Inv crypto w' → snap.Of p w' → Q snap w')
    (hE : ∀ e w', Grows w w' → Inv crypto w' → E e w') :
    wp (Inv crypto) Rely t (snapshot p) (fun a => Ends crypto t (.item p) (Q a))
      (fun e => Ends crypto t (.item p) (E e)) w := by
  refine wp_bind.2 (wp_readItem hinv howned fun w1 hgrows1 hinv1 howned1 => ?_)
  refine wp_bind.2 (wp_ensure (fun hstate => ?_)
    ⟨hinv1, howned1.owner, fun w' hgrows => hE _ w' (hgrows1.trans hgrows)⟩)
  replace hstate : item.state = .getGaed := of_decide_eq_true hstate
  refine wp_bind.2 (wp_readItem hinv1 howned1 fun w2 hgrows2 hinv2 howned2 => ?_)
  refine wp_bind.2 (wp_readItem hinv2 howned2 fun w3 hgrows3 hinv3 howned3 => ?_)
  refine wp_bind.2 (wp_readItem hinv3 howned3 fun w4 hgrows4 hinv4 howned4 => ?_)
  refine wp_bind.2 (wp_load (fun u => Rely.refl u w4) hinv4 fun w5 hrely5 hinv5 => ?_)
  have howned5 := howned4.rely hrely5
  refine ⟨hinv5, howned5.owner, fun w6 hgrows6 hinv6 => ?_⟩
  have hgrows : Grows w w6 :=
    ((((hgrows1.trans hgrows2).trans hgrows3).trans hgrows4).trans hrely5.1).trans hgrows6
  have hof : Snapshot.Of ⟨item.a, item.gA, item.spPubkey, item.deriveKeyCb ^^^ w4.mem.kdfCookie⟩ p w4 := by
    refine ⟨howned4.lt hinv4, ?_, ?_, ?_, ?_, ?_⟩
    all_goals rw [howned4.heap]
    rw [hstate]
    decide
  rw [howned4.heap]
  exact hQ _ w6 hgrows hinv6 (hof.grows hinv4 (hrely5.1.trans hgrows6))

theorem wp_deriveKeys {Q : Keys → State τ → Prop} (keyCb : UInt64) (dhKey : SharedKey) (kdfId : UInt16)
    (hQ : ∀ keys, Derives crypto keyCb dhKey kdfId keys → Q keys w) (hE : ∀ e, E e w) :
    wp (Inv crypto) Rely t (deriveKeys crypto keyCb dhKey kdfId) Q E w := by
  unfold deriveKeys
  split
  . next hcb =>
    refine wp_bind.2 (wp_require _ (wp_choose fun keys hkeys => hQ keys ?_) fun e => hE _)
    rw [Derives, if_pos hcb]
    exact hkeys
  next hcb =>
  split
  . next hkdf =>
    refine wp_bind.2 (wp_require _ (wp_bind.2 (wp_require _ (wp_bind.2 (wp_require _ (wp_bind.2
      (wp_require _ (hQ _ ?_) fun e => hE _)) fun e => hE _)) fun e => hE _)) fun e => hE _)
    rw [Derives, if_neg hcb]
    exact ⟨hkdf, rfl⟩
  . exact hE _

structure Verified (crypto : Crypto) (snap : Snapshot) (msg2 : Msg2) (keys : Keys) : Prop where
  signed : crypto.ecdsaVerify (msg2.gB.toList ++ snap.gA.toList) snap.spPubkey msg2.signGbGa = true
  derived : Derives crypto snap.keyCb (crypto.sharedDhkey snap.a msg2.gB) msg2.kdfId keys
  maced : crypto.cmac keys.smkey msg2.maced = msg2.mac

theorem wp_writeKeys {Q : Unit → State τ → Prop} {msg2 : Msg2} {qeTarget : TargetInfo}
    {keys : Keys} (nonce : QuoteNonce) (hinv : Inv crypto w) (howned : Owned t p item w)
    (hstate : item.state = .getGaed)
    (hQ : ∀ item' w', Grows w w' → Inv crypto w' → Owned t p item' w' → item'.state = .getGaed →
      item'.skKey = keys.skey → item'.mkKey = keys.mkey → Q () w') :
    wp (Inv crypto) Rely t (writeKeys p msg2 keys qeTarget nonce) Q E w := by
  have hne : item.state ≠ .inited := by simp [hstate]
  have hnot : item.state ≠ .procMsg2ed := by simp [hstate]
  refine wp_bind.2 (wp_writeItem hinv howned (.of_getGaed hstate rfl rfl rfl rfl hne) (fun h => absurd h hne)
    (fun h => absurd h hnot) fun w1 hgrows1 hinv1 howned1 => ?_)
  refine wp_bind.2 (wp_writeItem hinv1 howned1 (.of_getGaed hstate rfl rfl rfl rfl hne) (fun h => absurd h hne)
    (fun h => absurd h hnot) fun w2 hgrows2 hinv2 howned2 => ?_)
  refine wp_bind.2 (wp_writeItem hinv2 howned2 (.of_getGaed hstate rfl rfl rfl rfl hne) (fun h => absurd h hne)
    (fun h => absurd h hnot) fun w3 hgrows3 hinv3 howned3 => ?_)
  refine wp_bind.2 (wp_writeItem hinv3 howned3 (.of_getGaed hstate rfl rfl rfl rfl hne) (fun h => absurd h hne)
    (fun h => absurd h hnot) fun w4 hgrows4 hinv4 howned4 => ?_)
  refine wp_bind.2 (wp_writeItem hinv4 howned4 (.of_getGaed hstate rfl rfl rfl rfl hne) (fun h => absurd h hne)
    (fun h => absurd h hnot) fun w5 hgrows5 hinv5 howned5 => ?_)
  refine wp_bind.2 (wp_writeItem hinv5 howned5 (.of_getGaed hstate rfl rfl rfl rfl hne) (fun h => absurd h hne)
    (fun h => absurd h hnot) fun w6 hgrows6 hinv6 howned6 => ?_)
  refine wp_writeItem hinv6 howned6 (.of_getGaed hstate rfl rfl rfl rfl hne) (fun h => absurd h hne)
    (fun h => absurd h hnot) fun w7 hgrows7 hinv7 howned7 => ?_
  have hgrows : Grows w w7 :=
    (((((hgrows1.trans hgrows2).trans hgrows3).trans hgrows4).trans hgrows5).trans hgrows6).trans hgrows7
  exact hQ _ w7 hgrows hinv7 howned7 hstate rfl rfl

theorem wp_commit {Q : Answer → State τ → Prop} {c p : Nat} {msg2 : Msg2} {qeTarget : TargetInfo}
    {argsOk : Bool} {keys : Keys} {snap : Snapshot} (nonce : QuoteNonce) (hinv : Inv crypto w)
    (howned : Owned t p item w) (hp : w.mem.Entry c p) (hstarted : .procMsg2 c msg2 qeTarget argsOk ∈ w.started)
    (hof : snap.Of p w) (hverified : Verified crypto snap msg2 keys)
    (hQ : ∀ a w', Grows w w' → Inv crypto w' → Q a w') (hE : ∀ e w', Grows w w' → Inv crypto w' → E e w') :
    wp (Inv crypto) Rely t (commit crypto p msg2 keys qeTarget nonce) (fun a => Ends crypto t (.item p) (Q a))
      (fun e => Ends crypto t (.item p) (E e)) w := by
  refine wp_bind.2 (wp_readItem hinv howned fun w1 hgrows1 hinv1 howned1 => ?_)
  refine wp_bind.2 (wp_ensure (fun hstate => ?_)
    ⟨hinv1, howned1.owner, fun w' hgrows => hE _ w' (hgrows1.trans hgrows)⟩)
  refine wp_bind.2 (wp_writeKeys nonce hinv1 howned1 (of_decide_eq_true hstate)
    fun item' w2 hgrows2 hinv2 howned2 hstate' hsk hmk => ?_)
  refine wp_bind.2 (wp_readItem hinv2 howned2 fun w3 hgrows3 hinv3 howned3 => ?_)
  have hgrows : Grows w w3 := (hgrows1.trans hgrows2).trans hgrows3
  have hE3 : ∀ e, Ends crypto t (.item p) (E e) w3 :=
    fun e => ⟨hinv3, howned3.owner, fun w' hgrows' => hE e w' (hgrows.trans hgrows')⟩
  refine wp_bind.2 (wp_require _ ?_ fun e => hE3 _)
  refine wp_bind.2 (wp_require _ ?_ fun e => hE3 _)
  -- the key pair is still the one that the message was checked with
  have hof3 := hof.grows hinv hgrows
  have hprocessed : Processed crypto w3 p { item' with state := .procMsg2ed } := by
    refine ⟨c, msg2, qeTarget, argsOk, keys, hgrows.started _ hstarted, hgrows.data c p hp, ?_⟩
    obtain ⟨-, -, ha, hgA, hspPubkey, hkeyCb⟩ := hof3
    rw [howned3.heap] at ha hgA hspPubkey hkeyCb
    refine ⟨?_, ?_, hverified.maced, hsk, hmk⟩
    . rw [show Item.gA _ = _ from hgA, show Item.spPubkey _ = _ from hspPubkey]
      exact hverified.signed
    . rw [show Item.a _ = _ from ha, show Item.deriveKeyCb _ ^^^ _ = _ from hkeyCb]
      exact hverified.derived
  refine wp_bind.2 (wp_writeItem hinv3 howned3 (.of_getGaed hstate' rfl rfl rfl rfl nofun)
    (fun h => absurd (hstate'.symm.trans h) (by decide)) (fun _ => hprocessed) fun w4 hgrows4 hinv4 howned4 => ?_)
  exact ⟨hinv4, howned4.owner, fun w' hgrows' => hQ _ w' ((hgrows.trans hgrows4).trans hgrows')⟩

theorem wp_sgxRaProcMsg2Trusted (c : Nat) (msg2 : Msg2) (qeTarget : TargetInfo) (argsOk : Bool) (hinv : Inv crypto w)
    (hstarted : .procMsg2 c msg2 qeTarget argsOk ∈ w.started) :
    wp (Inv crypto) Rely t (sgxRaProcMsg2Trusted crypto c msg2 qeTarget argsOk)
      (fun r w => Moves (Inv crypto) Rely t w (w.finish (.procMsg2 c msg2 qeTarget argsOk) (.ok r)))
      (fun e w => Moves (Inv crypto) Rely t w (w.finish (.procMsg2 c msg2 qeTarget argsOk) (.error e))) w := by
  refine wp_bind.2 (wp_enter c argsOk hinv (fun w1 p hgrows1 hinv1 hp1 => ?_) fun e w' _ => moves_error _ e)
  have hlt : ∀ q, Lock.item p = .item q → q < w1.mem.allocated := fun q hq => Lock.item.inj hq ▸ hinv1.data c p hp1
  refine wp_bind.2 (wp_locked hinv1 hlt fun w2 hgrows2 hinv2 howner2 => ?_)
  refine wp_snapshot hinv2 ⟨howner2, rfl⟩ (fun snap w3 hgrows3 hinv3 hof => ?_) fun e w' _ => moves_error _ e
  refine wp_bind.2 (wp_require _ ?_ fun e => moves_error _ _ hinv3)
  refine wp_bind.2 (wp_require _ ?_ fun e => moves_error _ _ hinv3)
  refine wp_bind.2 (wp_require _ ?_ fun e => moves_error _ _ hinv3)
  refine wp_bind.2 (wp_ensure (fun hsigned => ?_) (moves_error _ _ hinv3))
  refine wp_bind.2 (wp_deriveKeys _ _ _ (fun keys hderived => ?_) fun e => moves_error _ _ hinv3)
  refine wp_bind.2 (wp_require _ ?_ fun e => moves_error _ _ hinv3)
  refine wp_bind.2 (wp_ensure (fun hmaced => ?_) (moves_error _ _ hinv3))
  refine wp_bind.2 (wp_require _ ?_ fun e => moves_error _ _ hinv3)
  refine wp_bind.2 (wp_choose fun nonce _ => ?_)
  refine wp_locked hinv3 (fun q hq => Lock.item.inj hq ▸ hof.lt) fun w4 hgrows4 hinv4 howner4 => ?_
  have hgrows : Grows w1 w4 := (hgrows2.trans hgrows3).trans hgrows4
  refine wp_commit nonce hinv4 ⟨howner4, rfl⟩ (hgrows.data c p hp1) ((hgrows1.trans hgrows).started _ hstarted)
    (hof.grows hinv3 hgrows4) ⟨hsigned, hderived, of_decide_eq_true hmaced⟩ (fun a w5 hgrows5 hinv5 => ?_)
    fun e w' _ => moves_error _ e
  exact moves_finish t _ _ hinv5 (by trivial)

theorem wp_copyForMsg3 {Q : PublicKey × List UInt8 × Key → State τ → Prop} (qeReport : QeReport)
    (hinv : Inv crypto w) (howned : Owned t p item w)
    (hQ : ∀ w', Grows w w' → Inv crypto w' → w'.mem.heap p = item → item.state = .procMsg2ed →
      Q (item.gA, item.psSecProp, item.smkKey) w')
    (hE : ∀ e w', Inv crypto w' → E e w') :
    wp (Inv crypto) Rely t (copyForMsg3 p qeReport) (fun a => Ends crypto t (.item p) (Q a))
      (fun e => Ends crypto t (.item p) (E e)) w := by
  refine wp_bind.2 (wp_readItem hinv howned fun w1 hgrows1 hinv1 howned1 => ?_)
  refine wp_bind.2 (wp_ensure (fun hstate => ?_) ⟨hinv1, howned1.owner, fun w' _ => hE _ w'⟩)
  replace hstate : item.state = .procMsg2ed := of_decide_eq_true hstate
  refine wp_bind.2 (wp_readItem hinv1 howned1 fun w2 hgrows2 hinv2 howned2 => ?_)
  refine wp_bind.2 (wp_ensure (fun _ => ?_) ⟨hinv2, howned2.owner, fun w' _ => hE _ w'⟩)
  refine wp_bind.2 (wp_readItem hinv2 howned2 fun w3 hgrows3 hinv3 howned3 => ?_)
  refine wp_bind.2 (wp_readItem hinv3 howned3 fun w4 hgrows4 hinv4 howned4 => ?_)
  refine wp_bind.2 (wp_readItem hinv4 howned4 fun w5 hgrows5 hinv5 howned5 => ?_)
  have hgrows : Grows w w5 := (((hgrows1.trans hgrows2).trans hgrows3).trans hgrows4).trans hgrows5
  refine ⟨hinv5, howned5.owner, fun w' hgrows' hinv' => hQ w' (hgrows.trans hgrows') hinv' ?_ hstate⟩
  have hitem := hgrows'.item p (howned5.lt hinv5)
  rw [howned5.heap] at hitem
  exact hitem.keys hstate

section

variable {Q : Digests → State τ → Prop} {quote quoteSize fuel ptr : Nat} {digests : Digests}

theorem wp_quotePieces_step {size : Nat} (hlt : ptr < quote + quoteSize)
    (h : ∀ piece : List UInt8, piece.length = nextPieceSize quote quoteSize ptr size →
      wp (Inv crypto) Rely t (quotePieces quote quoteSize fuel ((ptr + pieceSize) % 2 ^ 64)
        (nextPieceSize quote quoteSize ptr size) ⟨digests.sha ++ piece, digests.cmac ++ piece⟩) Q E w)
    (hE : ∀ e, E e w) :
    wp (Inv crypto) Rely t (quotePieces quote quoteSize (fuel + 1) ptr size digests) Q E w := by
  rw [quotePieces, if_pos hlt]
  refine wp_bind.2 (wp_choose fun piece hpiece => ?_)
  refine wp_bind.2 (wp_require _ ?_ fun e => hE _)
  refine wp_bind.2 (wp_require _ ?_ fun e => hE _)
  exact h piece hpiece

theorem wp_quotePieces_wrapped {size : Nat} (hptr : ptr + pieceSize * fuel < quote + quoteSize)
    (hend : quote + quoteSize < 2 ^ 64) (hE : ∀ e, E e w) :
    wp (Inv crypto) Rely t (quotePieces quote quoteSize fuel ptr size digests) Q E w := by
  induction fuel generalizing ptr size digests with
  | zero => exact wp_choose fun _ => False.elim
  | succ fuel ih =>
    rw [mul_succ] at hptr
    apply wp_quotePieces_step (by omega)
    . intro piece _
      apply ih
      rw [mod_eq_of_lt] <;> omega
    . exact hE

theorem wp_quotePieces (hend : quote + quoteSize < 2 ^ 64) (hsize : quoteSize < 2 ^ 32) (hfuel : fuel ≤ 2 ^ 32)
    (hptr : quote ≤ ptr) (hle : ptr ≤ quote + quoteSize)
    (hQ : ∀ rest : List UInt8, rest.length = quote + quoteSize - ptr → Q ⟨digests.sha ++ rest, digests.cmac ++ rest⟩ w)
    (hE : ∀ e, E e w) :
    wp (Inv crypto) Rely t (quotePieces quote quoteSize fuel ptr pieceSize digests) Q E w := by
  induction fuel generalizing ptr digests with
  | zero => exact wp_choose fun _ => False.elim
  | succ fuel ih =>
    by_cases hlt : ptr < quote + quoteSize
    . have hnext : nextPieceSize quote quoteSize ptr pieceSize = min (quote + quoteSize - ptr) pieceSize := by
        unfold nextPieceSize pieceSize
        split <;> omega
      apply wp_quotePieces_step hlt
      . intro piece hpiece
        rw [hnext] at hpiece ⊢
        by_cases hfull : ptr + pieceSize ≤ quote + quoteSize
        . rw [min_eq_right (by omega), mod_eq_of_lt (by omega)]
          apply ih (by omega) (by omega) hfull
          intro rest hrest
          rw [append_assoc, append_assoc]
          apply hQ
          rw [length_append]
          omega
        by_cases hwrap : ptr + pieceSize < 2 ^ 64
        . rw [mod_eq_of_lt hwrap]
          cases fuel with
          | zero => exact wp_choose fun _ => False.elim
          | succ fuel =>
            rw [quotePieces, if_neg (by omega)]
            apply hQ
            omega
        . apply wp_quotePieces_wrapped _ hend hE
          unfold pieceSize at *
          omega
      . exact hE
    . rw [quotePieces, if_neg hlt]
      have hrest := hQ [] (by rw [length_nil]; omega)
      rw [append_nil, append_nil] at hrest
      exact hrest

end

theorem Msg3Request.sizes {r : Msg3Request} (h : r.sizesOk = true) :
    r.quote + r.quoteSize < 2 ^ 64 ∧ r.quoteSize + 1 ≤ 2 ^ 32 := by
  obtain ⟨haddr, hsize, hsum, -⟩ := of_decide_eq_true h
  unfold Msg3Request.quote uintptrMax uint32Max sizeofMsg3 at *
  omega

theorem wp_sgxRaGetMsg3Trusted (c : Nat) (r : Msg3Request) (argsOk : Bool) (hinv : Inv crypto w) :
    wp (Inv crypto) Rely t (sgxRaGetMsg3Trusted crypto c r argsOk)
      (fun a w => Moves (Inv crypto) Rely t w (w.finish (.getMsg3 c r argsOk) (.ok a)))
      (fun e w => Moves (Inv crypto) Rely t w (w.finish (.getMsg3 c r argsOk) (.error e))) w := by
  refine wp_bind.mpr (wp_enter c _ hinv (fun w1 p _ hinv1 hp1 => ?_) fun e w' _ => moves_error _ e)
  refine wp_bind.mpr (wp_ensure (fun hsizes => ?_) (moves_error _ _ hinv1))
  obtain ⟨hend, hsize⟩ := Msg3Request.sizes hsizes
  refine wp_bind.mpr (wp_require _ ?_ fun e => moves_error _ _ hinv1)
  refine wp_bind.mpr (wp_ensure (fun hverified => ?_) (moves_error _ _ hinv1))
  have hlt : ∀ q, Lock.item p = .item q → q < w1.mem.allocated := fun q hq => Lock.item.inj hq ▸ hinv1.data c p hp1
  refine wp_bind.mpr (wp_locked hinv1 hlt fun w2 hgrows2 hinv2 howner2 => ?_)
  refine wp_copyForMsg3 _ hinv2 ⟨howner2, rfl⟩ (fun w3 hgrows3 hinv3 hitem3 hstate => ?_) fun e w' => moves_error _ e
  have hp3 := (hgrows2.trans hgrows3).data c p hp1
  refine wp_bind.mpr (wp_require _ ?_ fun e => moves_error _ _ hinv3)
  refine wp_bind.mpr (wp_loadAny hinv3 fun w4 hgrows4 hinv4 => ?_)
  have hitem4 : w4.mem.heap p = w2.mem.heap p := by
    have hevolves := hgrows4.item p (hinv3.data c p hp3)
    rw [hitem3] at hevolves
    exact hevolves.keys hstate
  rw [hitem3]
  refine wp_bind.mpr (wp_require _ ?_ fun e => moves_error _ _ hinv4)
  refine wp_bind.mpr (wp_require _ ?_ fun e => moves_error _ _ hinv4)
  refine wp_bind.mpr (wp_require _ ?_ fun e => moves_error _ _ hinv4)
  refine wp_bind.mpr (wp_require _ ?_ fun e => moves_error _ _ hinv4)
  refine wp_bind.mpr (wp_quotePieces hend (by omega) hsize (le_refl _) (le_add_right _ _)
    (fun quote hquote => ?_) fun e => moves_error _ _ hinv4)
  refine wp_bind.mpr (wp_require _ ?_ fun e => moves_error _ _ hinv4)
  refine wp_bind.mpr (wp_require _ ?_ fun e => moves_error _ _ hinv4)
  refine wp_bind.mpr (wp_ensure (fun hhash => ?_) (moves_error _ _ hinv4))
  refine moves_finish t _ _ hinv4 ⟨p, quote, hgrows4.data c p hp3, by rw [hitem4]; exact hstate, ?_⟩
  rw [hitem4]
  exact {
    length := by omega
    verified := hverified
    maced := rfl
    hashed := fun hsigner => (of_decide_eq_true hhash).resolve_left fun hne => hne hsigner }

theorem wp_copyKey {Q : Answer → State τ → Prop} (type : KeyType) (hinv : Inv crypto w)
    (howned : Owned t p item w)
    (hQ : ∀ key w', Grows w w' → Inv crypto w' → (w'.mem.heap p).state = .procMsg2ed →
      (w'.mem.heap p).key type = some key → Q (.key key) w')
    (hE : ∀ e w', Grows w w' → Inv crypto w' → E e w') :
    wp (Inv crypto) Rely t (copyKey p type) (fun a => Ends crypto t (.item p) (Q a))
      (fun e => Ends crypto t (.item p) (E e)) w := by
  refine wp_bind.mpr (wp_readItem hinv howned fun w1 hgrows1 hinv1 howned1 => ?_)
  refine wp_bind.mpr (wp_ensure (fun hstate => ?_)
    ⟨hinv1, howned1.owner, fun w' hgrows => hE _ w' (hgrows1.trans hgrows)⟩)
  replace hstate : item.state = .procMsg2ed := of_decide_eq_true hstate
  refine wp_bind.mpr (wp_readItem hinv1 howned1 fun w2 hgrows2 hinv2 howned2 => ?_)
  have hgrows : Grows w w2 := hgrows1.trans hgrows2
  cases hkey : item.key type with
  | none => exact ⟨hinv2, howned2.owner, fun w' hgrows' => hE _ w' (hgrows.trans hgrows')⟩
  | some key =>
    refine ⟨hinv2, howned2.owner, fun w' hgrows' hinv' => hQ _ w' (hgrows.trans hgrows') hinv' ?_ ?_⟩
    all_goals
      have hitem := hgrows'.item p (howned2.lt hinv2)
      rw [howned2.heap] at hitem
      rw [hitem.keys hstate]
    . exact hstate
    . exact hkey

theorem wp_sgxRaGetKeys (c : Nat) (type : KeyType) (argsOk keyInside : Bool) (hinv : Inv crypto w) :
    wp (Inv crypto) Rely t (sgxRaGetKeys c type argsOk keyInside)
      (fun a w => Moves (Inv crypto) Rely t w (w.finish (.getKeys c type argsOk keyInside) (.ok a)))
      (fun e w => Moves (Inv crypto) Rely t w (w.finish (.getKeys c type argsOk keyInside) (.error e))) w := by
  refine wp_bind.2 (wp_enter c argsOk hinv (fun w1 p _ hinv1 hp1 => ?_) fun e w' _ => moves_error _ e)
  refine wp_bind.2 (wp_ensure (fun _ => ?_) (moves_error _ _ hinv1))
  refine wp_locked hinv1 (fun q hq => Lock.item.inj hq ▸ hinv1.data c p hp1) fun w2 hgrows2 hinv2 howner2 => ?_
  refine wp_copyKey type hinv2 ⟨howner2, rfl⟩ (fun key w3 hgrows3 hinv3 hstate hkey => ?_) fun e w' _ => moves_error _ e
  exact moves_finish t _ _ hinv3 ⟨p, (hgrows2.trans hgrows3).data c p hp1, hstate, hkey⟩

structure Item.Fresh (item : Item) (w : State τ) : Prop where
  state : item.state = .inited
  kdfCookie : w.mem.kdfCookie ≠ 0
  origin : ∃ pse cb argsOk, .initEx item.spPubkey pse cb argsOk ∈ w.started ∧
    item.deriveKeyCb = cb ^^^ w.mem.kdfCookie

theorem Item.Fresh.grows {w w' : State τ} (h : item.Fresh w) (hgrows : Grows w w') : item.Fresh w' := by
  obtain ⟨pse, cb, argsOk, hstarted, hcb⟩ := h.origin
  have hsame := hgrows.kdfCookie h.kdfCookie
  exact ⟨h.state, by rw [hsame]; exact h.kdfCookie, pse, cb, argsOk,
    hgrows.started _ hstarted, by rw [hsame]; exact hcb⟩

theorem data_size_eq {w : State τ} (hinv : Inv crypto w) (h : w.mem.size < w.mem.capacity) :
    w.mem.data[w.mem.size]? = some none := by
  have hlt : w.mem.size < w.mem.data.length := by
    rw [hinv.capacity]
    exact h
  have hsome := getElem?_eq_getElem hlt
  cases hentry : w.mem.data[w.mem.size] with
  | none => rw [hsome, hentry]
  | some p =>
    rw [hentry] at hsome
    exact absurd (hinv.spare _ p hsome) (lt_irrefl _)

theorem entry_grow {m : Mem} (n k : Nat) {c p : Nat} :
    { m with data := m.data ++ replicate n none, capacity := k : Mem }.Entry c p ↔ m.Entry c p := by
  unfold Mem.Entry
  rw [getElem?_append]
  split
  . exact Iff.rfl
  next hc =>
  rw [getElem?_replicate, getElem?_eq_none (Nat.le_of_not_lt hc)]
  split <;> simp

theorem wp_growBy {Q : Unit → State τ → Prop} {f : Mem → Mem} (hinv : Inv crypto w) (howner : w.owner .db = some t)
    (hf : f w.mem = { w.mem with
      data := w.mem.data ++ replicate initSize none, capacity := w.mem.capacity + initSize })
    (hQ : ∀ w', Grows w w' → Inv crypto w' → w'.owner .db = some t → w'.mem.size = w.mem.size →
      w'.mem.size < w'.mem.capacity → Q () w') :
    wp (Inv crypto) Rely t (store f) Q E w := by
  have hsize := hinv.size
  have hmoves : Moves (Inv crypto) Rely t w (w.setMem (f w.mem)) := by
    rw [hf]
    refine moves_db hinv howner rfl rfl ?_ (by simp only; omega) rfl (fun c p => entry_grow _ _) fun _ => rfl
    simp [hinv.capacity]
  have hgrows : Grows w (w.setMem (f w.mem)) := by
    rw [hf]
    exact ⟨fun _ hc => hc, fun _ => rfl, fun c p hp => (entry_grow _ _).2 hp, le_refl _, fun _ _ => .refl _⟩
  refine wp_store hmoves fun w' hrely hinv' => ?_
  obtain ⟨howner', hsize', hcapacity', -⟩ := hrely.2 _ howner
  rw [hf] at hsize' hcapacity'
  refine hQ w' (hgrows.trans hrely.1) hinv' howner' hsize' ?_
  rw [hsize', hcapacity']
  change w.mem.size < w.mem.capacity + 10
  omega

theorem wp_vectorGrow {Q : Unit → State τ → Prop} (hinv : Inv crypto w) (howner : w.owner .db = some t)
    (hQ : ∀ w', Grows w w' → Inv crypto w' → w'.owner .db = some t → w'.mem.size = w.mem.size →
      w'.mem.size < w'.mem.capacity → Q () w')
    (hE : ∀ e w', Grows w w' → Inv crypto w' → w'.owner .db = some t → E e w') :
    wp (Inv crypto) Rely t vectorGrow Q E w := by
  refine wp_bind.2 (wp_load (fun u => Rely.refl u w) hinv fun w1 hrely1 hinv1 => ?_)
  obtain ⟨howner1, hsize1, hcapacity1, -⟩ := hrely1.2 _ howner
  refine wp_bind.2 (wp_load (fun u => Rely.refl u w1) hinv1 fun w2 hrely2 hinv2 => ?_)
  obtain ⟨howner2, hsize2, hcapacity2, -⟩ := hrely2.2 _ howner1
  have hgrows : Grows w w2 := hrely1.1.trans hrely2.1
  rw [← hcapacity1, ← hcapacity2, ← hsize2]
  split
  . next hzero =>
    have hempty : w2.mem.data = [] := length_eq_zero_iff.1 (hinv2.capacity.trans hzero)
    refine wp_bind.2 (wp_require _ ?_ fun e => hE _ w2 hgrows hinv2 howner2)
    exact wp_growBy hinv2 howner2 (by rw [hempty, hzero]; rfl) fun w' hgrows' hinv' howner' hsize' =>
      hQ w' (hgrows.trans hgrows') hinv' howner' (hsize'.trans (hsize2.trans hsize1))
  next hne =>
  split
  . next hfull =>
    refine wp_bind.2 (wp_ensure (fun _ => ?_) (hE _ w2 hgrows hinv2 howner2))
    refine wp_bind.2 (wp_require _ ?_ fun e => hE _ w2 hgrows hinv2 howner2)
    exact wp_growBy hinv2 howner2 rfl fun w' hgrows' hinv' howner' hsize' =>
      hQ w' (hgrows.trans hgrows') hinv' howner' (hsize'.trans (hsize2.trans hsize1))
  . next hroom =>
    have hsize := hinv2.size
    exact hQ w2 hgrows hinv2 howner2 (hsize2.trans hsize1) (by omega)

theorem wp_publish {Q : Unit → State τ → Prop} {index size : Nat} {f : Mem → Mem} (hinv : Inv crypto w)
    (howner : w.owner .db = some t) (hf : f w.mem = w.mem.publish index size item)
    (hindex : w.mem.data[index]? = some none) (hle : w.mem.size ≤ size) (hlt : index < size)
    (hsize : size ≤ w.mem.capacity) (hfresh : item.Fresh w)
    (hQ : ∀ w', Grows w w' → Inv crypto w' → w'.owner .db = some t →
      (∃ p, w'.mem.Entry index p ∧ (w'.mem.heap p).spPubkey = item.spPubkey) → Q () w') :
    wp (Inv crypto) Rely t (store f) Q E w := by
  have hmoves : Moves (Inv crypto) Rely t w (w.setMem (f w.mem)) := by
    rw [hf]
    exact moves_publish hinv howner hindex hle hlt hsize hfresh.state hfresh.kdfCookie hfresh.origin
  have hheap : ∀ p, p < w.mem.allocated → (w.mem.publish index size item).heap p = w.mem.heap p :=
    fun p hp => Function.update_of_ne (Nat.ne_of_lt hp) ..
  have hgrows : Grows w (w.setMem (f w.mem)) := by
    rw [hf]
    exact ⟨fun _ hc => hc, fun _ => rfl, fun c p hp => (entry_publish size item hindex).2 (.inr hp), le_succ _,
      fun p hp => by rw [show (w.setMem (w.mem.publish index size item)).mem.heap p = _ from hheap p hp]; exact .refl _⟩
  refine wp_store hmoves fun w' hrely hinv' => ?_
  have hentry : (f w.mem).Entry index w.mem.allocated := by
    rw [hf]
    exact (entry_publish size item hindex).2 (.inl ⟨rfl, rfl⟩)
  have hlt : w.mem.allocated < (f w.mem).allocated := by
    rw [hf]
    exact lt_succ_self _
  have hnew : (f w.mem).heap w.mem.allocated = item := by
    rw [hf]
    exact Function.update_self ..
  refine hQ w' (hgrows.trans hrely.1) hinv' (hrely.2 _ howner).1 ⟨_, hrely.1.data _ _ hentry, ?_⟩
  rw [(hrely.1.item _ hlt).spPubkey]
  exact congrArg Item.spPubkey hnew

theorem data_eq_of_findIdx {data : List (Option Nat)} {n i : Nat}
    (h : (data.take n).findIdx? (·.isNone) = some i) : i < n ∧ data[i]? = some none := by
  obtain ⟨hlt, hnone, -⟩ := findIdx?_eq_some_iff_getElem.1 h
  have hi : i < n ∧ i < data.length := by
    rw [length_take] at hlt
    omega
  refine ⟨hi.1, ?_⟩
  rw [getElem?_eq_getElem hi.2]
  rw [getElem_take] at hnone
  exact congrArg some (Option.isNone_iff_eq_none.1 hnone)

theorem wp_insert {Q : Answer → State τ → Prop} (hinv : Inv crypto w) (howner : w.owner .db = some t)
    (hfresh : item.Fresh w)
    (hQ : ∀ c w', Grows w w' → Inv crypto w' →
      (∃ p, w'.mem.Entry c p ∧ (w'.mem.heap p).spPubkey = item.spPubkey) → Q (.context c) w')
    (hE : ∀ e w', Grows w w' → Inv crypto w' → E e w') :
    wp (Inv crypto) Rely t (insert item) (fun a => Ends crypto t .db (Q a)) (fun e => Ends crypto t .db (E e)) w := by
  have hends : ∀ c w1, Grows w w1 → Inv crypto w1 → w1.owner .db = some t →
      (∃ p, w1.mem.Entry c p ∧ (w1.mem.heap p).spPubkey = item.spPubkey) →
      Ends crypto t .db (Q (.context c)) w1 := by
    rintro c w1 hgrows1 hinv1 howner1 ⟨p, hp, hspPubkey⟩
    refine ⟨hinv1, howner1, fun w2 hgrows2 hinv2 => hQ c w2 (hgrows1.trans hgrows2) hinv2 ⟨p, hgrows2.data c p hp, ?_⟩⟩
    exact (hgrows2.item p (hinv1.data c p hp)).spPubkey.trans hspPubkey
  refine wp_bind.2 (wp_load (fun u => Rely.refl u w) hinv fun w1 hrely1 hinv1 => ?_)
  obtain ⟨howner1, hsize1, -, -⟩ := hrely1.2 _ howner
  refine wp_bind.2 (wp_load (fun u => Rely.refl u w1) hinv1 fun w2 hrely2 hinv2 => ?_)
  obtain ⟨howner2, hsize2, -, hdata2⟩ := hrely2.2 _ howner1
  have hgrows : Grows w w2 := hrely1.1.trans hrely2.1
  have hsize : w2.mem.size = w.mem.size := hsize2.trans hsize1
  have hfresh2 := hfresh.grows hgrows
  rw [← hsize, ← hdata2]
  cases hfirst : (w2.mem.data.take w2.mem.size).findIdx? (·.isNone) with
  | some i =>
    obtain ⟨hlt, hnone⟩ := data_eq_of_findIdx hfirst
    exact wp_bind.2 (wp_publish hinv2 howner2 rfl hnone (le_refl _) hlt hinv2.size hfresh2
      fun w3 hgrows3 hinv3 howner3 hentry => hends i w3 (hgrows.trans hgrows3) hinv3 howner3 hentry)
  | none =>
    have hE2 : ∀ e w3, Grows w2 w3 → Inv crypto w3 → w3.owner .db = some t → Ends crypto t .db (E e) w3 :=
      fun e w3 hgrows3 hinv3 howner3 =>
        ⟨hinv3, howner3, fun w4 hgrows4 => hE e w4 ((hgrows.trans hgrows3).trans hgrows4)⟩
    refine wp_bind.2 (wp_ensure (fun _ => ?_) (hE2 _ w2 (.refl _) hinv2 howner2))
    refine wp_bind.2 (wp_bind.2 (wp_vectorGrow hinv2 howner2
      (fun w3 hgrows3 hinv3 howner3 hsize3 hroom => ?_) fun e w3 => hE2 e w3))
    refine wp_publish hinv3 howner3 rfl (data_size_eq hinv3 hroom) (le_succ _) (lt_succ_self _) hroom
      (hfresh2.grows hgrows3) fun w4 hgrows4 hinv4 howner4 hentry => ?_
    rw [hsize3] at hentry
    exact hends _ w4 ((hgrows.trans hgrows3).trans hgrows4) hinv4 howner4 hentry

theorem wp_initCookie {Q : Unit → State τ → Prop} (hinv : Inv crypto w)
    (hQ : ∀ w', Grows w w' → Inv crypto w' → w'.mem.kdfCookie ≠ 0 → Q () w')
    (hE : ∀ e w', Grows w w' → Inv crypto w' → E e w') :
    wp (Inv crypto) Rely t initCookie Q E w := by
  refine wp_bind.2 (wp_loadAny hinv fun w1 hgrows1 hinv1 => ?_)
  split
  . refine wp_bind.2 (wp_require _ ?_ fun e => hE _ w1 hgrows1 hinv1)
    refine wp_bind.2 (wp_choose fun rand hrand => ?_)
    refine wp_locked hinv1 db_ne_item fun w2 hgrows2 hinv2 howner2 => ?_
    let cookie := if w2.mem.kdfCookie = 0 then rand else w2.mem.kdfCookie
    have hcookie : cookie ≠ 0 := by
      change (if w2.mem.kdfCookie = 0 then rand else w2.mem.kdfCookie) ≠ 0
      split
      . exact hrand
      . assumption
    have hsame : w2.mem.kdfCookie ≠ 0 → cookie = w2.mem.kdfCookie := fun h => if_neg h
    have hgrows3 : Grows w2 (w2.setMem { w2.mem with kdfCookie := cookie }) :=
      ⟨fun _ hc => hc, hsame, fun _ _ hp => hp, le_refl _, fun _ _ => .refl _⟩
    refine wp_store (moves_db hinv2 howner2 rfl rfl hinv2.capacity hinv2.size rfl (fun _ _ => Iff.rfl) hsame)
      fun w4 hrely4 hinv4 => ?_
    refine ⟨hinv4, (hrely4.2 _ howner2).1, fun w5 hgrows5 hinv5 => ?_⟩
    have hgrows45 := hrely4.1.trans hgrows5
    refine hQ w5 (((hgrows1.trans hgrows2).trans hgrows3).trans hgrows45) hinv5 ?_
    rw [hgrows45.kdfCookie hcookie]
    exact hcookie
  . next hne =>
    refine hQ w1 hgrows1 hinv1 ?_
    rw [hgrows1.kdfCookie hne]
    exact hne

theorem wp_psSecProp {Q : List UInt8 → State τ → Prop} (pse : Bool) (hQ : ∀ prop, Q prop w) (hE : ∀ e, E e w) :
    wp (Inv crypto) Rely t (psSecProp pse) Q E w := by
  cases pse with
  | false => exact hQ _
  | true => exact wp_bind.2 (wp_require _ (wp_choose fun prop _ => hQ prop) fun e => hE _)

theorem wp_sgxRaInitEx (pubKey : PublicKey) (pse : Bool) (cb : UInt64) (argsOk : Bool) (hinv : Inv crypto w)
    (hstarted : .initEx pubKey pse cb argsOk ∈ w.started) :
    wp (Inv crypto) Rely t (sgxRaInitEx crypto pubKey pse cb argsOk)
      (fun a w => Moves (Inv crypto) Rely t w (w.finish (.initEx pubKey pse cb argsOk) (.ok a)))
      (fun e w => Moves (Inv crypto) Rely t w (w.finish (.initEx pubKey pse cb argsOk) (.error e))) w := by
  refine wp_bind.2 (wp_initCookie hinv (fun w1 hgrows1 hinv1 hcookie => ?_) fun e w' _ => moves_error _ e)
  refine wp_bind.2 (wp_ensure (fun _ => ?_) (moves_error _ _ hinv1))
  refine wp_bind.2 (wp_require _ ?_ fun e => moves_error _ _ hinv1)
  refine wp_bind.2 (wp_require _ ?_ fun e => moves_error _ _ hinv1)
  refine wp_bind.2 (wp_ensure (fun _ => ?_) (moves_error _ _ hinv1))
  refine wp_bind.2 (wp_require _ ?_ fun e => moves_error _ _ hinv1)
  refine wp_bind.2 (wp_psSecProp pse (fun prop => ?_) fun e => moves_error _ _ hinv1)
  refine wp_bind.2 (wp_loadAny hinv1 fun w2 hgrows2 hinv2 => ?_)
  refine wp_locked hinv2 db_ne_item fun w3 hgrows3 hinv3 howner3 => ?_
  have hfresh : Item.Fresh
      { Item.zero with spPubkey := pubKey, psSecProp := prop, deriveKeyCb := cb ^^^ w1.mem.kdfCookie }
      w1 := ⟨rfl, hcookie, pse, cb, argsOk, hgrows1.started _ hstarted, rfl⟩
  refine wp_insert hinv3 howner3 (hfresh.grows (hgrows2.trans hgrows3)) (fun c w4 _ hinv4 hentry => ?_)
    fun e w' _ => moves_error _ e
  exact moves_finish t _ _ hinv4 hentry

end

end TkeyExchange
