import SrasMage.TkeyExchange.Calls

/-!
This module contains that all keys of a session come from one authenticated exchange, however its calls are
interleaved.
-/

namespace TkeyExchange

open Threads

theorem inv_of_reachable {τ : Type} [DecidableEq τ] {crypto : Crypto} {x : Config Mem Lock SgxError τ Call Answer}
    (h : Reachable (Call.code crypto) Mem.init x) : Inv crypto x.world := by
  refine h.invariant inv_init Rely.refl Rely.trans moves_start (fun t w w' c hrely hc => hrely.1.started c hc) ?_
  intro t c w hinv hstarted
  cases c with
  | initEx pubKey pse cb argsOk => exact wp_sgxRaInitEx pubKey pse cb argsOk hinv hstarted
  | getGa c argsOk => exact wp_sgxRaGetGa c argsOk hinv
  | procMsg2 c msg2 qeTarget argsOk => exact wp_sgxRaProcMsg2Trusted c msg2 qeTarget argsOk hinv hstarted
  | getMsg3 c r argsOk => exact wp_sgxRaGetMsg3Trusted c r argsOk hinv
  | getKeys c type argsOk keyInside => exact wp_sgxRaGetKeys c type argsOk keyInside hinv

def Keys.key (keys : Keys) : KeyType → Option Key
  | .mk => some keys.mkey
  | .sk => some keys.skey
  | .other _ => none

structure Exchange where
  a : PrivateKey
  gA : PublicKey
  spPubkey : PublicKey
  deriveKeyCb : UInt64
  msg2 : Msg2
  keys : Keys

structure Exchange.Authenticated (crypto : Crypto) (x : Exchange) : Prop where
  keyPair : x.gA = crypto.publicKey x.a
  signed : crypto.ecdsaVerify (x.msg2.gB.toList ++ x.gA.toList) x.spPubkey x.msg2.signGbGa = true
  derived : Derives crypto x.deriveKeyCb (crypto.sharedDhkey x.a x.msg2.gB) x.msg2.kdfId x.keys
  maced : crypto.cmac x.keys.smkey x.msg2.maced = x.msg2.mac

structure Exchange.Of {τ : Type} (x : Exchange) (w : State τ) (c : Nat) : Prop where
  opened : ∃ pse argsOk, .initEx x.spPubkey pse x.deriveKeyCb argsOk ∈ w.started
  opened_eq : ∀ pubKey pse cb argsOk, (.initEx pubKey pse cb argsOk, .ok (.context c)) ∈ w.finished →
    pubKey = x.spPubkey
  gA_eq : ∀ argsOk gA, (.getGa c argsOk, .ok (.ga gA)) ∈ w.finished → gA = x.gA
  processed : ∃ qeTarget argsOk, .procMsg2 c x.msg2 qeTarget argsOk ∈ w.started
  keys_eq : ∀ type argsOk keyInside key, (.getKeys c type argsOk keyInside, .ok (.key key)) ∈ w.finished →
    x.keys.key type = some key

theorem Authentic.key_eq {crypto : Crypto} {item : Item} {keyCb : UInt64} {msg2 : Msg2} {keys : Keys}
    (h : Authentic crypto item keyCb msg2 keys) (type : KeyType) : item.key type = keys.key type := by
  cases type with
  | sk => exact congrArg some h.skKey
  | mk => exact congrArg some h.mkKey
  | other _ => rfl

/--
If a call has returned a key of a context, all its keys come from one exchange.
-/
theorem sgxRaGetKeys_exchange {τ : Type} [DecidableEq τ] (crypto : Crypto)
    (x : Config Mem Lock SgxError τ Call Answer) (h : Reachable (Call.code crypto) Mem.init x)
    (c : Nat) (type : KeyType)
    (argsOk keyInside : Bool) (key : Key)
    (hkey : (.getKeys c type argsOk keyInside, .ok (.key key)) ∈ x.world.finished) :
    ∃ exchange : Exchange, exchange.Authenticated crypto ∧ exchange.Of x.world c := by
  have hinv := inv_of_reachable h
  obtain ⟨p, hp, hstate, -⟩ := hinv.finished _ hkey
  have hlt := hinv.data c p hp
  obtain ⟨c', msg2, qeTarget, argsOk', keys, hstarted, hp', hauthentic⟩ := hinv.processed p hlt hstate
  obtain rfl := hinv.distinct c c' p hp hp'
  obtain ⟨pse, cb, argsOk'', hopened, hcb⟩ := hinv.origin p hlt
  have hsame : ∀ {q}, x.world.mem.Entry c q → q = p := by
    intro q hq
    exact Option.some.inj (Option.some.inj (hq.symm.trans hp))
  have hkeyCb : (x.world.mem.heap p).deriveKeyCb ^^^ x.world.mem.kdfCookie = cb := by
    rw [hcb, UInt64.xor_assoc, UInt64.xor_self, UInt64.xor_zero]
  rw [hkeyCb] at hauthentic
  refine ⟨⟨(x.world.mem.heap p).a, (x.world.mem.heap p).gA, (x.world.mem.heap p).spPubkey, cb, msg2, keys⟩, ?_, ?_⟩
  . exact ⟨hinv.keyPair p hlt (by rw [hstate]; decide), hauthentic.signed, hauthentic.derived, hauthentic.maced⟩
  refine ⟨⟨pse, argsOk'', hopened⟩, ?_, ?_, ⟨qeTarget, argsOk', hstarted⟩, ?_⟩
  . intro pubKey pse cb argsOk hfinished
    obtain ⟨q, hq, hspPubkey⟩ := hinv.finished _ hfinished
    rw [hsame hq] at hspPubkey
    exact hspPubkey.symm
  . intro argsOk gA hfinished
    obtain ⟨q, hq, -, hgA⟩ := hinv.finished _ hfinished
    rw [hsame hq] at hgA
    exact hgA.symm
  . intro type argsOk keyInside key hfinished
    obtain ⟨q, hq, -, hkey⟩ := hinv.finished _ hfinished
    rw [hsame hq, hauthentic.key_eq] at hkey
    exact hkey

section

variable {τ α β : Type} {t : τ} {w : State τ} {g : α → M β} {b : β} {m : Mem}

def Alone (t : τ) (p : M α) (w : State τ) (a : α) (m : Mem) : Prop := Exec t p w (.ok a) (w.setMem m)

theorem Alone.bind {p : M α} {a : α} {m1 : Mem} (hp : Alone t p w a m1) (hg : Alone t (g a) (w.setMem m1) b m) :
    Alone t (p >>= g) w b m :=
  Exec.bind hp hg

theorem Alone.pure (a : α) : Alone t (Pure.pure a) w a w.mem := Exec.pure a

theorem Alone.load {f : Mem → α} (h : Alone t (g (f w.mem)) w b m) : Alone t (load f >>= g) w b m :=
  Exec.bind (Exec.load f) h

theorem Alone.store {g : Unit → M β} {f : Mem → Mem} (h : Alone t (g ()) (w.setMem (f w.mem)) b m) :
    Alone t (store f >>= g) w b m :=
  Exec.bind (Exec.store f) h

theorem Alone.choose {p : α → Prop} (a : α) (ha : p a) (h : Alone t (g a) w b m) : Alone t (choose p >>= g) w b m :=
  Exec.bind (Exec.choose ha) h

theorem Alone.require {g : Unit → M β} {convert : SgxError → SgxError} (h : Alone t (g ()) w b m) :
    Alone t (require convert >>= g) w b m :=
  Exec.bind (Alone.choose none trivial (.pure ())) h

theorem Alone.ensure {g : Unit → M β} {ok : Bool} {e : SgxError} (hok : ok = true) (h : Alone t (g ()) w b m) :
    Alone t (ensure ok e >>= g) w b m := by
  subst hok
  exact Exec.bind (Exec.pure ()) h

theorem Alone.withLock {l : Lock} {body : M α} {a : α} (hfree : w.owner l = none)
    (h : Alone t body (w.setOwner l (some t)) a m) : Alone t (withLock l body) w a m := by
  have howner : Function.update (Function.update w.owner l (some t)) l none = w.owner := by
    rw [Function.update_idem, ← hfree, Function.update_eq_self]
  have hexec := Exec.withLock hfree h
  rw [show (((w.setOwner l (some t)).setMem m).setOwner l none) = { w with
    mem := m, owner := Function.update (Function.update w.owner l (some t)) l none } from rfl, howner] at hexec
  exact hexec

theorem Alone.enter {g : Nat → M β} {c p : Nat} (hfree : w.owner .db = none) (hsize : c < w.mem.size)
    (hget : w.mem.vectorGet c = some p) (h : Alone t (g p) w b m) : Alone t (enter c true >>= g) w b m := by
  have hitem : Alone t (Threads.withLock .db (Threads.load fun m => m.vectorGet c)) w (some p) w.mem := by
    rw [← hget]
    exact Alone.withLock hfree (Exec.load _)
  have hlookup : Alone t (lookup c) w p w.mem := hitem.bind (.pure p)
  exact Alone.bind (.load (.ensure (decide_eq_true ⟨hsize, rfl⟩) hlookup)) h

theorem alone_initCookie (hfree : w.owner .db = none) (hcookie : w.mem.kdfCookie = 0) :
    Alone t initCookie w () { w.mem with kdfCookie := 1 } := by
  refine .load ?_
  rw [if_pos hcookie]
  refine .require (.choose 1 (by decide) (Alone.withLock hfree ?_))
  have hstore : Alone t _ (w.setOwner .db (some t)) () _ :=
    Exec.store fun m => { m with kdfCookie := if m.kdfCookie = 0 then 1 else m.kdfCookie }
  rw [show (w.setOwner .db (some t)).mem = w.mem from rfl, if_pos hcookie] at hstore
  exact hstore

theorem alone_insert {item : Item} (hmem : w.mem = { Mem.init with kdfCookie := 1 }) :
    Alone t (insert item) w (.context 0)
      { heap := Function.update (fun _ => .zero) 0 item, allocated := 1, size := 1, capacity := 10
        data := (List.replicate 10 none).set 0 (some 0), kdfCookie := 1 } := by
  obtain ⟨mem, owner, started, finished⟩ := w
  cases hmem
  have hgrow : Alone t vectorGrow ⟨{ Mem.init with kdfCookie := 1 }, owner, started, finished⟩ ()
      { Mem.init with data := List.replicate 10 none, capacity := 10, kdfCookie := 1 } :=
    .load (.load (.require (Exec.store _)))
  have hpush : Alone t (vectorPushBack item) ⟨{ Mem.init with kdfCookie := 1 }, owner, started, finished⟩ () _ :=
    hgrow.bind (Exec.store _)
  exact .load (.load (.ensure rfl (hpush.bind (.pure _))))

theorem alone_sgxRaInitEx (crypto : Crypto) (t : τ) (pubKey : PublicKey)
    (hfree : ∀ l, w.owner l = none) (hmem : w.mem = .init)
    (hpoint : crypto.checkPoint pubKey = true) :
    ∃ m, Alone t (sgxRaInitEx crypto pubKey false 0 true) w (.context 0) m ∧ m.size = 1 ∧ m.vectorGet 0 = some 0 ∧
      m.kdfCookie = 1 ∧ (m.heap 0).state = .inited ∧ (m.heap 0).deriveKeyCb = 1 := by
  refine ⟨_, Alone.bind (alone_initCookie (hfree _) (by rw [hmem]; rfl))
    (.ensure rfl (.require (.require (.ensure hpoint
    (.require (Alone.bind (.pure _) (.load (Alone.withLock (hfree _) (alone_insert ?_))))))))), rfl, rfl, rfl, rfl, ?_⟩
  . change { w.mem with kdfCookie := 1 } = _
    rw [hmem]
  . change (0 : UInt64) ^^^ 1 = 1
    decide

theorem alone_sgxRaGetGa (crypto : Crypto) (t : τ) {c p : Nat} (a : PrivateKey) (hfree : ∀ l, w.owner l = none)
    (hsize : c < w.mem.size) (hget : w.mem.vectorGet c = some p) (hstate : (w.mem.heap p).state = .inited) :
    ∃ m, Alone t (sgxRaGetGa crypto c true) w (.ga (crypto.publicKey a)) m ∧ m.size = w.mem.size ∧
      m.vectorGet c = some p ∧ m.kdfCookie = w.mem.kdfCookie ∧ (m.heap p).state = .getGaed ∧
      (m.heap p).deriveKeyCb = (w.mem.heap p).deriveKeyCb := by
  refine ⟨_, Alone.enter (hfree _) hsize hget (Alone.withLock (hfree _) (.load (.ensure (decide_eq_true hstate)
    (.require (.require (.choose (a, crypto.publicKey a) rfl (.store (.store (.store (.pure _)))))))))), rfl, hget, rfl,
    ?_, ?_⟩
  . simp [World.setMem]
  . simp [World.setMem, World.setOwner]

theorem alone_writeKeys (t : τ) (w : State τ) (p : Nat) (msg2 : Msg2) (keys : Keys) (qeTarget : TargetInfo)
    (nonce : QuoteNonce) :
    ∃ heap, Alone t (writeKeys p msg2 keys qeTarget nonce) w () { w.mem with heap } ∧ (heap p).qeTarget = qeTarget := by
  refine ⟨_, .store (.store (.store (.store (.store (.store (Exec.store _)))))), ?_⟩
  simp [World.setMem]

theorem alone_sgxRaProcMsg2Trusted (crypto : Crypto) (t : τ) {c p : Nat} {msg2 : Msg2} (qeTarget : TargetInfo)
    (hfree : ∀ l, w.owner l = none) (hsize : c < w.mem.size) (hget : w.mem.vectorGet c = some p)
    (hstate : (w.mem.heap p).state = .getGaed) (hcb : (w.mem.heap p).deriveKeyCb = w.mem.kdfCookie)
    (hkdf : msg2.kdfId = 1)
    (hsigned : crypto.ecdsaVerify (msg2.gB.toList ++ (w.mem.heap p).gA.toList)
      (w.mem.heap p).spPubkey msg2.signGbGa = true)
    (hmac : crypto.cmac (crypto.defaultKeys (crypto.sharedDhkey (w.mem.heap p).a msg2.gB)).smkey
      msg2.maced = msg2.mac) :
    ∃ a m, Alone t (sgxRaProcMsg2Trusted crypto c msg2 qeTarget true) w a m ∧ m.size = w.mem.size ∧
      m.vectorGet c = some p ∧ (m.heap p).state = .procMsg2ed ∧ (m.heap p).qeTarget = qeTarget := by
  have hsnapshot : Alone t (snapshot p) (w.setOwner (.item p) (some t))
      ⟨(w.mem.heap p).a, (w.mem.heap p).gA, (w.mem.heap p).spPubkey, 0⟩ w.mem := by
    refine .load (.ensure (decide_eq_true hstate) (.load (.load (.load (.load ?_)))))
    have hzero : (w.mem.heap p).deriveKeyCb ^^^ w.mem.kdfCookie = 0 := by rw [hcb, UInt64.xor_self]
    rw [show (w.setOwner (.item p) (some t)).mem = w.mem from rfl, hzero]
    exact .pure _
  have hkeys : Alone t (deriveKeys crypto 0 (crypto.sharedDhkey (w.mem.heap p).a msg2.gB) msg2.kdfId) w
      (crypto.defaultKeys (crypto.sharedDhkey (w.mem.heap p).a msg2.gB)) w.mem := by
    rw [deriveKeys, if_neg (not_not.2 rfl), if_pos hkdf]
    exact .require (.require (.require (.require (.pure _))))
  obtain ⟨heap, hwrite, htarget⟩ := alone_writeKeys t (w.setOwner (.item p) (some t)) p msg2
    (crypto.defaultKeys (crypto.sharedDhkey (w.mem.heap p).a msg2.gB)) qeTarget (.replicate 16 0)
  refine ⟨_, _, Alone.enter (hfree _) hsize hget (Alone.bind (Alone.withLock (hfree _) hsnapshot) (.require (.require
    (.require (.ensure hsigned (Alone.bind hkeys (.require (.ensure (decide_eq_true hmac) (.require
    (.choose (.replicate 16 0) trivial (Alone.withLock (hfree _) (.load (.ensure (decide_eq_true hstate)
    (Alone.bind hwrite (.load (.require (.require (.store (.pure _))))))))))))))))))), rfl, hget, ?_, ?_⟩
  . simp [World.setMem]
  . simpa [World.setMem] using htarget

theorem alone_sgxRaGetKeys {c p : Nat} (hfree : ∀ l, w.owner l = none) (hsize : c < w.mem.size)
    (hget : w.mem.vectorGet c = some p) (hstate : (w.mem.heap p).state = .procMsg2ed) :
    Alone t (sgxRaGetKeys c .mk true true) w (.key (w.mem.heap p).mkKey) w.mem :=
  Alone.enter (hfree _) hsize hget (.ensure rfl (Alone.withLock (hfree _) (.load (.ensure (decide_eq_true hstate)
    (.load (.pure _))))))

end

def zeroCrypto : Crypto where
  checkPoint _ := true
  publicKey _ := .replicate 64 0
  sharedDhkey _ _ := .replicate 32 0
  ecdsaVerify _ _ _ := true
  deriveKey _ _ := .replicate 16 0
  kdf _ _ _ _ := False
  cmac _ _ := .replicate 16 0
  sha256 _ := .replicate 32 0
  createReport _ _ := []
  verifyReport _ := true

def zeroMsg2 : Msg2 where
  gB := .replicate 64 0
  spid := .replicate 16 0
  quoteType := 0
  kdfId := 1
  signGbGa := .replicate 64 0
  mac := .replicate 16 0

theorem reachable_alone {crypto : Crypto} {w : State Unit} {c : Call} {a : Answer} {m : Mem}
    (h : Reachable (Call.code crypto) Mem.init ⟨w, fun _ => none⟩) (halone : Alone () (c.code crypto) (w.start c) a m) :
    Reachable (Call.code crypto) Mem.init ⟨((w.start c).setMem m).finish c (.ok a), fun _ => none⟩ :=
  h.exec c halone

def zeroTarget : TargetInfo := ⟨.replicate 32 0, .replicate 16 0, []⟩

theorem reachable_procMsg2 :
    ∃ w : State Unit, Reachable (Call.code zeroCrypto) Mem.init ⟨w, fun _ => none⟩ ∧ (∀ l, w.owner l = none) ∧
      0 < w.mem.size ∧ w.mem.vectorGet 0 = some 0 ∧ (w.mem.heap 0).state = .procMsg2ed ∧
      (w.mem.heap 0).qeTarget = zeroTarget := by
  let c1 : Call := .initEx (.replicate 64 0) false 0 true
  let c2 : Call := .getGa 0 true
  let c3 : Call := .procMsg2 0 zeroMsg2 zeroTarget true
  let w0 : State Unit := ⟨.init, fun _ => none, [], []⟩
  obtain ⟨m1, h1, hsize1, hget1, hcookie1, hstate1, hcb1⟩ :
      ∃ m, Alone () (c1.code zeroCrypto) (w0.start c1) (.context 0) m ∧ _ :=
    alone_sgxRaInitEx zeroCrypto () (.replicate 64 0) (fun _ => rfl) rfl rfl
  let w1 := ((w0.start c1).setMem m1).finish c1 (.ok (.context 0))
  obtain ⟨m2, h2, hsize2, hget2, hcookie2, hstate2, hcb2⟩ :
      ∃ m, Alone () (c2.code zeroCrypto) (w1.start c2) (.ga (.replicate 64 0)) m ∧ _ :=
    alone_sgxRaGetGa zeroCrypto () (.replicate 32 0) (fun _ => rfl) (hsize1 ▸ Nat.zero_lt_one) hget1 hstate1
  let w2 := ((w1.start c2).setMem m2).finish c2 (.ok (.ga (.replicate 64 0)))
  obtain ⟨a, m3, h3, hsize3, hget3, hstate3, htarget3⟩ : ∃ a m, Alone () (c3.code zeroCrypto) (w2.start c3) a m ∧ _ :=
    alone_sgxRaProcMsg2Trusted zeroCrypto () _ (fun _ => rfl) (hsize2.symm ▸ hsize1 ▸ Nat.zero_lt_one) hget2 hstate2
      (hcb2.trans (hcb1.trans (hcookie2.trans hcookie1).symm)) rfl rfl rfl
  exact ⟨_, reachable_alone (reachable_alone (reachable_alone .init h1) h2) h3, fun _ => rfl,
    hsize3.symm ▸ hsize2.symm ▸ hsize1 ▸ Nat.zero_lt_one, hget3, hstate3, htarget3⟩

theorem sgxRaGetKeys_exchange_alone :
    ∃ (x : Config Mem Lock SgxError Unit Call Answer) (key : Key), Reachable (Call.code zeroCrypto) Mem.init x ∧
      (.getKeys 0 .mk true true, .ok (.key key)) ∈ x.world.finished ∧
      ∃ exchange : Exchange, exchange.Authenticated zeroCrypto ∧ exchange.Of x.world 0 := by
  obtain ⟨w, hreachable, hfree, hsize, hget, hstate, -⟩ := reachable_procMsg2
  let c : Call := .getKeys 0 .mk true true
  have halone : Alone () (c.code zeroCrypto) (w.start c) (.key (w.mem.heap 0).mkKey) w.mem :=
    alone_sgxRaGetKeys hfree hsize hget hstate
  have hreachable' := reachable_alone hreachable halone
  have hmem : (c, .ok (.key (w.mem.heap 0).mkKey)) ∈
      (World.finish (w.start c) c (.ok (.key (w.mem.heap 0).mkKey))).finished :=
    List.mem_append_right _ (List.mem_singleton.mpr rfl)
  exact ⟨_, _, hreachable', hmem, sgxRaGetKeys_exchange zeroCrypto _ hreachable' 0 .mk true true _ hmem⟩

end TkeyExchange
