import SrasMage.TkeyExchange.Session

/-!
This module contains what holds between any two steps of the threads that work with sessions, and what one
thread may rely on while the others go on.
-/

namespace TkeyExchange

open Threads Nat Function

abbrev State (τ : Type) := World Mem Lock SgxError τ Call Answer

def Mem.Entry (m : Mem) (c p : Nat) : Prop := m.data[c]? = some (some p)

structure Item.Evolves (item item' : Item) : Prop where
  spPubkey : item'.spPubkey = item.spPubkey
  deriveKeyCb : item'.deriveKeyCb = item.deriveKeyCb
  keyPair : item.state ≠ .inited → item'.state ≠ .inited ∧ item'.a = item.a ∧ item'.gA = item.gA
  keys : item.state = .procMsg2ed → item' = item

theorem Item.Evolves.refl (item : Item) : item.Evolves item := ⟨rfl, rfl, fun h => ⟨h, rfl, rfl⟩, fun _ => rfl⟩

theorem Item.Evolves.trans {item item' item'' : Item} (h : item.Evolves item') (h' : item'.Evolves item'') :
    item.Evolves item'' where
  spPubkey := h'.spPubkey.trans h.spPubkey
  deriveKeyCb := h'.deriveKeyCb.trans h.deriveKeyCb
  keyPair hstate := by
    obtain ⟨hstate', ha, hgA⟩ := h.keyPair hstate
    obtain ⟨hstate'', ha', hgA'⟩ := h'.keyPair hstate'
    exact ⟨hstate'', ha'.trans ha, hgA'.trans hgA⟩
  keys hstate := by
    obtain rfl := h.keys hstate
    exact h'.keys hstate

section

variable {τ : Type}

structure Grows (w w' : State τ) : Prop where
  started : ∀ c ∈ w.started, c ∈ w'.started
  kdfCookie : w.mem.kdfCookie ≠ 0 → w'.mem.kdfCookie = w.mem.kdfCookie
  data : ∀ c p, w.mem.Entry c p → w'.mem.Entry c p
  allocated : w.mem.allocated ≤ w'.mem.allocated
  item : ∀ p, p < w.mem.allocated → (w.mem.heap p).Evolves (w'.mem.heap p)

theorem Grows.refl (w : State τ) : Grows w w :=
  ⟨fun _ h => h, fun _ => rfl, fun _ _ h => h, le_refl _, fun _ _ => .refl _⟩

theorem Grows.trans {w w' w'' : State τ} (h : Grows w w') (h' : Grows w' w'') : Grows w w'' where
  started c hc := h'.started c (h.started c hc)
  kdfCookie hcookie := by
    have hsame := h.kdfCookie hcookie
    rw [← hsame] at hcookie
    exact (h'.kdfCookie hcookie).trans hsame
  data c p hp := h'.data c p (h.data c p hp)
  allocated := le_trans h.allocated h'.allocated
  item p hp := (h.item p hp).trans (h'.item p (lt_of_lt_of_le hp h.allocated))

def Lock.Protects : Lock → Mem → Mem → Prop
  | .db, m, m' => m'.size = m.size ∧ m'.capacity = m.capacity ∧ m'.data = m.data
  | .item p, m, m' => m'.heap p = m.heap p

theorem Lock.Protects.refl (l : Lock) (m : Mem) : l.Protects m m := by
  cases l with
  | db => exact ⟨rfl, rfl, rfl⟩
  | item p => exact rfl

theorem Lock.Protects.trans {l : Lock} {m m' m'' : Mem} (h : l.Protects m m') (h' : l.Protects m' m'') :
    l.Protects m m'' := by
  cases l with
  | db => exact ⟨h'.1.trans h.1, h'.2.1.trans h.2.1, h'.2.2.trans h.2.2⟩
  | item p => exact Eq.trans h' h

def Rely (t : τ) (w w' : State τ) : Prop :=
  Grows w w' ∧ ∀ l, w.owner l = some t → w'.owner l = some t ∧ l.Protects w.mem w'.mem

theorem Rely.refl (t : τ) (w : State τ) : Rely t w w := ⟨.refl w, fun l h => ⟨h, .refl l w.mem⟩⟩

theorem Rely.trans (t : τ) (w w' w'' : State τ) (h : Rely t w w') (h' : Rely t w' w'') : Rely t w w'' := by
  refine ⟨h.1.trans h'.1, ?_⟩
  intro l hl
  obtain ⟨hl', hprotects⟩ := h.2 l hl
  obtain ⟨hl'', hprotects'⟩ := h'.2 l hl'
  exact ⟨hl'', hprotects.trans hprotects'⟩

def Derives (crypto : Crypto) (keyCb : UInt64) (dhKey : SharedKey) (kdfId : UInt16) (keys : Keys) : Prop :=
  if keyCb ≠ 0 then crypto.kdf keyCb dhKey kdfId keys else kdfId = 1 ∧ keys = crypto.defaultKeys dhKey

structure Authentic (crypto : Crypto) (item : Item) (keyCb : UInt64) (msg2 : Msg2) (keys : Keys) : Prop where
  signed : crypto.ecdsaVerify (msg2.gB.toList ++ item.gA.toList) item.spPubkey msg2.signGbGa = true
  derived : Derives crypto keyCb (crypto.sharedDhkey item.a msg2.gB) msg2.kdfId keys
  maced : crypto.cmac keys.smkey msg2.maced = msg2.mac
  skKey : item.skKey = keys.skey
  mkKey : item.mkKey = keys.mkey

def Processed (crypto : Crypto) (w : State τ) (p : Nat) (item : Item) : Prop :=
  ∃ c msg2 qeTarget argsOk keys, .procMsg2 c msg2 qeTarget argsOk ∈ w.started ∧ w.mem.Entry c p ∧
    Authentic crypto item (item.deriveKeyCb ^^^ w.mem.kdfCookie) msg2 keys

structure Quoted (crypto : Crypto) (item : Item) (r : Msg3Request) (msg3 : Msg3) (quote : List UInt8) : Prop where
  length : quote.length = r.quoteSize
  verified : crypto.verifyReport r.qeReport = true
  maced : msg3.mac = crypto.cmac item.smkKey (item.gA.toList ++ item.psSecProp ++ quote)
  hashed : r.qeReport.mrSigner = gQeMrsigner →
    r.qeReport.reportData.toList.take 32 = (crypto.sha256 (item.quoteNonce.toList ++ quote)).toList

def Reports (crypto : Crypto) (w : State τ) : Call × Except SgxError Answer → Prop
  | (.initEx pubKey _ _ _, .ok (.context c)) =>
    ∃ p, w.mem.Entry c p ∧ (w.mem.heap p).spPubkey = pubKey
  | (.getGa c _, .ok (.ga gA)) =>
    ∃ p, w.mem.Entry c p ∧ (w.mem.heap p).state ≠ .inited ∧ (w.mem.heap p).gA = gA
  | (.getMsg3 c r _, .ok (.msg3 msg3)) =>
    ∃ p quote, w.mem.Entry c p ∧ (w.mem.heap p).state = .procMsg2ed ∧ Quoted crypto (w.mem.heap p) r msg3 quote
  | (.getKeys c type _ _, .ok (.key key)) =>
    ∃ p, w.mem.Entry c p ∧ (w.mem.heap p).state = .procMsg2ed ∧ (w.mem.heap p).key type = some key
  | _ => True

structure Inv (crypto : Crypto) (w : State τ) : Prop where
  capacity : w.mem.data.length = w.mem.capacity
  size : w.mem.size ≤ w.mem.capacity
  spare : ∀ c p, w.mem.Entry c p → c < w.mem.size
  data : ∀ c p, w.mem.Entry c p → p < w.mem.allocated
  distinct : ∀ c c' p, w.mem.Entry c p → w.mem.Entry c' p → c = c'
  locked : ∀ p t, w.owner (.item p) = some t → p < w.mem.allocated
  kdfCookie : 0 < w.mem.allocated → w.mem.kdfCookie ≠ 0
  origin : ∀ p, p < w.mem.allocated → ∃ pse cb argsOk, .initEx (w.mem.heap p).spPubkey pse cb argsOk ∈ w.started ∧
    (w.mem.heap p).deriveKeyCb = cb ^^^ w.mem.kdfCookie
  keyPair : ∀ p, p < w.mem.allocated → (w.mem.heap p).state ≠ .inited →
    (w.mem.heap p).gA = crypto.publicKey (w.mem.heap p).a
  processed : ∀ p, p < w.mem.allocated → (w.mem.heap p).state = .procMsg2ed → Processed crypto w p (w.mem.heap p)
  finished : ∀ e ∈ w.finished, Reports crypto w e

variable {crypto : Crypto} {w w' : State τ}

theorem inv_init : Inv crypto (⟨.init, fun _ => none, [], []⟩ : State τ) where
  capacity := rfl
  size := le_refl _
  spare := nofun
  data := nofun
  distinct := nofun
  locked := nofun
  kdfCookie := nofun
  origin := nofun
  keyPair := nofun
  processed := nofun
  finished := nofun

theorem Reports.grows {e : Call × Except SgxError Answer} (h : Reports crypto w e) (hinv : Inv crypto w)
    (hgrows : Grows w w') : Reports crypto w' e := by
  unfold Reports at h ⊢
  split at h
  . obtain ⟨p, hp, hpub⟩ := h
    exact ⟨p, hgrows.data _ _ hp, (hgrows.item p (hinv.data _ _ hp)).spPubkey.trans hpub⟩
  . obtain ⟨p, hp, hstate, hgA⟩ := h
    obtain ⟨hstate', -, hgA'⟩ := (hgrows.item p (hinv.data _ _ hp)).keyPair hstate
    exact ⟨p, hgrows.data _ _ hp, hstate', hgA'.trans hgA⟩
  . obtain ⟨p, quote, hp, hstate, hquoted⟩ := h
    have hsame := (hgrows.item p (hinv.data _ _ hp)).keys hstate
    exact ⟨p, quote, hgrows.data _ _ hp, by rw [hsame]; exact hstate, by rw [hsame]; exact hquoted⟩
  . obtain ⟨p, hp, hstate, hkey⟩ := h
    have hsame := (hgrows.item p (hinv.data _ _ hp)).keys hstate
    exact ⟨p, hgrows.data _ _ hp, by rw [hsame]; exact hstate, by rw [hsame]; exact hkey⟩
  . trivial

theorem Processed.grows {p : Nat} {item : Item} (h : Processed crypto w p item) (hcookie : w.mem.kdfCookie ≠ 0)
    (hgrows : Grows w w') : Processed crypto w' p item := by
  obtain ⟨c, msg2, qeTarget, argsOk, keys, hstarted, hp, hauthentic⟩ := h
  refine ⟨c, msg2, qeTarget, argsOk, keys, hgrows.started _ hstarted, hgrows.data _ _ hp, ?_⟩
  rw [hgrows.kdfCookie hcookie]
  exact hauthentic

structure Owned (t : τ) (p : Nat) (item : Item) (w : State τ) : Prop where
  owner : w.owner (.item p) = some t
  heap : w.mem.heap p = item

theorem Owned.rely {t : τ} {p : Nat} {item : Item} (h : Owned t p item w) (hrely : Rely t w w') :
    Owned t p item w' := by
  obtain ⟨howner, hheap⟩ := hrely.2 _ h.owner
  exact ⟨howner, Eq.trans hheap h.heap⟩

theorem moves_start (t : τ) (c : Call) (w : State τ) (h : Inv crypto w) : Moves (Inv crypto) Rely t w (w.start c) := by
  have hgrows : Grows w (w.start c) :=
    ⟨fun _ hc => List.mem_append_left _ hc, fun _ => rfl, fun _ _ hp => hp, le_refl _, fun _ _ => .refl _⟩
  refine ⟨?_, fun u _ => ⟨hgrows, fun l hl => ⟨hl, .refl _ _⟩⟩⟩
  exact {
    capacity := h.capacity
    size := h.size
    spare := h.spare
    data := h.data
    distinct := h.distinct
    locked := h.locked
    kdfCookie := h.kdfCookie
    origin := fun p hp =>
      let ⟨pse, cb, argsOk, hstarted, hcb⟩ := h.origin p hp
      ⟨pse, cb, argsOk, hgrows.started _ hstarted, hcb⟩
    keyPair := h.keyPair
    processed := fun p hp hstate => (h.processed p hp hstate).grows (h.kdfCookie (zero_lt_of_lt hp)) hgrows
    finished := fun e he => (h.finished e he).grows h hgrows }

theorem moves_finish (t : τ) (c : Call) (r : Except SgxError Answer) (h : Inv crypto w)
    (hreports : Reports crypto w (c, r)) :
    Moves (Inv crypto) Rely t w (w.finish c r) := by
  have hgrows : Grows w (w.finish c r) :=
    ⟨fun _ hc => hc, fun _ => rfl, fun _ _ hp => hp, le_refl _, fun _ _ => .refl _⟩
  refine ⟨{ h with finished := ?_ }, fun u _ => ⟨hgrows, fun l hl => ⟨hl, .refl _ _⟩⟩⟩
  intro e he
  rcases List.mem_append.1 he with he | he
  . exact h.finished e he
  . rw [List.mem_singleton.1 he]
    exact hreports

theorem moves_acquire (t : τ) {l : Lock} (h : Inv crypto w) (hfree : w.owner l = none)
    (hl : ∀ p, l = .item p → p < w.mem.allocated) : Moves (Inv crypto) Rely t w (w.setOwner l (some t)) := by
  have hgrows : Grows w (w.setOwner l (some t)) :=
    ⟨fun _ hc => hc, fun _ => rfl, fun _ _ hp => hp, le_refl _, fun _ _ => .refl _⟩
  refine ⟨{ h with locked := ?_ }, fun u _ => ⟨hgrows, fun l' hl' => ⟨?_, .refl _ _⟩⟩⟩
  . intro p u hu
    by_cases hp : Lock.item p = l
    . exact hl p hp.symm
    . exact h.locked p u (by simpa [World.setOwner, update_of_ne hp] using hu)
  have hne : l' ≠ l := by
    rintro rfl
    rw [hfree] at hl'
    cases hl'
  simpa [World.setOwner, update_of_ne hne] using hl'

theorem moves_release (t : τ) {l : Lock} (h : Inv crypto w) (howner : w.owner l = some t) :
    Moves (Inv crypto) Rely t w (w.setOwner l none) := by
  have hgrows : Grows w (w.setOwner l none) :=
    ⟨fun _ hc => hc, fun _ => rfl, fun _ _ hp => hp, le_refl _, fun _ _ => .refl _⟩
  refine ⟨{ h with locked := ?_ }, fun u hu => ⟨hgrows, fun l' hl' => ⟨?_, .refl _ _⟩⟩⟩
  . intro p u hu
    by_cases hp : Lock.item p = l
    . simp [World.setOwner, hp] at hu
    . exact h.locked p u (by simpa [World.setOwner, update_of_ne hp] using hu)
  have hne : l' ≠ l := by
    rintro rfl
    rw [howner] at hl'
    exact hu (Option.some.inj hl').symm
  simpa [World.setOwner, update_of_ne hne] using hl'

theorem evolves_update {heap : Nat → Item} {p : Nat} {item : Item} (h : (heap p).Evolves item) (q : Nat) :
    (heap q).Evolves (update heap p item q) := by
  by_cases hq : q = p
  . subst hq
    rw [update_self]
    exact h
  . rw [update_of_ne hq]
    exact .refl _

theorem grows_writeItem {p : Nat} {item : Item} (h : (w.mem.heap p).Evolves item) :
    Grows w (w.setMem { w.mem with heap := update w.mem.heap p item }) :=
  ⟨fun _ hc => hc, fun _ => rfl, fun _ _ hp => hp, le_refl _, fun q _ => evolves_update h q⟩

theorem moves_writeItem {t : τ} {p : Nat} {item item' : Item} (h : Inv crypto w) (howned : Owned t p item w)
    (hevolves : item.Evolves item')
    (hpair : item.state = .inited → item'.state ≠ .inited → item'.gA = crypto.publicKey item'.a)
    (hprocessed : item'.state = .procMsg2ed → Processed crypto w p item') :
    Moves (Inv crypto) Rely t w (w.setMem { w.mem with heap := update w.mem.heap p item' }) := by
  obtain ⟨howner, rfl⟩ := howned
  have hcookie : w.mem.kdfCookie ≠ 0 := h.kdfCookie (zero_lt_of_lt (h.locked p t howner))
  have hitem := evolves_update hevolves
  have hgrows := grows_writeItem (w := w) hevolves
  refine ⟨?_, fun u hu => ⟨hgrows, fun l hl => ⟨hl, ?_⟩⟩⟩
  . exact { h with
      origin := fun q hq => by
        obtain ⟨pse, cb, argsOk, hstarted, hcb⟩ := h.origin q hq
        refine ⟨pse, cb, argsOk, ?_, (hitem q).deriveKeyCb.trans hcb⟩
        rw [show (World.setMem w _).mem.heap q = update w.mem.heap p item' q from rfl, (hitem q).spPubkey]
        exact hstarted
      keyPair := fun q hq hstate => by
        by_cases hqp : q = p
        . subst hqp
          have hnew : update w.mem.heap q item' q = item' := update_self ..
          rw [show (World.setMem w _).mem.heap q = update w.mem.heap q item' q from rfl, hnew] at hstate ⊢
          by_cases hinited : (w.mem.heap q).state = .inited
          . exact hpair hinited hstate
          obtain ⟨-, ha, hgA⟩ := hevolves.keyPair hinited
          rw [ha, hgA]
          exact h.keyPair q hq hinited
        . have hold : update w.mem.heap p item' q = w.mem.heap q := update_of_ne hqp ..
          rw [show (World.setMem w _).mem.heap q = update w.mem.heap p item' q from rfl, hold] at hstate ⊢
          exact h.keyPair q hq hstate
      processed := fun q hq hstate => by
        by_cases hqp : q = p
        . subst hqp
          have hnew : update w.mem.heap q item' q = item' := update_self ..
          rw [show (World.setMem w _).mem.heap q = update w.mem.heap q item' q from rfl, hnew] at hstate ⊢
          exact (hprocessed hstate).grows hcookie hgrows
        . have hold : update w.mem.heap p item' q = w.mem.heap q := update_of_ne hqp ..
          rw [show (World.setMem w _).mem.heap q = update w.mem.heap p item' q from rfl, hold] at hstate ⊢
          exact (h.processed q hq hstate).grows hcookie hgrows
      finished := fun e he => (h.finished e he).grows h hgrows }
  . cases l with
    | db => exact ⟨rfl, rfl, rfl⟩
    | item q =>
      have hq : q ≠ p := by
        rintro rfl
        rw [howner] at hl
        exact hu (Option.some.inj hl).symm
      exact update_of_ne hq ..

theorem moves_db {t : τ} {m : Mem} (h : Inv crypto w) (howner : w.owner .db = some t) (hheap : m.heap = w.mem.heap)
    (hallocated : m.allocated = w.mem.allocated) (hcapacity : m.data.length = m.capacity) (hsize : m.size ≤ m.capacity)
    (hsame : m.size = w.mem.size) (hdata : ∀ c p, m.Entry c p ↔ w.mem.Entry c p)
    (hcookie : w.mem.kdfCookie ≠ 0 → m.kdfCookie = w.mem.kdfCookie) :
    Moves (Inv crypto) Rely t w (w.setMem m) := by
  have hgrows : Grows w (w.setMem m) :=
    ⟨fun _ hc => hc, hcookie, fun c p hp => (hdata c p).mpr hp, le_of_eq hallocated.symm,
      fun p _ => by rw [show (w.setMem m).mem.heap = w.mem.heap from hheap]; exact .refl _⟩
  refine ⟨?_, fun u hu => ⟨hgrows, fun l hl => ⟨hl, ?_⟩⟩⟩
  . exact {
      capacity := hcapacity
      size := hsize
      spare := fun c p hp => hsame ▸ h.spare c p ((hdata c p).mp hp)
      data := fun c p hp => hallocated ▸ h.data c p ((hdata c p).mp hp)
      distinct := fun c c' p hp hp' => h.distinct c c' p ((hdata c p).mp hp) ((hdata c' p).mp hp')
      locked := fun p u hu => hallocated ▸ h.locked p u hu
      kdfCookie := fun hpos => by
        have hne := h.kdfCookie (hallocated ▸ hpos)
        rw [show (w.setMem m).mem.kdfCookie = m.kdfCookie from rfl, hcookie hne]
        exact hne
      origin := fun p hp => by
        have hp' : p < w.mem.allocated := hallocated ▸ hp
        obtain ⟨pse, cb, argsOk, hstarted, hcb⟩ := h.origin p hp'
        refine ⟨pse, cb, argsOk, ?_, ?_⟩
        . rw [show (w.setMem m).mem.heap = w.mem.heap from hheap]
          exact hstarted
        rw [show (w.setMem m).mem.heap = w.mem.heap from hheap,
          show (w.setMem m).mem.kdfCookie = m.kdfCookie from rfl, hcookie (h.kdfCookie (zero_lt_of_lt hp'))]
        exact hcb
      keyPair := fun p hp hstate => by
        rw [show (w.setMem m).mem.heap = w.mem.heap from hheap] at hstate ⊢
        exact h.keyPair p (hallocated ▸ hp) hstate
      processed := fun p hp hstate => by
        have hp' : p < w.mem.allocated := hallocated ▸ hp
        rw [show (w.setMem m).mem.heap = w.mem.heap from hheap] at hstate ⊢
        exact (h.processed p hp' hstate).grows (h.kdfCookie (zero_lt_of_lt hp')) hgrows
      finished := fun e he => (h.finished e he).grows h hgrows }
  . cases l with
    | db =>
      rw [howner] at hl
      exact absurd (Option.some.inj hl).symm hu
    | item q => exact congrFun hheap q

theorem entry_publish {m : Mem} {index : Nat} (size : Nat) (item : Item) (hindex : m.data[index]? = some none)
    {c p : Nat} :
    (m.publish index size item).Entry c p ↔ (c = index ∧ p = m.allocated) ∨ m.Entry c p := by
  have hlength : index < m.data.length := (List.getElem?_eq_some_iff.1 hindex).1
  unfold Mem.Entry Mem.publish
  by_cases hc : c = index
  . subst hc
    rw [List.getElem?_set_self hlength, hindex]
    simp [eq_comm]
  . rw [List.getElem?_set_ne (Ne.symm hc)]
    simp [hc]

theorem moves_publish {t : τ} {index size : Nat} {item : Item} (h : Inv crypto w) (howner : w.owner .db = some t)
    (hindex : w.mem.data[index]? = some none) (hle : w.mem.size ≤ size) (hlt : index < size)
    (hsize : size ≤ w.mem.capacity) (hstate : item.state = .inited) (hcookie : w.mem.kdfCookie ≠ 0)
    (horigin : ∃ pse cb argsOk, .initEx item.spPubkey pse cb argsOk ∈ w.started ∧
      item.deriveKeyCb = cb ^^^ w.mem.kdfCookie) :
    Moves (Inv crypto) Rely t w (w.setMem (w.mem.publish index size item)) := by
  have hheap : ∀ p, p < w.mem.allocated → (w.mem.publish index size item).heap p = w.mem.heap p :=
    fun p hp => update_of_ne (Nat.ne_of_lt hp) ..
  have hnew : (w.mem.publish index size item).heap w.mem.allocated = item := update_self ..
  have hgrows : Grows w (w.setMem (w.mem.publish index size item)) :=
    ⟨fun _ hc => hc, fun _ => rfl, fun c p hp => (entry_publish size item hindex).mpr (.inr hp), le_succ _,
      fun p hp => by rw [show (w.setMem (w.mem.publish index size item)).mem.heap p = _ from hheap p hp]; exact .refl _⟩
  have hcases : ∀ p, p < w.mem.allocated + 1 → p < w.mem.allocated ∨ p = w.mem.allocated := by omega
  refine ⟨?_, fun u hu => ⟨hgrows, fun l hl => ⟨hl, ?_⟩⟩⟩
  . exact {
      capacity := (List.length_set ..).trans h.capacity
      size := hsize
      spare := fun c p hp => by
        rcases (entry_publish size item hindex).mp hp with ⟨rfl, -⟩ | hp
        . exact hlt
        . exact lt_of_lt_of_le (h.spare c p hp) hle
      data := fun c p hp => by
        rcases (entry_publish size item hindex).mp hp with ⟨-, rfl⟩ | hp
        . exact lt_succ_self _
        . exact lt_succ_of_lt (h.data c p hp)
      distinct := fun c c' p hp hp' => by
        rcases (entry_publish size item hindex).mp hp with ⟨hc, rfl⟩ | hold
        . rcases (entry_publish size item hindex).mp hp' with ⟨hc', -⟩ | hold'
          . exact hc.trans hc'.symm
          . exact absurd (h.data _ _ hold') (lt_irrefl _)
        rcases (entry_publish size item hindex).mp hp' with ⟨-, rfl⟩ | hold'
        . exact absurd (h.data _ _ hold) (lt_irrefl _)
        . exact h.distinct c c' p hold hold'
      locked := fun p u hu => lt_succ_of_lt (h.locked p u hu)
      kdfCookie := fun _ => hcookie
      origin := fun p hp => by
        rcases hcases p hp with hp | rfl
        . obtain ⟨pse, cb, argsOk, hstarted, hcb⟩ := h.origin p hp
          rw [show (w.setMem (w.mem.publish index size item)).mem.heap p = _ from hheap p hp]
          exact ⟨pse, cb, argsOk, hstarted, hcb⟩
        . rw [show (w.setMem (w.mem.publish index size item)).mem.heap _ = _ from hnew]
          exact horigin
      keyPair := fun p hp hstate' => by
        rcases hcases p hp with hp | rfl
        . rw [show (w.setMem (w.mem.publish index size item)).mem.heap p = _ from hheap p hp] at hstate' ⊢
          exact h.keyPair p hp hstate'
        . rw [show (w.setMem (w.mem.publish index size item)).mem.heap _ = _ from hnew] at hstate'
          exact absurd hstate hstate'
      processed := fun p hp hprocessed => by
        rcases hcases p hp with hp | rfl
        . rw [show (w.setMem (w.mem.publish index size item)).mem.heap p = _ from hheap p hp] at hprocessed ⊢
          exact (h.processed p hp hprocessed).grows hcookie hgrows
        . rw [show (w.setMem (w.mem.publish index size item)).mem.heap _ = _ from hnew, hstate] at hprocessed
          cases hprocessed
      finished := fun e he => (h.finished e he).grows h hgrows }
  . cases l with
    | db =>
      rw [howner] at hl
      exact absurd (Option.some.inj hl).symm hu
    | item q => exact hheap q (h.locked q u hl)

end

end TkeyExchange
