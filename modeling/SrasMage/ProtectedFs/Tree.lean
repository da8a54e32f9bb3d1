import SrasMage.Bytes
import SrasMage.ProtectedFs.Impl.State
import SrasMage.ProtectedFs.Lemmas.Nodes

/-!
This module contains the tree of plaintexts that a protected file stands for.
-/

namespace ProtectedFs

namespace NodeId

def number : NodeId → Nat
  | mht m => m
  | data d => d

def isData : NodeId → Bool
  | mht _ => false
  | data _ => true

def zero : NodeId → Plain
  | mht _ => .mht MhtNode.zero
  | data _ => .data DataNode.zero

theorem parent_ne (i : NodeId) (hi : i ≠ mht 0) : mht i.parent ≠ i := by
  cases i with
  | data d => simp
  | mht m =>
    have hm : m ≠ 0 := fun h => hi (by rw [h])
    have := parent_mht_lt hm
    intro h
    rw [mht.injEq] at h
    omega

end NodeId

namespace MhtNode

variable (m : MhtNode) (c : GcmCryptoData)

def crypto : NodeId → GcmCryptoData
  | .mht n => m.mhtCrypto n
  | .data n => m.dataCrypto n

def setCrypto : NodeId → MhtNode
  | .mht n => m.setMhtCrypto n c
  | .data n => m.setDataCrypto n c

theorem crypto_setCrypto_self (i : NodeId) : (m.setCrypto c i).crypto i = c := by
  cases i <;> simp [crypto, setCrypto, mhtCrypto, dataCrypto, setMhtCrypto, setDataCrypto]

theorem crypto_setCrypto_of_ne {i j : NodeId} (hi : i ≠ .mht 0) (hj : j ≠ .mht 0)
    (hparent : i.parent = j.parent) (hne : j ≠ i) : (m.setCrypto c i).crypto j = m.crypto j := by
  cases i with
  | data d =>
    cases j with
    | mht n => rfl
    | data d' =>
      have hd : d' ≠ d := fun h => hne (by rw [h])
      apply Function.update_of_ne
      simp only [NodeId.parent, attachedDataNodesCount] at hparent
      simp only [Fin.ofNat, ne_eq, Fin.mk.injEq, attachedDataNodesCount]
      omega
  | mht n =>
    cases j with
    | data d' => rfl
    | mht n' =>
      have hn : n' ≠ n := fun h => hne (by rw [h])
      have hpos : n ≠ 0 := fun h => hi (by rw [h])
      have hpos' : n' ≠ 0 := fun h => hj (by rw [h])
      apply Function.update_of_ne
      simp only [NodeId.parent, childMhtNodesCount] at hparent
      simp only [Fin.ofNat, ne_eq, Fin.mk.injEq, childMhtNodesCount]
      omega

end MhtNode

structure Tree where
  root : GcmCryptoData
  mht : Nat → MhtNode
  data : Nat → DataNode

namespace Tree

def zero : Tree := ⟨⟨0, 0⟩, fun _ => MhtNode.zero, fun _ => DataNode.zero⟩

def plain (t : Tree) : NodeId → Plain
  | .mht m => .mht (t.mht m)
  | .data d => .data (t.data d)

def crypto (t : Tree) (i : NodeId) : GcmCryptoData :=
  if i = .mht 0 then t.root else (t.mht i.parent).crypto i

def setCrypto (t : Tree) (i : NodeId) (c : GcmCryptoData) : Tree :=
  if i = .mht 0 then { t with root := c }
  else { t with mht := Function.update t.mht i.parent ((t.mht i.parent).setCrypto c i) }

def setData (t : Tree) (d : Nat) (node : DataNode) : Tree :=
  { t with data := Function.update t.data d node }

variable (t : Tree)

@[simp]
theorem plain_isData (i : NodeId) : (t.plain i).isData = i.isData := by
  cases i <;> rfl

@[simp]
theorem plain_zero (i : NodeId) : zero.plain i = i.zero := by
  cases i <;> rfl

@[simp]
theorem data_setCrypto (i : NodeId) (c : GcmCryptoData) : (t.setCrypto i c).data = t.data := by
  unfold setCrypto
  split <;> rfl

variable {i : NodeId} (c : GcmCryptoData)

theorem mht_setCrypto_self (hi : i ≠ .mht 0) (c : GcmCryptoData) :
    (t.setCrypto i c).mht i.parent = (t.mht i.parent).setCrypto c i := by simp [setCrypto, hi]

theorem mht_setCrypto_of_ne {m : Nat} (h : i = .mht 0 ∨ m ≠ i.parent) : (t.setCrypto i c).mht m = t.mht m := by
  rcases h with rfl | h
  . simp [setCrypto]
  unfold setCrypto
  split
  . rfl
  . simp [h]

theorem plain_setCrypto_of_ne {j : NodeId} (h : i = .mht 0 ∨ j ≠ .mht i.parent) :
    (t.setCrypto i c).plain j = t.plain j := by
  cases j with
  | data d => simp [plain]
  | mht m =>
    have hm : i = .mht 0 ∨ m ≠ i.parent := h.imp_right (fun h' hm => h' (by rw [hm]))
    simp [plain, mht_setCrypto_of_ne t c hm]

theorem plain_setCrypto_parent (hi : i ≠ .mht 0) (c : GcmCryptoData) : (t.setCrypto i c).plain (.mht i.parent) =
    (t.plain (.mht i.parent)).mapMht (fun m => m.setCrypto c i) := by
  simp [plain, Plain.mapMht, mht_setCrypto_self t hi]

theorem plain_setCrypto_self (i : NodeId) (c : GcmCryptoData) : (t.setCrypto i c).plain i = t.plain i := by
  apply plain_setCrypto_of_ne
  by_cases hi : i = .mht 0
  . exact .inl hi
  . exact .inr (NodeId.parent_ne i hi).symm

theorem crypto_setCrypto_self (i : NodeId) (c : GcmCryptoData) : (t.setCrypto i c).crypto i = c := by
  by_cases hi : i = .mht 0
  . simp [crypto, setCrypto, hi]
  . rw [crypto, if_neg hi, mht_setCrypto_self t hi, MhtNode.crypto_setCrypto_self]

theorem root_setCrypto_of_ne (hi : i ≠ .mht 0) (c : GcmCryptoData) : (t.setCrypto i c).root = t.root := by
  simp [setCrypto, hi]

theorem crypto_setCrypto_of_ne {j : NodeId} (hne : j ≠ i) : (t.setCrypto i c).crypto j = t.crypto j := by
  unfold crypto
  by_cases hj : j = .mht 0
  . have hi : i ≠ .mht 0 := fun h => hne (hj.trans h.symm)
    simp [hj, root_setCrypto_of_ne t hi]
  rw [if_neg hj, if_neg hj]
  by_cases hi : i = .mht 0
  . rw [mht_setCrypto_of_ne t c (.inl hi)]
  by_cases hparent : j.parent = i.parent
  . rw [hparent, mht_setCrypto_self t hi]
    exact MhtNode.crypto_setCrypto_of_ne _ c hi hj hparent.symm hne
  . rw [mht_setCrypto_of_ne t c (.inr hparent)]

theorem plain_setData_self (d : Nat) (node : DataNode) : (t.setData d node).plain (.data d) = .data node := by
  simp [plain, setData]

theorem plain_setData_of_ne {d : Nat} (node : DataNode) (h : i ≠ .data d) : (t.setData d node).plain i = t.plain i := by
  cases i with
  | mht m => rfl
  | data d' =>
    have hd : d' ≠ d := fun h' => h (by rw [h'])
    simp [plain, setData, hd]

def byte (head : Fin mdUserDataSize → UInt8) (offset : Nat) : UInt8 :=
  if h : offset < mdUserDataSize then head ⟨offset, h⟩
  else
    t.data ((offset - mdUserDataSize) / nodeSize) (Fin.ofNat nodeSize ((offset - mdUserDataSize) % nodeSize))

def bytes (head : Fin mdUserDataSize → UInt8) (size : Nat) : List UInt8 :=
  Bytes.tabulate (t.byte head) size

end Tree

variable {N : Type}

namespace Platform

variable (P : Platform N)

def pack : Plain → N
  | .mht m => P.packMht m
  | .data d => P.packData d

def unpack (b : N) : NodeId → Plain
  | .mht _ => .mht (P.unpackMht b)
  | .data _ => .data (P.unpackData b)

theorem unpack_pack [LawfulPlatform P] (t : Tree) (i : NodeId) : P.unpack (P.pack (t.plain i)) i = t.plain i := by
  cases i <;> simp [pack, unpack, Tree.plain]

def GcmCorrect : Prop :=
  ∀ key plain, P.rijndael128GcmDecrypt key (P.rijndael128GcmEncrypt key plain).1
      (P.rijndael128GcmEncrypt key plain).2 = some plain

def Seals (E : Key × N → Prop) (c : GcmCryptoData) (cipher plain : N) : Prop :=
  E (c.key, plain) ∧ P.rijndael128GcmEncrypt c.key plain = (cipher, c.gmac)

theorem Seals.decrypt {P : Platform N} {E : Key × N → Prop} {c : GcmCryptoData} {cipher plain : N}
    (h : P.Seals E c cipher plain) (hP : P.GcmCorrect) :
    P.rijndael128GcmDecrypt c.key cipher c.gmac = some plain := by
  have := hP c.key plain
  rwa [h.2] at this

end Platform

end ProtectedFs
