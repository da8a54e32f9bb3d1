import SrasMage.ProtectedFs.Nodes

/-!
This module contains the facts about the node numbering.
-/

namespace ProtectedFs

namespace NodeId

theorem physical_injective : Function.Injective physical := by
  intro x y h
  cases x <;> cases y <;>
    simp only [physical, physicalMhtNode, physicalDataNode, attachedDataNodesCount] at h
  . rw [mht.injEq]
    omega
  . omega
  . omega
  . rw [data.injEq]
    omega

theorem physical_pos (i : NodeId) : 0 < i.physical := by
  cases i <;>
    simp only [physical, physicalMhtNode, physicalDataNode, attachedDataNodesCount] <;>
    omega

theorem parent_mht_lt {m : Nat} (h : m ≠ 0) : (mht m).parent < m := by
  simp only [parent, childMhtNodesCount]
  omega

theorem exists_physical_iff (n : Nat) : (∃ i : NodeId, i.physical = n) ↔ 0 < n := by
  refine ⟨fun ⟨i, h⟩ => h ▸ i.physical_pos, fun h => ?_⟩
  -- a block of 97 nodes starts with its MHT node
  by_cases hblock : (n - 1) % 97 = 0
  . refine ⟨mht ((n - 1) / 97), ?_⟩
    simp only [physical, physicalMhtNode, attachedDataNodesCount]
    omega
  refine ⟨data ((n - 1) / 97 * 96 + ((n - 1) % 97 - 1)), ?_⟩
  simp only [physical, physicalDataNode, attachedDataNodesCount]
  omega

theorem parent_slot_injective : Function.Injective fun m =>
    ((mht (m + 1)).parent, (m + 1 - 1) % childMhtNodesCount) := by
  intro m m' h
  simp only [parent, childMhtNodesCount, Prod.mk.injEq] at h
  omega

def firstOffset : NodeId → Nat
  | mht m => mdUserDataSize + attachedDataNodesCount * nodeSize * m
  | data d => mdUserDataSize + nodeSize * d

theorem firstOffset_parent_le (id : NodeId) : (mht id.parent).firstOffset ≤ id.firstOffset := by
  cases id <;>
    simp only [parent, firstOffset, childMhtNodesCount, attachedDataNodesCount, nodeSize] <;>
    omega

def atOffset (offset : Nat) : NodeId := data (getNodeNumbers offset).dataNodeNumber

theorem physical_atOffset (offset : Nat) :
    (atOffset offset).physical = (getNodeNumbers offset).physicalDataNodeNumber := rfl

@[simp]
theorem mht_ne_atOffset (m offset : Nat) : mht m ≠ atOffset offset := by simp [atOffset]

theorem firstOffset_atOffset_le {offset : Nat} (h : mdUserDataSize ≤ offset) :
    (atOffset offset).firstOffset ≤ offset := by
  simp only [atOffset, firstOffset, getNodeNumbers, nodeSize, mdUserDataSize] at *
  omega

theorem firstOffset_atOffset_of_aligned {offset : Nat} (h : mdUserDataSize ≤ offset)
    (haligned : (offset - mdUserDataSize) % nodeSize = 0) :
    (atOffset offset).firstOffset = offset := by
  simp only [atOffset, firstOffset, getNodeNumbers, nodeSize, mdUserDataSize] at *
  omega

theorem firstOffset_mht_le {offset m : Nat} (h : m ≤ (getNodeNumbers offset).mhtNodeNumber) :
    (mht m).firstOffset ≤ (atOffset offset).firstOffset := by
  simp only [atOffset, firstOffset, getNodeNumbers, nodeSize, mdUserDataSize, attachedDataNodesCount] at *
  omega

theorem firstOffset_mht_mono {m m' : Nat} (h : m < m') : (mht m).firstOffset < (mht m').firstOffset := by
  simp only [firstOffset, attachedDataNodesCount, nodeSize]
  omega

theorem firstOffset_mht_eq_iff {offset : Nat} (h : mdUserDataSize ≤ offset) :
    (mht (getNodeNumbers offset).mhtNodeNumber).firstOffset = offset ↔
    (offset - mdUserDataSize) % (attachedDataNodesCount * nodeSize) = 0 := by
  simp only [firstOffset, getNodeNumbers, nodeSize, mdUserDataSize, attachedDataNodesCount] at *
  omega

end NodeId

theorem node_numbering :
    (∀ offset, let n := getNodeNumbers offset
      n.dataNodeNumber = (offset - mdUserDataSize) / nodeSize
      ∧ n.mhtNodeNumber = n.dataNodeNumber / 96
      ∧ n.physicalDataNodeNumber = n.dataNodeNumber + n.mhtNodeNumber + 2
      ∧ n.physicalMhtNodeNumber = 1 + 97 * n.mhtNodeNumber
      ∧ n.physicalMhtNodeNumber = physicalMhtNode n.mhtNodeNumber)
    ∧ (∀ m, (NodeId.mht m).physical = 1 + 97 * m) ∧ (∀ d, (NodeId.data d).physical = d + d / 96 + 2)
    ∧ Function.Injective NodeId.physical ∧ (∀ n, (∃ i : NodeId, i.physical = n) ↔ 0 < n)
    ∧ (∀ m, (NodeId.mht (m + 1)).parent = (m + 1 - 1) / 32 ∧ (NodeId.mht (m + 1)).parent < m + 1)
    ∧ Function.Injective fun m =>
        ((NodeId.mht (m + 1)).parent, (m + 1 - 1) % childMhtNodesCount) := by
  refine ⟨fun offset => ⟨rfl, rfl, ?_, ?_, ?_⟩, fun m => ?_, fun d => ?_, NodeId.physical_injective,
    NodeId.exists_physical_iff, fun m => ⟨rfl, NodeId.parent_mht_lt m.succ_ne_zero⟩,
    NodeId.parent_slot_injective⟩
  . simp only [getNodeNumbers]
    omega
  . simp only [getNodeNumbers, attachedDataNodesCount]
    omega
  . simp only [getNodeNumbers, physicalMhtNode, attachedDataNodesCount]
    omega
  . simp only [NodeId.physical, physicalMhtNode, attachedDataNodesCount]
    omega
  . simp only [NodeId.physical, physicalDataNode, attachedDataNodesCount]
    omega

end ProtectedFs
