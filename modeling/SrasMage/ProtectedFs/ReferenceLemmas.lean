import SrasMage.ProtectedFs.Lemmas.Undisturbed

/-!
This module contains what the theorems about the file system assume, for the platform that the model is
evaluated on.
-/

namespace ProtectedFs
namespace Reference

theorem gcmCorrect : platform.GcmCorrect := by
  intro key plain
  simp [platform]

theorem callsSucceed_success : success.CallsSucceed := by
  intro k
  exact ⟨rfl, (by decide : (1 : BitVec 256) ≠ 0)⟩

theorem callsSucceed_failOcall (i : Nat) : (failOcall i).CallsSucceed := by
  intro k
  exact ⟨rfl, (by decide : (1 : BitVec 256) ≠ 0)⟩

theorem honest_success : success.Honest := by
  intro k _
  rfl

theorem honest_failOcall (i : Nat) : (failOcall i).Honest := by
  intro k _
  simp only [failOcall]
  split <;> rfl

theorem ocallsSucceed_success : success.OcallsSucceed := by
  intro k
  exact ⟨rfl, rfl⟩

theorem undisturbed_success : success.Undisturbed :=
  ⟨⟨callsSucceed_success, ocallsSucceed_success⟩, honest_success⟩

theorem imageNode_physical (size : Nat) (i : NodeId) :
    imageNode size i.physical = .cipher 0 (platform.pack i.zero) := by
  have hpos : i.physical ≠ 0 := Nat.ne_of_gt i.physical_pos
  rw [imageNode, if_neg hpos]
  -- a node number is 1 modulo 97 for the MHT nodes alone
  cases i with
  | mht m =>
    rw [if_pos]
    . rfl
    . simp only [NodeId.physical, physicalMhtNode, attachedDataNodesCount]
      omega
  | data d =>
    rw [if_neg]
    . rfl
    . simp only [NodeId.physical, physicalDataNode, attachedDataNodesCount]
      omega

theorem disk_image {size : Nat} (hhigh : size < 2 ^ 63) :
    File.Disk platform File.anyNode none (image size).main (Tree.zero.bytes (fun _ => 0) size) := by
  refine .inr ⟨_, ⟨['f'], size, 0, 0, fun _ => 0⟩, Tree.zero, rfl, ?_, hhigh, rfl⟩
  have hkeyId : (1 : BitVec 256) ≠ 0 := by decide
  refine ⟨⟨⟨_, _⟩, Nat.succ_pos _, rfl, ⟨rfl, rfl, rfl, rfl⟩, ⟨hkeyId, trivial, rfl⟩⟩, rfl, ?_, ?_⟩
  . intro i hi
    have hcrypto : Tree.zero.crypto i = ⟨0, 0⟩ := by
      cases i <;> simp only [Tree.crypto] <;> split <;> rfl
    refine ⟨?_, trivial, ?_⟩
    . cases i <;>
        simp only [NodeId.firstOffset, NodeId.physical, physicalMhtNode, physicalDataNode,
          attachedDataNodesCount, nodeSize, mdUserDataSize] at hi ⊢ <;>
        omega
    . have hnode := imageNode_physical size i
      dsimp only
      rw [hcrypto, hnode]
      cases i <;> rfl
  . intro i _
    cases i <;> rfl

def newFile : File Blob := File.create platform (args ['w', '+']) ⟨none, none⟩ success

end Reference
end ProtectedFs
