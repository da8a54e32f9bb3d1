import SrasMage.ProtectedFs.Impl.Run

/-!
This module contains a platform to evaluate the model on.
-/

namespace ProtectedFs
namespace Reference

inductive Blob where
  | zero
  | data (node : DataNode)
  | mht (node : MhtNode)
  | metaDataEncrypted (node : MetaDataEncrypted)
  | metaData (plainPart : MetaDataPlain) (encryptedPart : Blob)
  | cipher (key : Key) (plain : Blob)

def platform : Platform Blob where
  zero := .zero
  packData := .data
  unpackData
    | .data d => d
    | _ => DataNode.zero
  packMht := .mht
  unpackMht
    | .mht m => m
    | _ => MhtNode.zero
  packMetaDataEncrypted := .metaDataEncrypted
  unpackMetaDataEncrypted
    | .metaDataEncrypted m => m
    | _ => ⟨[], 0, 0, 0, fun _ => 0⟩
  packMetaData m := .metaData m.plainPart m.encryptedPart
  unpackMetaData
    | .metaData p e => ⟨p, e⟩
    | _ => ⟨⟨0, 0, 0, 0, 0, 0, false, 0, false⟩, .zero⟩
  rijndael128GcmEncrypt key plain := (.cipher key plain, 0)
  rijndael128GcmDecrypt key cipher gmac :=
    match cipher with
    | .cipher key' plain => if key = key' ∧ gmac = 0 then some plain else none
    | _ => none
  rijndael128Cmac _ input := input.nonce.setWidth 128
  getKey request := request.keyId.setWidth 128

instance : LawfulPlatform platform where
  unpackData_packData _ := rfl
  unpackMht_packMht _ := rfl
  unpackMetaDataEncrypted_pack _ := rfl
  unpackMetaData_packMetaData _ := rfl

def success : Outside Blob := ⟨fun _ => ⟨0, 0, none⟩, fun _ => ⟨0, 1⟩⟩

def failOcall (i : Nat) : Outside Blob :=
  { success with ocall := fun j => if j = i then ⟨1, 0, none⟩ else ⟨0, 0, none⟩ }

def failCall (i : Nat) : Outside Blob :=
  { success with call := fun j => if j = i then ⟨1, 1⟩ else ⟨0, 1⟩ }

def args (mode : List Char) : OpenArgs := ⟨['f'], mode, none, none, ⟨0, 0⟩⟩

def imageNode (size n : Nat) : Blob :=
  if n = 0 then
    .metaData ⟨sgxFileId, sgxFileMajorVersion, sgxFileMinorVersion, 1, 0, 0, false, 0, false⟩
      (.cipher 1 (.metaDataEncrypted ⟨['f'], size, 0, 0, fun _ => 0⟩))
  else if n % (1 + attachedDataNodesCount) = 1 then .cipher 0 (.mht MhtNode.zero)
  else .cipher 0 (.data DataNode.zero)

def image (size : Nat) : Host Blob where
  main := some ⟨(size + nodeSize) / nodeSize + size / (attachedDataNodesCount * nodeSize) + 2, imageNode size⟩
  recovery := none

def openImage (mode : List Char) (size : Nat) : File Blob :=
  File.create platform (args mode) (image size) success

def bytes (b : UInt8) : Option Buffer := some ⟨fun _ => b, false⟩

end Reference
end ProtectedFs
