import Mathlib.Algebra.Order.Ring.Nat
import Mathlib.Data.BitVec
import Mathlib.Logic.Function.Basic

/-!
This module contains the node layout of a protected file.
-/

namespace ProtectedFs

abbrev Key := BitVec 128
abbrev Mac := BitVec 128
abbrev KeyId := BitVec 256

abbrev nodeSize : Nat := 4096
abbrev mdUserDataSize : Nat := 3072
abbrev attachedDataNodesCount : Nat := 96
abbrev childMhtNodesCount : Nat := 32
abbrev filenameMaxLen : Nat := 260

instance : NeZero nodeSize := ⟨by decide⟩

def memcpy {n : Nat} (dest : Fin n → UInt8) (start len : Nat) (src : Nat → UInt8) : Fin n → UInt8 :=
  fun i => if start ≤ i.val ∧ i.val < start + len then src (i.val - start) else dest i

def slice {n : Nat} [NeZero n] (src : Fin n → UInt8) (start len : Nat) : List UInt8 :=
  (List.range len).map (fun i => src (Fin.ofNat n (start + i)))

structure GcmCryptoData where
  key : Key
  gmac : Mac
deriving DecidableEq

structure MhtNode where
  dataNodesCrypto : Fin attachedDataNodesCount → GcmCryptoData
  mhtNodesCrypto : Fin childMhtNodesCount → GcmCryptoData

def MhtNode.setDataCrypto (m : MhtNode) (number : Nat) (c : GcmCryptoData) : MhtNode :=
  { m with
    dataNodesCrypto :=
      Function.update m.dataNodesCrypto (Fin.ofNat attachedDataNodesCount number) c }

def MhtNode.setMhtCrypto (m : MhtNode) (number : Nat) (c : GcmCryptoData) : MhtNode :=
  { m with
    mhtNodesCrypto :=
      Function.update m.mhtNodesCrypto (Fin.ofNat childMhtNodesCount (number - 1)) c }

def MhtNode.dataCrypto (m : MhtNode) (number : Nat) : GcmCryptoData :=
  m.dataNodesCrypto (Fin.ofNat attachedDataNodesCount number)

def MhtNode.mhtCrypto (m : MhtNode) (number : Nat) : GcmCryptoData :=
  m.mhtNodesCrypto (Fin.ofNat childMhtNodesCount (number - 1))

abbrev DataNode := Fin nodeSize → UInt8

structure MetaDataPlain where
  fileId : Nat
  majorVersion : Nat
  minorVersion : Nat
  metaDataKeyId : KeyId
  cpuSvn : BitVec 128
  isvSvn : BitVec 16
  useUserKdkKey : Bool
  metaDataGmac : Mac
  updateFlag : Bool

structure MetaDataEncrypted where
  cleanFilename : List Char
  size : Nat
  mhtKey : Key
  mhtGmac : Mac
  data : Fin mdUserDataSize → UInt8

structure MetaDataNode (N : Type) where
  plainPart : MetaDataPlain
  encryptedPart : N

def MetaDataNode.setUpdateFlag {N : Type} (m : MetaDataNode N) (b : Bool) : MetaDataNode N :=
  { m with plainPart.updateFlag := b }

def MhtNode.zero : MhtNode := ⟨fun _ => ⟨0, 0⟩, fun _ => ⟨0, 0⟩⟩

def DataNode.zero : DataNode := fun _ => 0

def sgxFileId : Nat := 0x5347585F46494C45
def sgxFileMajorVersion : Nat := 1
def sgxFileMinorVersion : Nat := 0

structure NodeNumbers where
  mhtNodeNumber : Nat
  dataNodeNumber : Nat
  physicalMhtNodeNumber : Nat
  physicalDataNodeNumber : Nat

def getNodeNumbers (offset : Nat) : NodeNumbers :=
  let dataNodeNumber := (offset - mdUserDataSize) / nodeSize
  let mhtNodeNumber := dataNodeNumber / attachedDataNodesCount
  let physicalDataNodeNumber := dataNodeNumber + 1 + 1 + mhtNodeNumber
  let physicalMhtNodeNumber :=
    physicalDataNodeNumber - dataNodeNumber % attachedDataNodesCount - 1
  ⟨mhtNodeNumber, dataNodeNumber, physicalMhtNodeNumber, physicalDataNodeNumber⟩

def physicalMhtNode (mhtNodeNumber : Nat) : Nat :=
  1 + mhtNodeNumber * (1 + attachedDataNodesCount)

def physicalDataNode (dataNodeNumber : Nat) : Nat :=
  dataNodeNumber + 1 + 1 + dataNodeNumber / attachedDataNodesCount

inductive NodeId where
  | mht (number : Nat)
  | data (number : Nat)
deriving DecidableEq

namespace NodeId

def physical : NodeId → Nat
  | mht m => physicalMhtNode m
  | data d => physicalDataNode d

def parent : NodeId → Nat
  | mht m => (m - 1) / childMhtNodesCount
  | data d => d / attachedDataNodesCount

end NodeId

end ProtectedFs
