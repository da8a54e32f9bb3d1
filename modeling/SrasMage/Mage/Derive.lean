import SrasMage.BlockHash
import SrasMage.Elf
import SrasMage.Hoare
import SrasMage.Sgx

/-!
This module contains the measurement of pages, and how an enclave derives the measurement of another one
from its section for measurements (`sdk/mage/sgx_mage.cpp`).
-/

namespace Mage

open Memory

abbrev Status := Nat

export Sgx (sePageSize sgxErrorUnexpected)

abbrev dataBlockSize : Nat := 64
abbrev eextendTime : Nat := 4

def eaddVal : List UInt8 := Elf.ascii "EADD" ++ List.replicate 4 0
def eextendVal : List UInt8 := Elf.ascii "EEXTEND" ++ [0]

def eaddBlock (pageOffset : Nat) (sinfo : List UInt8) : List UInt8 :=
  eaddVal ++ toBytes 8 pageOffset ++ sinfo.take 48

def eextendBlock (pageOffset : Nat) : List UInt8 :=
  eextendVal ++ toBytes 8 pageOffset ++ List.replicate 48 0

def eextendBlocks (m : Mem) (source pageOffset : Nat) : List (List UInt8) :=
  (List.range (sePageSize / (dataBlockSize * eextendTime))).flatMap fun i =>
    eextendBlock (pageOffset + dataBlockSize * eextendTime * i) :: (List.range eextendTime).map fun j =>
        load m (source + (dataBlockSize * eextendTime * i + dataBlockSize * j)) dataBlockSize

def pageBlocks (m : Mem) (source pageOffset : Nat) (sinfo : List UInt8) : List (List UInt8) :=
  eaddBlock pageOffset sinfo :: eextendBlocks m source pageOffset

def sgxMageSecSize : Nat := 4096
def sizeofMage : Nat := 8
def sizeofMageEntry : Nat := 48

structure MageEntry where
  size : Nat
  offset : Nat
  digest : Digest
deriving DecidableEq

def mageEntry (sec : Mem) (offset : Nat) : MageEntry where
  size := Elf.word sec offset 8
  offset := Elf.word sec (offset + 8) 8
  digest := Vector.ofFn fun i => sec (offset + 16 + i)

def mageSize (sec : Mem) : Nat := Elf.word sec 0 8

def entryOffset (mageIdx : Nat) : Nat := (sizeofMage + mageIdx * sizeofMageEntry) % 2 ^ 64

variable (secSize : Nat)

def sgxMageGetSize (sec : Mem) : Nat :=
  if (mageSize sec * sizeofMageEntry + sizeofMage) % 2 ^ 64 > secSize then 0 else mageSize sec

def guardPasses (sec : Mem) (mageIdx : Nat) (mr : Bool) : Bool :=
  !((mageSize sec * sizeofMageEntry + sizeofMage) % 2 ^ 64 > secSize || mageSize sec ≤ mageIdx || !mr)

def handleSizeOffset : Nat := 152
def handleHashOffset : Nat := 168

-- A handle is memory of the library, which alone knows where the hash and the size are.
structure ShaLibrary where
  hash : BlockHash
  init : Option Mem
  state : Mem → Digest × Nat
  update : Nat → Bool
  getHash : Bool

structure ShaHandle where
  hash : Digest
  size : Nat
  updates : Nat

variable (lib : ShaLibrary)

def sgxSha256Update (block : List UInt8) : EStateM Status ShaHandle Unit := do
  let handle ← get
  if !lib.update handle.updates then throw sgxErrorUnexpected
  set { hash := lib.hash.compress handle.hash block, size := (handle.size + block.length) % 2 ^ 64,
        updates := handle.updates + 1 : ShaHandle }

def mageSinfo : List UInt8 := [0x01, 0x02] ++ List.replicate 62 0

def hashSection (sec : Mem) (pageOffset : Nat) : EStateM Status ShaHandle Unit :=
  (List.range ((secSize + (sePageSize - 1)) / sePageSize)).forM fun k => do
    sgxSha256Update lib (eaddBlock (pageOffset + sePageSize * k) mageSinfo)
    (List.range (sePageSize / (dataBlockSize * eextendTime))).forM fun i => do
      sgxSha256Update lib (eextendBlock (pageOffset + sePageSize * k + dataBlockSize * eextendTime * i))
      (List.range eextendTime).forM fun j =>
        sgxSha256Update lib
          (load sec (sePageSize * k + (dataBlockSize * eextendTime * i + dataBlockSize * j)) dataBlockSize)

def sgxMageDeriveMeasurement (sec : Mem) (mageIdx : Nat) (mr : Bool) : Except Status Digest :=
  if !guardPasses secSize sec mageIdx mr then throw sgxErrorUnexpected
  else
    let mage := mageEntry sec (entryOffset mageIdx)
    match lib.init with
    | none => throw sgxErrorUnexpected
    | some handle =>
      let handle := store handle handleHashOffset mage.digest.toList
      let handle := store handle handleSizeOffset (toBytes 8 mage.size)
      let (hash, size) := lib.state handle
      match hashSection secSize lib sec mage.offset ⟨hash, size, 0⟩ with
      | .error e _ => throw e
      | .ok _ handle =>
        if !lib.getHash then throw sgxErrorUnexpected else return lib.hash.finish handle.hash handle.size

def EntryInside (mageIdx : Nat) : Prop := entryOffset mageIdx + sizeofMageEntry ≤ secSize

instance (mageIdx : Nat) : Decidable (EntryInside secSize mageIdx) := inferInstanceAs (Decidable (_ ≤ _))

def mageCapacity : Nat := 85

variable {sec : Mem}

theorem entryInside_of_lt {mageIdx : Nat} (h : mageIdx < mageCapacity) : EntryInside sgxMageSecSize mageIdx := by
  unfold EntryInside entryOffset sizeofMage sizeofMageEntry sgxMageSecSize
  unfold mageCapacity at h
  rw [Nat.mod_eq_of_lt (by omega)]
  omega

theorem not_entryInside_mageCapacity : ¬EntryInside sgxMageSecSize mageCapacity := by decide

theorem le_mageCapacity_iff :
    (∀ mageIdx < mageSize sec, EntryInside sgxMageSecSize mageIdx) ↔ mageSize sec ≤ mageCapacity := by
  constructor
  . intro h
    by_contra hgt
    exact not_entryInside_mageCapacity (h mageCapacity (Nat.lt_of_not_le hgt))
  . intro h mageIdx hidx
    exact entryInside_of_lt (Nat.lt_of_lt_of_le hidx h)

theorem guardPasses_iff {secSize mageIdx : Nat} {mr : Bool} : guardPasses secSize sec mageIdx mr = true ↔
      ¬(mageSize sec * sizeofMageEntry + sizeofMage) % 2 ^ 64 > secSize ∧ mageIdx < mageSize sec ∧ mr = true := by
  unfold guardPasses
  rw [Bool.not_eq_true', Bool.or_eq_false_iff, Bool.or_eq_false_iff, decide_eq_false_iff_not, decide_eq_false_iff_not,
    Bool.not_eq_false', Nat.not_le, and_assoc]

/--
Every entry that is accessed lies in the section, if and only if the number in the header is not one of those for
which the product wraps around to something small.
-/
theorem entryInside_iff (sec : Mem) :
    ((∀ mageIdx mr, guardPasses sgxMageSecSize sec mageIdx mr = true → EntryInside sgxMageSecSize mageIdx) ∧
      ∀ mageIdx < sgxMageGetSize sgxMageSecSize sec, EntryInside sgxMageSecSize mageIdx) ↔
    mageSize sec ≤ mageCapacity ∨ sgxMageSecSize < (mageSize sec * sizeofMageEntry + sizeofMage) % 2 ^ 64 := by
  unfold sgxMageGetSize
  by_cases hsize : (mageSize sec * sizeofMageEntry + sizeofMage) % 2 ^ 64 > sgxMageSecSize
  . rw [if_pos hsize]
    apply iff_of_true
    . constructor
      . intro mageIdx mr hpass
        exact absurd hsize (guardPasses_iff.1 hpass).1
      . intro mageIdx hidx
        exact absurd hidx (Nat.not_lt_zero _)
    . exact .inr hsize
  rw [if_neg hsize, le_mageCapacity_iff]
  constructor
  . intro h
    exact .inl h.2
  intro h
  have hcap : mageSize sec ≤ mageCapacity := h.resolve_right hsize
  refine ⟨?_, hcap⟩
  intro mageIdx mr hpass
  exact le_mageCapacity_iff.2 hcap mageIdx (guardPasses_iff.1 hpass).2.1

def wrappingSection : Mem := store (fun _ => 0) 0 (toBytes 8 (2 ^ 60))

theorem wrappingSection_not_entryInside :
    guardPasses sgxMageSecSize wrappingSection mageCapacity true = true ∧
      mageCapacity < sgxMageGetSize sgxMageSecSize wrappingSection ∧
      ¬EntryInside sgxMageSecSize mageCapacity := by
  decide +kernel

end Mage
