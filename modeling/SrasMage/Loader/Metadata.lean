import Mathlib.Data.List.Sort
import SrasMage.Sgx

/-!
This module contains the metadata of an enclave (`common/inc/internal/metadata.h`), its validation and the
walk over its layout table (`psw/urts/loader.cpp`).
-/

namespace Loader

abbrev Memory := Nat → UInt8

def load (m : Memory) : Nat → Nat → Nat
  | _, 0 => 0
  | addr, n + 1 => (m addr).toNat + 256 * load m (addr + 1) n

def sgxErrorInvalidVersion : Nat := 0x200D
def sgxErrorInvalidMetadata : Nat := 0x2009

def majorVersion : Nat := 2
def tcsPolicyUnbind : Nat := 1
def ssaFrameSizeMin : Nat := 1
def ssaFrameSizeMax : Nat := 2
def enclaveMaxSize32 : Nat := 0xffffffff
def enclaveMaxSize64 : Nat := 0x1fffffffff

export Sgx (sePageSize sgxSuccess)

namespace Metadata

variable (m : Memory)

def version : Nat := load m 8 8
def size : Nat := load m 16 4
def tcsPolicy : Nat := load m 20 4
def ssaFrameSize : Nat := load m 24 4
def enclaveSize : Nat := load m 40 8

def dirPatch : Nat := 0
def dirLayout : Nat := 1
def dirOffset (i : Nat) : Nat := load m (1872 + 8 * i) 4
def dirSize (i : Nat) : Nat := load m (1872 + 8 * i + 4) 4

def dataOffset : Nat := 1888

end Metadata

structure Layout where
  id : Nat
  half : Nat
  word : Nat
  long : Nat
  contentSize : Nat
  contentOffset : Nat

namespace Layout

def isGroup (l : Layout) : Bool := l.id.testBit 12

def pageCount (l : Layout) : Nat := l.word
def rva (l : Layout) : Nat := l.long

def entryCount (l : Layout) : Nat := l.half
def loadTimes (l : Layout) : Nat := l.word
def loadStep (l : Layout) : Nat := l.long

end Layout

def sizeofLayout : Nat := 32

def layoutAt (m : Memory) (addr : Nat) : Layout where
  id := load m addr 2
  half := load m (addr + 2) 2
  word := load m (addr + 4) 4
  long := load m (addr + 8) 8
  contentSize := load m (addr + 16) 4
  contentOffset := load m (addr + 20) 4

def dirAddrs (m : Memory) (i sizeofEntry : Nat) : List Nat :=
  (List.range ((Metadata.dirSize m i + (sizeofEntry - 1)) / sizeofEntry)).map
    (fun k => Metadata.dirOffset m i + sizeofEntry * k)

def layoutTable (m : Memory) : List Layout :=
  (dirAddrs m Metadata.dirLayout sizeofLayout).map (layoutAt m)

abbrev Region := Nat × Nat

def isMetadataBuffer (m : Memory) (offset size : Nat) : Bool :=
  if Metadata.dataOffset > offset ∨ offset ≥ Metadata.size m then false
  else
    let finish := (offset + size) % 2 ^ 32
    !(finish < offset || finish < size || finish > Metadata.size m)

def isEnclaveBuffer (enclaveSize offset size : Nat) : Bool :=
  if offset ≥ enclaveSize then false
  else
    let finish := (offset + size) % 2 ^ 64
    !(finish < offset || finish < size || finish > enclaveSize)

def groupRegions (enclaveSize : Nat) (group : Layout) (entries : List Layout) : Nat → Nat → Option (List Region)
  | 0, _ => some []
  | times + 1, step =>
    let step := (step + group.loadStep) % 2 ^ 64
    if step > enclaveSize then none
    else if entries.any (·.isGroup) then none
    else do
      let rest ← groupRegions enclaveSize group entries times step
      return entries.map (fun e => ((e.rva + step) % 2 ^ 64, e.pageCount * sePageSize)) ++ rest

def layoutRegions (m : Memory) (table : List Layout) (i : Nat) (l : Layout) : Option (List Region) :=
  if !l.isGroup then
    if l.contentOffset ≠ 0 ∧ !isMetadataBuffer m l.contentOffset l.contentSize then none
    else some [(l.rva, l.pageCount * sePageSize)]
  else if l.entryCount > i then none
  else
    groupRegions (Metadata.enclaveSize m) l ((table.take i).drop (i - l.entryCount)) l.loadTimes 0

def collectRegions (m : Memory) (table : List Layout) : Nat → Option (List Region)
  | 0 => some []
  | i + 1 => do
    let regions ← collectRegions m table i
    let l ← table[i]?
    return regions ++ (← layoutRegions m table i l)

def rvaVector (m : Memory) : Option (List Region) :=
  collectRegions m (layoutTable m) (layoutTable m).length

def RegionLe (a b : Region) : Prop := a.1 < b.1 ∨ a.1 = b.1 ∧ a.2 ≤ b.2

instance : DecidableRel RegionLe := fun _ _ => inferInstanceAs (Decidable (_ ∨ _))

def checkRegions (enclaveSize : Nat) : List Region → Bool
  | [] => true
  | r :: rest =>
    r.1 % sePageSize == 0 && isEnclaveBuffer enclaveSize r.1 r.2
      && rest.head?.all (fun next => !(next.1 < (r.1 + r.2) % 2 ^ 64))
      && checkRegions enclaveSize rest

def validateLayoutTable (m : Memory) : Nat :=
  match rvaVector m with
  | none => sgxErrorInvalidMetadata
  | some regions =>
    if checkRegions (Metadata.enclaveSize m) (regions.insertionSort RegionLe) then sgxSuccess
    else sgxErrorInvalidMetadata

def sizeofPatchEntry : Nat := 32

def validatePatchTable (m : Memory) : Nat :=
  if (dirAddrs m Metadata.dirPatch sizeofPatchEntry).all (fun addr =>
      isMetadataBuffer m (load m (addr + 8) 4) (load m (addr + 12) 4)
        && isEnclaveBuffer (Metadata.enclaveSize m) (load m addr 8) (load m (addr + 12) 4)) then
    sgxSuccess
  else sgxErrorInvalidMetadata

def shiftZeros : Nat → Nat → Nat
  | 0, size => size
  | fuel + 1, size => if size ≠ 0 ∧ size % 2 ≠ 1 then shiftZeros fuel (size / 2) else size

def enclaveMaxSize (is64 : Bool) : Nat := if is64 then enclaveMaxSize64 else enclaveMaxSize32

def validateMetadata (is64 : Bool) : Option Memory → Nat
  | none => sgxErrorInvalidMetadata
  | some m =>
    if majorVersion < Metadata.version m / 2 ^ 32 then sgxErrorInvalidVersion
    else if Metadata.tcsPolicy m > tcsPolicyUnbind then sgxErrorInvalidMetadata
    else if Metadata.ssaFrameSize m < ssaFrameSizeMin ∨ Metadata.ssaFrameSize m > ssaFrameSizeMax then
      sgxErrorInvalidMetadata
    else if Metadata.enclaveSize m > enclaveMaxSize is64 then sgxErrorInvalidMetadata
    else if shiftZeros 64 (Metadata.enclaveSize m) ≠ 1 then sgxErrorInvalidMetadata
    else if !(List.all [Metadata.dirPatch, Metadata.dirLayout]
        (fun i => isMetadataBuffer m (Metadata.dirOffset m i) (Metadata.dirSize m i))) then
      sgxErrorInvalidMetadata
    else if validateLayoutTable m ≠ sgxSuccess then validateLayoutTable m
    else validatePatchTable m

/-! The walk of `build_contexts`. What it visits is recorded in a log, `status` decides whether
`build_context` succeeds. -/

section Build

variable (status : List Region → Bool)

def buildContext (delta : Nat) (l : Layout) (log : List Region) : List Region × Bool :=
  (log ++ [((delta + l.rva) % 2 ^ 64, l.pageCount * sePageSize)], status log)

def buildGroup (body : Nat → List Region → List Region × Bool) (loadStep : Nat) :
    Nat → Nat → List Region → List Region × Bool
  | 0, _, log => (log, true)
  | times + 1, step, log =>
    let step := (step + loadStep) % 2 ^ 64
    let (log, ok) := body step log
    if ok then buildGroup body loadStep times step log else (log, false)

def buildContexts (table : List Layout) : Nat → Nat → Nat → List Region → List Region × Bool
  | 0, _, _, log => (log, true)
  | finish + 1, start, delta, log =>
    if finish < start then (log, true)
    else
      let (log, ok) := buildContexts table finish start delta log
      if !ok then (log, false)
      else
        match table[finish]? with
        | none => (log, true)
        | some l =>
          if !l.isGroup then buildContext status delta l log
          else
            buildGroup (fun step log => buildContexts table finish (finish - l.entryCount) step log)
              l.loadStep l.loadTimes 0 log

def buildLayout (m : Memory) : List Region × Bool :=
  buildContexts status (layoutTable m) (layoutTable m).length 0 0 []

end Build

end Loader
