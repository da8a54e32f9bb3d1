import SrasMage.Hoare
import SrasMage.Memory
import SrasMage.Sgx

/-!
This module contains how the loader adds the pages of an enclave (`psw/urts/loader.cpp`).
-/

namespace CLoader

open Memory Bytes

abbrev Status := Nat

export Sgx (sePageSize trimToPage roundToPage sgxErrorUnexpected)

structure SecInfo where
  flags : UInt64
  reserved : Vector UInt64 7
deriving DecidableEq

def SecInfo.bytes (sinfo : SecInfo) : List UInt8 :=
  toBytes 8 sinfo.flags.toNat ++ sinfo.reserved.toList.flatMap fun r => toBytes 8 r.toNat

def SecInfo.ofFlags (flags : UInt64) : SecInfo := ⟨flags, Vector.replicate 7 0⟩

abbrev siFlagW : UInt64 := 0x2
abbrev siMaskMemAttribute : UInt64 := 0x7

abbrev pageAttrEadd : UInt32 := 1
abbrev addExtendPage : UInt32 := 3

structure Page where
  source : Option Mem
  offset : Nat
  sinfo : SecInfo
  attr : UInt32

def Page.memory (page : Page) : Mem := page.source.getD fun _ => 0

def Page.content (page : Page) : List UInt8 := load page.memory 0 sePageSize

structure Creator (σ : Type) where
  useSeHw : Bool
  mprotect : Nat → UInt64 → EStateM Status σ Unit
  addEnclavePage : Page → EStateM Status σ Unit

structure SectionInfo where
  rawData : Mem
  rawDataSize : Nat
  rva : Nat
  virtualSize : Nat
  flag : UInt64
  bitmap : Option (List UInt8)

structure MageSection where
  rawData : Mem
  rva : Nat
  virtualSize : Nat

def pageOffset (x : Nat) : Nat := x % sePageSize

def isRelocationPage (rva : Nat) (bitmap : Option (List UInt8)) : Bool :=
  let pageFrame := rva / sePageSize
  match bitmap with
  | none => false
  | some bitmap =>
    match bitmap[pageFrame / 8]? with
    | none => false
    | some bits => bits.toNat.testBit (pageFrame % 8)

variable {σ : Type} (creator : Creator σ) (mage : Option MageSection)

def skipRange : Nat × Nat :=
  match mage with
  | none => (0, 0)
  | some mage => (mage.rva, mage.virtualSize)

def isAdded (rva : Nat) : Bool :=
  rva ≥ ((skipRange mage).1 + (skipRange mage).2) % 2 ^ 64 || (rva + sePageSize) % 2 ^ 64 ≤ (skipRange mage).1

def buildPages (startRva size : Nat) (source : Option Mem) (sinfo : SecInfo) (attr : UInt32) : EStateM Status σ Unit :=
  (List.range ((size + (sePageSize - 1)) / sePageSize)).forM fun k =>
    let rva := (startRva + sePageSize * k) % 2 ^ 64
    if isAdded mage rva then creator.addEnclavePage ⟨source, rva, sinfo, attr⟩ else pure ()

def buildPartialPage (rva size : Nat) (source : Mem) (sinfo : SecInfo) (attr : UInt32) : EStateM Status σ Unit :=
  let pageData := splice (fun _ => 0) (pageOffset rva) size source
  buildPages creator mage (trimToPage rva) sePageSize (some pageData) sinfo attr

def isRelocated (sec : SectionInfo) (rva : Nat) : Bool :=
  isRelocationPage rva sec.bitmap && sec.flag &&& siFlagW = 0

def pageFlags (sec : SectionInfo) (rva : Nat) : UInt64 :=
  if isRelocated sec rva then sec.flag ||| siFlagW else sec.flag

def protectPage (sec : SectionInfo) (rva : Nat) : EStateM Status σ Unit :=
  if isRelocated sec rva && creator.useSeHw then
    creator.mprotect (trimToPage rva) (pageFlags sec rva &&& siMaskMemAttribute)
  else pure ()

def buildRawPage (sec : SectionInfo) (offset : Nat) : EStateM Status σ Unit := do
  let rva := (sec.rva + offset) % 2 ^ 64
  let size := min (sePageSize - pageOffset rva) (sec.rawDataSize - offset)
  let sinfo := SecInfo.ofFlags (pageFlags sec rva)
  let source : Mem := fun i => sec.rawData (offset + i)
  protectPage creator sec rva
  if size = sePageSize then buildPages creator mage rva size (some source) sinfo addExtendPage
  else buildPartialPage creator mage rva size source sinfo addExtendPage

def buildRawPages (sec : SectionInfo) : Nat → Nat → EStateM Status σ Nat
  | 0, _ => throw sgxErrorUnexpected
  | fuel + 1, offset =>
    if offset < sec.rawDataSize then do
      buildRawPage creator mage sec offset
      buildRawPages sec fuel ((offset + (sePageSize - pageOffset ((sec.rva + offset) % 2 ^ 64))) % 2 ^ 64)
    else pure offset

def buildZeroPages (sec : SectionInfo) (offset : Nat) : EStateM Status σ Unit :=
  if sec.virtualSize > offset then
    let rva := (sec.rva + offset) % 2 ^ 64
    let size := roundToPage ((sec.virtualSize - offset + pageOffset rva) % 2 ^ 64)
    buildPages creator mage (trimToPage rva) size none (.ofFlags sec.flag) addExtendPage
  else pure ()

def buildMemRegion (sec : SectionInfo) : EStateM Status σ Unit := do
  let offset ← buildRawPages creator mage sec (sec.rawDataSize + 1) 0
  buildZeroPages creator mage sec offset

def mageFlags : UInt64 := 0x201

def getMageSectionEx (forSign : Bool) : Option MageSection := if forSign then none else mage

def buildMagePages (forSign : Bool) : EStateM Status σ Unit :=
  match getMageSectionEx mage forSign with
  | none => pure ()
  | some mage =>
    (List.range ((mage.virtualSize + (sePageSize - 1)) / sePageSize)).forM fun k =>
      creator.addEnclavePage
        ⟨some mage.rawData, (mage.rva + sePageSize * k) % 2 ^ 64, .ofFlags mageFlags, addExtendPage⟩

def recorder (useSeHw : Bool) (mprotect : List Page → Nat → Bool) (status : List Page → Page → Status) :
    Creator (List Page) where
  useSeHw := useSeHw
  mprotect rva _ := do
    let log ← get
    if mprotect log rva then pure () else throw sgxErrorUnexpected
  addEnclavePage page := do
    let log ← get
    if status log page = 0 then set (log ++ [page]) else throw (status log page)

section Recorder

open Hoare

variable {useSeHw : Bool} {mprotect : List Page → Nat → Bool} {status : List Page → Page → Status}

theorem runs_recorder (page : Page) (log : List Page) :
    Runs ((recorder useSeHw mprotect status).addEnclavePage page) log (fun _ log' => log' = log ++ [page])
      fun _ log' => log' = log := by
  apply Runs.bind
  apply Runs.get
  apply Runs.ite
  . intro _
    exact rfl
  intro _
  exact .throw rfl

theorem runs_forM_recorder (pages log : List Page) :
    Runs (pages.forM (recorder useSeHw mprotect status).addEnclavePage) log (fun _ log' => log' = log ++ pages)
      fun _ log' => ∃ done, done <+: pages ∧ log' = log ++ done := by
  apply Runs.forM fun done log' => log' = log ++ done
  . rw [List.append_nil]
  intro done page rest log1 heq h
  subst h
  refine (runs_recorder page _).mono (fun _ _ h => ?_) fun _ _ h => ?_
  . rw [h, List.append_assoc]
  . exact ⟨done, ⟨page :: rest, heq.symm⟩, h⟩

end Recorder

end CLoader
