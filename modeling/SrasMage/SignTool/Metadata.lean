import SrasMage.Loader.Metadata

/-!
This module contains how the sign tool lays out an enclave (`sdk/sign_tool/SignTool/manage_metadata.cpp`).
-/

namespace CMetadata

open Loader (sePageSize)
open Sgx (roundToPage)

structure ParamSpec where
  max : Nat
  min : Nat
  default : Nat

structure XmlParameter (spec : ParamSpec) where
  value : Nat
  flag : Bool
  accepted : if flag then spec.min ≤ value ∧ value ≤ spec.max else value = spec.default

abbrev sizeMax : Nat := 0x1FFFFFFFFF
abbrev tcsNumMax : Nat := 0xFFFFFFFF
abbrev idMax : Nat := 0xFFFFFFFFFFFFFFFF

structure XmlParameters where
  launchKey : XmlParameter ⟨1, 0, 0⟩
  hw : XmlParameter ⟨0x10, 0, 0⟩
  tcsNum : XmlParameter ⟨tcsNumMax, 1, 1⟩
  tcsMaxNum : XmlParameter ⟨tcsNumMax, 1, 1⟩
  tcsMinPool : XmlParameter ⟨tcsNumMax, 0, 1⟩
  stackMaxSize : XmlParameter ⟨sizeMax, 0x2000, 0x40000⟩
  stackMinSize : XmlParameter ⟨sizeMax, 0x2000, 0x2000⟩
  heapMaxSize : XmlParameter ⟨sizeMax, 0, 0x1000000⟩
  heapMinSize : XmlParameter ⟨sizeMax, 0, 0x1000⟩
  heapInitSize : XmlParameter ⟨sizeMax, 0, 0x1000⟩
  rsrvMaxSize : XmlParameter ⟨sizeMax, 0, 0⟩
  rsrvMinSize : XmlParameter ⟨sizeMax, 0, 0⟩
  rsrvInitSize : XmlParameter ⟨sizeMax, 0, 0⟩
  enableKss : XmlParameter ⟨1, 0, 0⟩
  isvFamilyIdH : XmlParameter ⟨idMax, 0, 0⟩
  isvFamilyIdL : XmlParameter ⟨idMax, 0, 0⟩
  isvExtProdIdH : XmlParameter ⟨idMax, 0, 0⟩
  isvExtProdIdL : XmlParameter ⟨idMax, 0, 0⟩

structure CreateParam where
  heapInitSize : Nat
  heapMinSize : Nat
  heapMaxSize : Nat
  rsrvInitSize : Nat
  rsrvMinSize : Nat
  rsrvMaxSize : Nat
  stackMaxSize : Nat
  stackMinSize : Nat
  tcsNum : Nat
  tcsMaxNum : Nat
  tcsMinPool : Nat
deriving DecidableEq

def alignSize : Nat := 0x1000

def regionSizesOk (minSize initSize maxSize : Nat) (initFlag : Bool) : Bool :=
  minSize % alignSize = 0 && initSize % alignSize = 0 && maxSize % alignSize = 0
    && if initFlag then initSize ≤ maxSize && minSize ≤ initSize else minSize ≤ maxSize

def tcsNumbersOk (p : XmlParameters) : Bool :=
  if p.tcsMaxNum.flag then
    p.tcsNum.value ≤ p.tcsMaxNum.value && !(p.tcsMinPool.flag && p.tcsMinPool.value > p.tcsMaxNum.value)
  else !(p.tcsMinPool.flag && p.tcsMinPool.value > p.tcsNum.value)

def checkXmlParameter (p : XmlParameters) : Option CreateParam := do
  guard (p.stackMaxSize.value % alignSize = 0 ∧ p.stackMinSize.value % alignSize = 0)
  guard (p.stackMinSize.value ≤ p.stackMaxSize.value)
  guard (regionSizesOk p.heapMinSize.value p.heapInitSize.value p.heapMaxSize.value p.heapInitSize.flag)
  guard (regionSizesOk p.rsrvMinSize.value p.rsrvInitSize.value p.rsrvMaxSize.value p.rsrvInitSize.flag)
  guard (p.hw.value = 0 ↔ p.launchKey.value = 0)
  guard (tcsNumbersOk p)
  guard (¬((p.isvExtProdIdH.value ≠ 0 ∨ p.isvExtProdIdL.value ≠ 0 ∨ p.isvFamilyIdH.value ≠ 0
    ∨ p.isvFamilyIdL.value ≠ 0) ∧ p.enableKss.value = 0))
  return {
    heapInitSize := if p.heapInitSize.flag then p.heapInitSize.value else p.heapMaxSize.value
    heapMinSize := p.heapMinSize.value
    heapMaxSize := p.heapMaxSize.value
    rsrvInitSize := if p.rsrvInitSize.flag then p.rsrvInitSize.value else p.rsrvMaxSize.value
    rsrvMinSize := p.rsrvMinSize.value
    rsrvMaxSize := p.rsrvMaxSize.value
    stackMaxSize := p.stackMaxSize.value
    stackMinSize := p.stackMinSize.value
    tcsNum := p.tcsNum.value % 2 ^ 32
    tcsMaxNum := (if p.tcsMaxNum.flag then p.tcsMaxNum.value else p.tcsNum.value) % 2 ^ 32
    tcsMinPool := p.tcsMinPool.value % 2 ^ 32 }

structure Section where
  rva : Nat
  virtualSize : Nat

structure Parser where
  elf64 : Bool
  gnuRelro : Bool
  sections : List Section
  tlsSection : Option Section
  enclaveEntry : Nat
  globalData : Nat
  globalDataSize : Nat

def Parser.enclaveMaxSize (parser : Parser) : Nat := Loader.enclaveMaxSize parser.elf64

def lastSection (sections : List Section) : Option Section :=
  sections.foldl (fun last sec => if sec.rva > (last.map Section.rva).getD 0 then some sec else last) none

def calculateSectionsSize (parser : Parser) : Nat :=
  match lastSection parser.sections with
  | none => roundToPage 0
  | some sec => roundToPage ((sec.rva + sec.virtualSize) % 2 ^ 64)

def roundSize (size : Nat) : Nat → Nat → Option Nat
  | 0, _ => none
  | fuel + 1, round => if round < size then roundSize size fuel (round * 2) else some round

def calculateEnclaveSize (parser : Parser) (size : Nat) : Option Nat := do
  guard (size ≤ parser.enclaveMaxSize)
  let round ← roundSize size 64 1
  guard (round ≤ parser.enclaveMaxSize)
  return round

structure Layout extends Loader.Layout where
  siFlags : Nat

def layoutIdHeapMin : Nat := 1
def layoutIdHeapInit : Nat := 2
def layoutIdHeapMax : Nat := 3
def layoutIdTcs : Nat := 4
def layoutIdTd : Nat := 5
def layoutIdSsa : Nat := 6
def layoutIdStackMax : Nat := 7
def layoutIdStackMin : Nat := 8
def layoutIdThreadGroup : Nat := 4096 + 9
def layoutIdGuard : Nat := 10
def layoutIdHeapDynMin : Nat := 11
def layoutIdThreadGroupDyn : Nat := 4096 + 19
def layoutIdRsrvMin : Nat := 20
def layoutIdRsrvInit : Nat := 21
def layoutIdRsrvMax : Nat := 22

def pageAttrEadd : Nat := 1
def pageAttrEextend : Nat := 2
def pageAttrEremove : Nat := 4
def pageAttrPostAdd : Nat := 8
def pageAttrPostRemove : Nat := 16
def pageAttrDynThread : Nat := 32
def pageDirGrowDown : Nat := 64

def siFlagsRw : Nat := 0x203
def siFlagsTcs : Nat := 0x100

def tcsTemplateSize : Nat := 72

def layoutEntry (id size attributes siFlags contentSize : Nat) : Layout where
  id := id
  half := attributes
  word := size / sePageSize % 2 ^ 32
  long := 0
  contentSize := contentSize
  contentOffset := 0
  siFlags := siFlags

def layoutGroup (id entryCount loadTimes : Nat) : Layout where
  id := id
  half := entryCount % 2 ^ 16
  word := loadTimes
  long := 0
  contentSize := 0
  contentOffset := 0
  siFlags := 0

def guardPage : Layout := layoutEntry layoutIdGuard 0x10000 0 0 0

def regionLayouts (minId initId maxId minSize initSize maxSize : Nat) : List Layout :=
  layoutEntry minId minSize pageAttrEadd siFlagsRw 0 :: (if initSize > minSize then
          [layoutEntry initId (initSize - minSize) (pageAttrEadd + pageAttrPostRemove + pageAttrPostAdd) siFlagsRw 0]
        else [])
    ++ if maxSize > initSize then [layoutEntry maxId (maxSize - initSize) pageAttrPostAdd siFlagsRw 0] else []

def heapLayouts (param : CreateParam) : List Layout :=
  regionLayouts layoutIdHeapMin layoutIdHeapInit layoutIdHeapMax param.heapMinSize param.heapInitSize param.heapMaxSize

def stackContent : Nat := 0xCCCCCCCC

def tdPages (parser : Parser) : Nat :=
  match parser.tlsSection with
  | none => 1
  | some sec => (1 + roundToPage sec.virtualSize / sePageSize % 2 ^ 32) % 2 ^ 32

def threadLayouts (param : CreateParam) (parser : Parser) (tcsOffset : Nat) : List Layout :=
  let extend := pageAttrEadd + pageAttrEextend
  guardPage :: (if param.stackMaxSize > param.stackMinSize then
          [layoutEntry layoutIdStackMax (param.stackMaxSize - param.stackMinSize) (extend + pageDirGrowDown) siFlagsRw
            stackContent]
        else [])
    ++ [layoutEntry layoutIdStackMin param.stackMinSize extend siFlagsRw stackContent, guardPage,
        { layoutEntry layoutIdTcs sePageSize extend siFlagsTcs tcsTemplateSize with contentOffset := tcsOffset },
        layoutEntry layoutIdSsa (2 * sePageSize) extend siFlagsRw 0,
        guardPage,
        { layoutEntry layoutIdTd 0 extend siFlagsRw 0 with word := tdPages parser }]

def utilityThread (threads : List Layout) : List Layout :=
  threads.map fun l =>
    if l.id = layoutIdStackMax then { l with half := l.half ||| (pageAttrPostAdd + pageAttrPostRemove) } else l

def removedThread (threads : List Layout) : List Layout :=
  threads.map fun l => if l.id ≠ layoutIdGuard then { l with half := l.half ||| pageAttrEremove } else l

def dynamicThread (threads : List Layout) : List Layout :=
  threads.map fun l =>
    if l.id = layoutIdStackMax then
      { l with id := layoutIdHeapDynMin - layoutIdHeapMin + l.id, half := pageAttrPostAdd + pageDirGrowDown }
    else if l.id ≠ layoutIdGuard then
      { l with id := layoutIdHeapDynMin - layoutIdHeapMin + l.id, half := pageAttrPostAdd + pageAttrDynThread }
    else l

def staticThreads (param : CreateParam) : Nat := min param.tcsMinPool (param.tcsNum - 1)

def threadGroup (threads : List Layout) (n : Nat) : List Layout :=
  if n > 0 then
    threads ++ if n > 1 then [layoutGroup layoutIdThreadGroup threads.length (n - 1)] else []
  else []

def dynamicThreads (param : CreateParam) (threads : List Layout) : List Layout :=
  if param.tcsMaxNum > staticThreads param + 1 then
    dynamicThread threads
      ++ [layoutGroup layoutIdThreadGroupDyn threads.length (param.tcsMaxNum - staticThreads param - 1)]
  else []

def rsrvLayouts (param : CreateParam) : List Layout :=
  if param.rsrvMinSize > 0 ∨ param.rsrvInitSize > 0 ∨ param.rsrvMaxSize > 0 then
    regionLayouts layoutIdRsrvMin layoutIdRsrvInit layoutIdRsrvMax param.rsrvMinSize param.rsrvInitSize
      param.rsrvMaxSize
  else []

def contextLayouts (param : CreateParam) (parser : Parser) (tcsOffset : Nat) : List Layout :=
  let threads := threadLayouts param parser tcsOffset
  heapLayouts param ++ utilityThread threads ++ threadGroup threads (staticThreads param)
    ++ threadGroup (removedThread threads) (param.tcsNum - 1 - staticThreads param)
    ++ dynamicThreads param threads

def updateLayout (state : List Layout × Nat) (l : Layout) : List Layout × Nat :=
  let (layouts, rva) := state
  if !l.isGroup then (layouts ++ [{ l with long := rva }], (rva + l.pageCount * sePageSize) % 2 ^ 64)
  else
    let entries := layouts.drop (layouts.length - l.entryCount)
    let loadStep := (l.loadStep + (entries.map fun e => e.pageCount * sePageSize).sum) % 2 ^ 64
    (layouts ++ [{ l with long := loadStep }], (rva + l.loadTimes * loadStep) % 2 ^ 64)

def updateLayoutEntries (parser : Parser) (layouts : List Layout) : Option (List Layout × Nat) := do
  guard (calculateSectionsSize parser ≠ 0)
  return layouts.foldl updateLayout ([], calculateSectionsSize parser)

def metadataSize : Nat := 0x5000

def allocBufferFromMetadata (used size : Nat) : Option Nat := do
  let used := (used + size) % 2 ^ 32
  guard (size ≤ used ∧ used ≤ metadataSize)
  return used

structure LayoutTable where
  layouts : List Layout
  rva : Nat
  used : Nat

def buildLayoutTable (parser : Parser) (param : CreateParam) (used : Nat) : Option LayoutTable := do
  let tcsOffset := used
  let used ← allocBufferFromMetadata used tcsTemplateSize
  let layouts := contextLayouts param parser tcsOffset ++ rsrvLayouts param
  let (layouts, rva) ← updateLayoutEntries parser layouts
  guard (parser.enclaveEntry ≠ 0)
  return ⟨layouts, rva, used⟩

def headerPatches (parser : Parser) : Nat × Nat :=
  if parser.elf64 then (3, 8) else if parser.gnuRelro then (4, 32) else (3, 4)

def buildPatchTable (parser : Parser) (used : Nat) : Option Nat := do
  let used ← allocBufferFromMetadata used parser.globalDataSize
  guard (parser.globalData ≠ 0)
  let used ← allocBufferFromMetadata used 0
  let used ← allocBufferFromMetadata used (headerPatches parser).2
  allocBufferFromMetadata used ((1 + (headerPatches parser).1) * Loader.sizeofPatchEntry)

def padLayouts (param : CreateParam) (layouts : List Layout) (rva enclaveSize : Nat) : List Layout × CreateParam :=
  let extraPages := (enclaveSize - rva) / sePageSize % 2 ^ 32
  let extraSize := extraPages * sePageSize % 2 ^ 32
  match layouts.getLast? with
  | none => (layouts, param)
  | some last =>
    if last.id = layoutIdRsrvInit ∨ last.id = layoutIdRsrvMax ∨ last.id = layoutIdRsrvMin ∧ last.pageCount > 0 then
      (layouts.dropLast ++ [{ last with word := (last.word + extraPages) % 2 ^ 32 }],
        if last.id = layoutIdRsrvMax then { param with rsrvMaxSize := (param.rsrvMaxSize + extraSize) % 2 ^ 64 }
        else { param with rsrvInitSize := (param.rsrvInitSize + extraSize) % 2 ^ 64 })
    else
      (layouts ++ [{ layoutEntry layoutIdGuard 0 0 0 0 with word := extraPages, long := rva }], param)

structure Metadata where
  param : CreateParam
  layouts : List Layout
  enclaveSize : Nat
  used : Nat

def buildLayoutEntries (parser : Parser) (param : CreateParam) (table : LayoutTable) (used : Nat) :
    Option Metadata := do
  let enclaveSize ← calculateEnclaveSize parser table.rva
  let (layouts, param) :=
    if enclaveSize - table.rva > 0 then padLayouts param table.layouts table.rva enclaveSize
    else (table.layouts, param)
  let used ← allocBufferFromMetadata used (layouts.length * Loader.sizeofLayout % 2 ^ 32)
  return ⟨param, layouts, enclaveSize, used⟩

def layoutEntryNum : Nat := 42

def buildGdTemplate (metadata : Metadata) : Bool := metadata.layouts.length ≤ layoutEntryNum

def buildMetadata (p : XmlParameters) (parser : Parser) : Option Metadata := do
  let param ← checkXmlParameter p
  let table ← buildLayoutTable parser param Loader.Metadata.dataOffset
  let used ← buildPatchTable parser table.used
  let metadata ← buildLayoutEntries parser param table used
  guard (buildGdTemplate metadata)
  return metadata

end CMetadata
