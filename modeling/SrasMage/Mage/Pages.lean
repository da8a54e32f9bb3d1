import SrasMage.Loader.MemRegion
import SrasMage.SignTool.Loads

/-!
This module contains the pages of the section for measurements, as the loader adds them and as an enclave
hashes them again.
-/

namespace Mage

open Memory Hoare CLoader SignTool BlockHash List

def sectionBlocks (secSize : Nat) (sec : Mem) (pageOffset : Nat) : List (List (List UInt8)) :=
  (List.range ((secSize + (sePageSize - 1)) / sePageSize)).map fun k =>
    pageBlocks sec (sePageSize * k) (pageOffset + sePageSize * k) mageSinfo

theorem hashSection_eq (secSize : Nat) (lib : ShaLibrary) (sec : Mem) (pageOffset : Nat) :
    hashSection secSize lib sec pageOffset =
      (sectionBlocks secSize sec pageOffset).flatten.forM (sgxSha256Update lib) := by
  unfold sectionBlocks pageBlocks eextendBlocks
  rw [← flatMap_def, forM_flatMap]
  simp only [forM_eq_forM, forM_cons]
  simp only [← forM_eq_forM, forM_flatMap]
  simp only [forM_eq_forM, forM_cons, forM_map]
  rfl

section Derivation

variable {lib : ShaLibrary}

/-- The library keeps the hash and the size of a handle where an enclave copies them to. -/
def ShaLibrary.LaidOut (lib : ShaLibrary) : Prop := ∀ handle (hash : Digest) size,
  lib.state (store (store handle handleHashOffset hash.toList) handleSizeOffset (toBytes 8 size)) =
    (hash, size % 2 ^ 64)

theorem forM_sgxSha256Update (h : ∀ n, lib.update n = true) (blocks : List (List UInt8)) (hash : Digest)
    (size updates : Nat) : blocks.forM (sgxSha256Update lib) ⟨hash, size % 2 ^ 64, updates⟩ = .ok ()
      ⟨lib.hash.absorb hash blocks, (size + sizeofBlocks blocks) % 2 ^ 64, updates + blocks.length⟩ := by
  induction blocks generalizing hash size updates with
  | nil => rfl
  | cons block blocks ih =>
    have hstep : sgxSha256Update lib block ⟨hash, size % 2 ^ 64, updates⟩ = .ok ()
        ⟨lib.hash.compress hash block, (size + block.length) % 2 ^ 64, updates + 1⟩ := by
      rw [← Nat.mod_add_mod]
      simp only [sgxSha256Update, h]
      rfl
    rw [forM_eq_forM, forM_cons, bind_of_ok hstep, ← forM_eq_forM, ih]
    simp only [sizeofBlocks_cons, absorb_cons, length_cons, Nat.add_assoc, Nat.add_comm 1]

/--
An enclave derives the hash that an entry has after the pages of the section, if the handle is laid out as expected.
-/
theorem sgxMageDeriveMeasurement_eq {secSize mageIdx : Nat} {sec handle : Mem} (hlaid : lib.LaidOut)
    (hinit : lib.init = some handle) (hupdate : ∀ n, lib.update n = true) (hget : lib.getHash = true)
    (hpass : guardPasses secSize sec mageIdx true = true) :
    let mage := mageEntry sec (entryOffset mageIdx)
    let blocks := (sectionBlocks secSize sec mage.offset).flatten
    sgxMageDeriveMeasurement secSize lib sec mageIdx true = .ok
      (lib.hash.finish (lib.hash.absorb mage.digest blocks) ((mage.size + sizeofBlocks blocks) % 2 ^ 64)) := by
  intro mage blocks
  have hhash := forM_sgxSha256Update hupdate blocks mage.digest mage.size 0
  rw [← hashSection_eq] at hhash
  simp only [sgxMageDeriveMeasurement, hpass, hinit, hlaid _ _ _]
  rewrite [hhash, hget]
  rfl

end Derivation

def magePages (mage : MageSection) : List Page :=
  (List.range ((mage.virtualSize + (sePageSize - 1)) / sePageSize)).map fun k =>
    ⟨some mage.rawData, (mage.rva + sePageSize * k) % 2 ^ 64, .ofFlags mageFlags, addExtendPage⟩

theorem buildMagePages_eq {σ : Type} (creator : Creator σ) (mage : MageSection) :
    buildMagePages creator (some mage) false = (magePages mage).forM creator.addEnclavePage := by
  unfold magePages
  rw [forM_eq_forM, forM_map]
  rfl

section Loads

variable {mage : MageSection} {secs : List SectionInfo}

def signCreator (evp : Evp) : Creator EnclaveCreator := ⟨false, fun _ _ => pure (), SignTool.addEnclavePage evp⟩

theorem buildMemRegions_eq_forM (h : ∀ sec ∈ secs, Fits sec (some mage)) : ∃ pages : List Page, ∀ evp,
    secs.forM (buildMemRegion (signCreator evp) (some mage)) = pages.forM (SignTool.addEnclavePage evp) := by
  induction secs with
  | nil => exact ⟨[], fun _ => rfl⟩
  | cons sec secs ih =>
    obtain ⟨pages, -, hpages⟩ := buildMemRegion_eq_forM (h sec mem_cons_self)
    obtain ⟨pages', hpages'⟩ := ih fun sec hsec => h sec (mem_cons_of_mem _ hsec)
    refine ⟨pages ++ pages', fun evp => ?_⟩
    simp only [forM_eq_forM] at hpages hpages' ⊢
    rw [forM_cons, forM_append, hpages' evp, hpages (signCreator evp) rfl]
    rfl

/--
The pages that the sign tool measures are those that the loader builds with its creator: the sections of a file, the
contexts of its layout and, unless it is loaded to be signed, the section for measurements.
-/
theorem loadEnclave_eq (h : ∀ sec ∈ secs, Fits sec (some mage)) (contexts : List Page) (forSign : Bool) :
    ∃ pages : List Page, ∀ evp ssaFrameSize enclaveSize, loadEnclave evp ⟨ssaFrameSize, enclaveSize, true, pages⟩ = (do
      createEnclave evp ssaFrameSize enclaveSize
      tryCatch (do
          secs.forM (buildMemRegion (signCreator evp) (some mage))
          contexts.forM (SignTool.addEnclavePage evp)
          buildMagePages (signCreator evp) (some mage) forSign
          initEnclave evp)
        fun e => do
          destroyEnclave
          throw e) := by
  obtain ⟨pages, hpages⟩ := buildMemRegions_eq_forM h
  refine ⟨pages ++ contexts ++ if forSign then [] else magePages mage, fun evp _ _ => ?_⟩
  have hmage : buildMagePages (signCreator evp) (some mage) forSign =
      (if forSign then [] else magePages mage).forM (SignTool.addEnclavePage evp) := by
    cases forSign with
    | true => rfl
    | false => exact buildMagePages_eq (signCreator evp) mage
  rw [loadEnclave, hpages, hmage]
  simp only [forM_eq_forM, forM_append, bind_assoc]
  rfl

end Loads

-- Pages are compared without looking at their bytes.
attribute [local irreducible] load

variable {m m' : Mem} {a b offset offset' : Nat}

theorem load_part {k n : Nat} (h : load m a sePageSize = load m' b sePageSize) (hle : k + n ≤ sePageSize) :
    load m (a + k) n = load m' (b + k) n := by rw [← load_load m a hle, h, load_load m' b hle]

theorem toBytes_add_congr (h : offset % 2 ^ 64 = offset' % 2 ^ 64) (k : Nat) :
    toBytes 8 (offset + k) = toBytes 8 (offset' + k) := by
  apply toBytes_congr
  have hpow : (256 : Nat) ^ 8 = 2 ^ 64 := by decide
  rw [hpow, Nat.add_mod, h, ← Nat.add_mod]

theorem eextendBlocks_congr (h : load m a sePageSize = load m' b sePageSize)
    (hoffset : offset % 2 ^ 64 = offset' % 2 ^ 64) :
    eextendBlocks m a offset = eextendBlocks m' b offset' := by
  have hdata : ∀ i < 16, ∀ j ∈ List.range eextendTime,
      load m (a + (dataBlockSize * eextendTime * i + dataBlockSize * j)) dataBlockSize =
        load m' (b + (dataBlockSize * eextendTime * i + dataBlockSize * j)) dataBlockSize := by
    intro i hi j hj
    have hj := mem_range.1 hj
    apply load_part h
    unfold eextendTime dataBlockSize sePageSize at *
    omega
  unfold eextendBlocks eextendBlock
  apply flatMap_congr
  intro i hi
  rw [toBytes_add_congr hoffset, map_congr_left (hdata i (mem_range.1 hi))]

theorem addBlocks_magePage (mage : MageSection) (k : Nat)
    (h : load mage.rawData (sePageSize * k) sePageSize = load mage.rawData 0 sePageSize) :
    addBlocks ⟨some mage.rawData, (mage.rva + sePageSize * k) % 2 ^ 64, .ofFlags mageFlags, addExtendPage⟩ =
      pageBlocks mage.rawData (sePageSize * k) (mage.rva + sePageSize * k) mageSinfo := by
  have hmod : (mage.rva + sePageSize * k) % 2 ^ 64 % 2 ^ 64 = (mage.rva + sePageSize * k) % 2 ^ 64 := Nat.mod_mod _ _
  have hflags : (SecInfo.ofFlags mageFlags).bytes.take 48 = mageSinfo.take 48 := by decide
  have headd : addExtendPage &&& pageAttrEadd ≠ 0 := by decide
  have hextend : addExtendPage &&& addExtendPage = addExtendPage := by decide
  have hoffset : toBytes 8 ((mage.rva + sePageSize * k) % 2 ^ 64) = toBytes 8 (mage.rva + sePageSize * k) :=
    toBytes_add_congr hmod 0
  have hblocks : eextendBlocks mage.rawData 0 ((mage.rva + sePageSize * k) % 2 ^ 64) =
      eextendBlocks mage.rawData (sePageSize * k) (mage.rva + sePageSize * k) := eextendBlocks_congr h.symm hmod
  unfold addBlocks extendBlocks pageBlocks eaddBlock Page.memory
  simp only [headd, hextend, hflags, hoffset, hblocks, if_false, if_true, Option.getD_some]

/--
The loader adds the pages of the section, and an enclave hashes what the loader measures, if and only if all of its
pages are equal.
-/
theorem buildMagePages_iff {useSeHw : Bool} {mprotect : List Page → Nat → Bool} {status : List Page → Page → Status}
    {mage : MageSection} {added : List Page} {n : Nat} (hsize : mage.virtualSize = sePageSize * n)
    (hbuild : buildMagePages (recorder useSeHw mprotect status) (some mage) false [] = .ok () added) :
    (added.map (fun page => (page.offset, page.content)) =
        (List.range n).map (fun k =>
          ((mage.rva + sePageSize * k) % 2 ^ 64, load mage.rawData (sePageSize * k) sePageSize)) ∧
      added.map addBlocks = sectionBlocks mage.virtualSize mage.rawData mage.rva) ↔
    ∀ k < n, load mage.rawData (sePageSize * k) sePageSize = load mage.rawData 0 sePageSize := by
  rw [buildMagePages_eq] at hbuild
  have hadded := (runs_forM_recorder (magePages mage) []).ok hbuild
  have hpages : (mage.virtualSize + (sePageSize - 1)) / sePageSize = n := by
    rw [hsize, Nat.mul_add_div (by decide)]
    rfl
  rw [hadded, nil_append, magePages, sectionBlocks, hpages, map_map, map_map]
  constructor
  . rintro ⟨h, -⟩ k hk
    have hpage := map_inj_left.1 h k (mem_range.2 hk)
    exact (Prod.mk.inj hpage).2.symm
  intro h
  constructor
  . apply map_congr_left
    intro k hk
    rw [h k (mem_range.1 hk)]
    rfl
  . apply map_congr_left
    intro k hk
    exact addBlocks_magePage mage k (h k (mem_range.1 hk))

def twoPages : MageSection where
  rawData a := if a = 4096 then 1 else 0
  rva := 0x2000
  virtualSize := 8192

def equalPages : MageSection := { twoPages with rawData := fun a => UInt8.ofNat (a % sePageSize) }

theorem buildMagePages_equalPages : ∃ added,
    buildMagePages (recorder false (fun _ _ => true) fun _ _ => 0) (some equalPages) false [] = .ok () added ∧
      added.map (fun page => (page.offset, page.content)) =
        (List.range 2).map (fun k =>
          ((equalPages.rva + sePageSize * k) % 2 ^ 64, load equalPages.rawData (sePageSize * k) sePageSize)) ∧
      added.map addBlocks = sectionBlocks equalPages.virtualSize equalPages.rawData equalPages.rva := by
  have hbuild : buildMagePages (recorder false (fun _ _ => true) fun _ _ => 0) (some equalPages) false [] =
      .ok () (magePages equalPages) := rfl
  refine ⟨_, hbuild, (buildMagePages_iff (n := 2) rfl hbuild).2 ?_⟩
  intro k _
  unfold load
  congr 1
  funext i
  simp [equalPages]

theorem buildMagePages_twoPages :
    buildMagePages (recorder false (fun _ _ => true) fun _ _ => 0) (some twoPages) false [] =
        .ok () (magePages twoPages) ∧
      (magePages twoPages).map (fun page => (page.offset, page.memory 0)) = [(0x2000, 0), (0x3000, 0)] ∧
      twoPages.rawData 4096 = 1 ∧
      (magePages twoPages).map addBlocks ≠ sectionBlocks twoPages.virtualSize twoPages.rawData twoPages.rva :=
  ⟨rfl, by decide, by decide, by decide +kernel⟩

end Mage
