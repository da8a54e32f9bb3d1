import SrasMage.Loader.Pages
import SrasMage.Mage.Derive

/-!
This module contains the enclave creator of the sign tool
(`sdk/sign_tool/SignTool/enclave_creator_sign.cpp`), which measures the pages the loader adds instead of
adding them.
-/

namespace SignTool

open Memory Mage Hoare
open CLoader (Page SecInfo pageAttrEadd addExtendPage)

def siFlagsExternal : UInt64 := 0xFF07

def sgxErrorInvalidEnclave : Status := 0x2001

structure Evp where
  hash : BlockHash
  fails : Nat → Bool

structure MdCtx where
  state : Digest
  size : Nat
deriving DecidableEq

structure EnclaveCreator where
  hashValidFlag : Bool := false
  enclaveHash : Digest := Vector.replicate 32 0
  ctx : Option MdCtx := none
  quota : Nat := 0
  mage : MageEntry := ⟨0, 0, Vector.replicate 32 0⟩
  calls : Nat := 0
deriving DecidableEq

abbrev CreatorM := EStateM Status EnclaveCreator

variable (evp : Evp)

def callEvp : CreatorM Unit := do
  let s ← get
  set { s with calls := s.calls + 1 }
  if evp.fails s.calls then throw sgxErrorUnexpected

def MdCtx.update (hash : BlockHash) (block : List UInt8) (ctx : MdCtx) : MdCtx where
  state := hash.compress ctx.state block
  size := ctx.size + block.length

def evpDigestUpdate (block : List UInt8) : CreatorM Unit := do
  callEvp evp
  modify fun s => { s with
    ctx := s.ctx.map (MdCtx.update evp.hash block),
    mage.size := (s.mage.size + dataBlockSize) % 2 ^ 64 }

def ecreateBlock (ssaFrameSize size : Nat) : List UInt8 :=
  Elf.ascii "ECREATE" ++ [0] ++ toBytes 4 ssaFrameSize ++ toBytes 8 size ++ List.replicate 44 0

def createEnclave (ssaFrameSize size : Nat) : CreatorM Unit := do
  modify fun s => { s with enclaveHash := Vector.replicate 32 0, ctx := none }
  callEvp evp -- EVP_MD_CTX_create
  modify fun s => { s with ctx := some ⟨evp.hash.start, 0⟩ }
  callEvp evp -- EVP_DigestInit_ex
  evpDigestUpdate evp (ecreateBlock ssaFrameSize size)

def eextend (page : Page) : CreatorM Unit :=
  if page.attr &&& addExtendPage ≠ addExtendPage then pure ()
  else (List.range (sePageSize / (dataBlockSize * eextendTime))).forM fun i => do
    evpDigestUpdate evp (eextendBlock (page.offset + dataBlockSize * eextendTime * i))
    (List.range eextendTime).forM fun j =>
      evpDigestUpdate evp (load page.memory (0 + (dataBlockSize * eextendTime * i + dataBlockSize * j)) dataBlockSize)

def measurePage (page : Page) : CreatorM Unit := do
  evpDigestUpdate evp (eaddBlock page.offset page.sinfo.bytes)
  eextend evp page
  modify fun s => { s with quota := (s.quota + sePageSize) % 2 ^ 64 }

def addEnclavePage (page : Page) : CreatorM Unit :=
  if page.sinfo.reserved.any (· ≠ 0) then throw sgxErrorUnexpected
  else if page.sinfo.flags &&& ~~~siFlagsExternal ≠ 0 then throw sgxErrorUnexpected
  else if page.attr &&& pageAttrEadd = 0 then pure ()
  else measurePage evp page

def initEnclave : CreatorM Unit := do
  let s ← get
  match s.ctx with
  | none => throw sgxErrorUnexpected
  | some ctx =>
    set { s with mage.digest := ctx.state }
    callEvp evp -- EVP_DigestFinal_ex
    modify fun s => { s with enclaveHash := evp.hash.finish ctx.state ctx.size, hashValidFlag := true }

def destroyEnclave : CreatorM Unit := modify fun s => { s with ctx := none }

structure EnclaveInfo where
  hash : Digest
  quota : Nat
  mage : MageEntry
deriving DecidableEq

def getEnclaveInfo (s : EnclaveCreator) : Except Status EnclaveInfo :=
  if s.hashValidFlag = false then throw sgxErrorUnexpected else return ⟨s.enclaveHash, s.quota, s.mage⟩

structure Image where
  ssaFrameSize : Nat
  enclaveSize : Nat
  relocBitmap : Bool
  pages : List Page

def loadEnclave (image : Image) : CreatorM Unit := do
  createEnclave evp image.ssaFrameSize image.enclaveSize
  if !image.relocBitmap then throw sgxErrorInvalidEnclave
  else
    tryCatch (do
        image.pages.forM (addEnclavePage evp)
        initEnclave evp)
      (fun e => do
        destroyEnclave
        throw e)

def stateAfter (x : CreatorM Unit) (s : EnclaveCreator) : EnclaveCreator :=
  match x s with
  | .ok _ s' => s'
  | .error _ s' => s'

def afterLoads (images : List Image) : EnclaveCreator :=
  images.foldl (fun s image => stateAfter (loadEnclave evp image) s) {}

end SignTool
