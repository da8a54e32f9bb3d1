import Mathlib.Data.List.Sort
import SrasMage.ProtectedFs.Impl.Crypto

/-!
This module contains the flush of a file.
-/

namespace ProtectedFs
namespace File

variable {N : Type} (P : Platform N)

variable (s : File N) (flushToDisk : Bool)

def parents (p : MhtPtr) : List Addr := go (s.mhtNode p).number p
where
  -- the numbers decrease along the walk
  go : Nat → MhtPtr → List Addr
  | 0, _ => []
  | _ + 1, .root => []
  | fuel + 1, .node a => a :: go fuel (s.heap a).parent

def setNeedWriting (s : File N) (as : List Addr) : File N :=
  as.foldl (fun s a => s.modifyNode a FileNode.setNeedWriting) s

def writeRecoveryNode (node : RecoveryNode N) : Bool × File N :=
  match s.fwriteRecoveryNode node with
  | (none, s) => (true, s)
  | (some e, s) => (false, ((s.fclose eperm).2.removeRecoveryFile).fail e)

def writeRecoveryNodes (s : File N) : List Addr → Bool × File N
  | [] => (true, s)
  | a :: as =>
    let n := s.heap a
    if n.needWriting = false ∨ n.newNode = true then writeRecoveryNodes s as
    else
      match s.writeRecoveryNode n.recoveryNode with
      | (false, s) => (false, s)
      | (true, s) => writeRecoveryNodes s as

def writeRecoveryFile : Bool × File N :=
  match s.recoveryFileOpen with
  | (some e, s) => (false, s.fail e)
  | (none, s) =>
    match s.writeRecoveryNodes s.cache.walk with
    | (false, s) => (false, s)
    | (true, s) =>
      match (if s.rootMht.needWriting = true ∧ s.rootMht.newNode = false then
          s.writeRecoveryNode s.rootMht.recoveryNode else (true, s)) with
      | (false, s) => (false, s)
      | (true, s) =>
        match s.writeRecoveryNode ⟨0, P.packMetaData s.fileMetaData⟩ with
        | (false, s) => (false, s)
        | (true, s) => (true, (s.fclose eperm).2)

def setUpdateFlag (s : File N) (flushToDisk : Bool) : Bool × File N :=
  let flagged := s.fileMetaData.setUpdateFlag true
  -- in memory the flag is off again before the result of the write is looked at
  match (s.setFileMetaData (flagged.setUpdateFlag false)).fwriteNode 0 (P.packMetaData flagged) with
  | (some e, s) => (false, s.fail e)
  | (none, s) =>
    if flushToDisk = false then (true, s)
    else
      match s.fflush with
      | (none, s) => (true, s)
      | (some e, s) => (false, ((s.fail e).fwriteNode 0 (P.packMetaData s.fileMetaData)).2)

def clearUpdateFlag : File N :=
  ((s.fwriteNode 0 (P.packMetaData s.fileMetaData)).2.fflush).2

def encryptNode (physicalNodeNumber : Nat) (plain : N) : Option (N × GcmCryptoData) × File N :=
  match s.deriveRandomNodeKey P physicalNodeNumber with
  | (false, s) => (none, s)
  | (true, s) =>
    match s.gcmEncrypt P s.curKey plain with
    | (.error e, s) => (none, s.fail e)
    | (.ok (cipher, gmac), s) => (some (cipher, ⟨s.curKey, gmac⟩), s)

def modifyMht (s : File N) (p : MhtPtr) (f : MhtNode → MhtNode) : File N :=
  s.modifyMhtNode p (fun n => n.setPlain (n.plain.mapMht f))

def updateDataNode (a : Addr) : Bool × File N :=
  let n := s.heap a
  match s.encryptNode P n.physicalNodeNumber (P.packData n.plain.toData) with
  | (none, s) => (false, s)
  | (some (cipher, c), s) =>
    let s := (s.modifyNode a (·.setEncrypted cipher)).modifyMht n.parent (fun m => m.setDataCrypto n.number c)
    (true, s.setNeedWriting (s.parents n.parent))

def updateDataNodes (s : File N) : List Addr → Bool × File N
  | [] => (true, s)
  | a :: as =>
    if (s.heap a).plain.isData = true ∧ (s.heap a).needWriting = true then
      match s.updateDataNode P a with
      | (false, s) => (false, s)
      | (true, s) => updateDataNodes s as
    else updateDataNodes s as

def updateMhtNode (a : Addr) : Bool × File N :=
  let n := s.heap a
  match s.encryptNode P n.physicalNodeNumber (P.packMht n.plain.toMht) with
  | (none, s) => (false, s)
  | (some (cipher, c), s) =>
    (true, (s.modifyNode a (·.setEncrypted cipher)).modifyMht n.parent (fun m => m.setMhtCrypto n.number c))

def updateMhtNodes (s : File N) : List Addr → Bool × File N
  | [] => (true, s)
  | a :: as =>
    match s.updateMhtNode P a with
    | (false, s) => (false, s)
    | (true, s) => updateMhtNodes s as

def mhtList : List Addr :=
  let changed := s.cache.walk.filter (fun a =>
    !(s.heap a).plain.isData && (s.heap a).needWriting)
  changed.reverse.insertionSort (fun a b => (s.heap b).number ≤ (s.heap a).number)

def setRootCrypto (cipher : N) (c : GcmCryptoData) : File N :=
  { s with
    rootMht := s.rootMht.setEncrypted cipher
    encryptedPartPlain.mhtKey := c.key
    encryptedPartPlain.mhtGmac := c.gmac }

def updateRootMht : Bool × File N :=
  match s.encryptNode P s.rootMht.physicalNodeNumber (P.packMht s.rootMht.plain.toMht) with
  | (none, s) => (false, s)
  | (some (cipher, c), s) => (true, s.setRootCrypto cipher c)

def updateAllMhtNodes : Bool × File N :=
  match s.updateMhtNodes P s.mhtList with
  | (false, s) => (false, s)
  | (true, s) => s.updateRootMht P

def updateAllDataAndMhtNodes : Bool × File N :=
  match s.updateDataNodes P s.cache.walk with
  | (false, s) => (false, s)
  | (true, s) => s.updateAllMhtNodes P

def updateMetaDataNode : Bool × File N :=
  match s.generateRandomMetaDataKey P with
  | (false, s) => (false, s)
  | (true, s) =>
    match s.gcmEncrypt P s.curKey (P.packMetaDataEncrypted s.encryptedPartPlain) with
    | (.error e, s) => (false, s.fail e)
    | (.ok (cipher, gmac), s) =>
      (true, s.setFileMetaData { s.fileMetaData with encryptedPart := cipher, plainPart.metaDataGmac := gmac })

def writeNodes (s : File N) : List Addr → Bool × File N
  | [] => (true, s)
  | a :: as =>
    let n := s.heap a
    if n.needWriting = false then writeNodes s as
    else
      match s.fwriteNode n.physicalNodeNumber n.encrypted with
      | (some e, s) => (false, s.fail e)
      | (none, s) => writeNodes (s.modifyNode a FileNode.setWritten) as

def writeChangedNodes : Bool × File N :=
  if s.encryptedPartPlain.size > mdUserDataSize ∧ s.rootMht.needWriting = true then
    match s.writeNodes s.cache.walk with
    | (false, s) => (false, s)
    | (true, s) =>
      match s.fwriteNode 1 s.rootMht.encrypted with
      | (some e, s) => (false, s.fail e)
      | (none, s) => (true, s.setRootMht s.rootMht.setWritten)
  else (true, s)

def writeAllChangesToDisk : Bool × File N :=
  match s.writeChangedNodes with
  | (false, s) => (false, s)
  | (true, s) =>
    match s.fwriteNode 0 (P.packMetaData s.fileMetaData) with
    | (some e, s) => (false, s.fail e)
    | (none, s) =>
      if flushToDisk = false then (true, s)
      else
        match s.fflush with
        | (some e, s) => (false, s.fail e)
        | (none, s) => (true, s)

def prepareNodes : Bool × File N :=
  if s.encryptedPartPlain.size > mdUserDataSize ∧ s.rootMht.needWriting = true then
    match s.writeRecoveryFile P with
    | (false, s) => (false, s.setStatus .flushError)
    | (true, s) =>
      match s.setUpdateFlag P flushToDisk with
      | (false, s) => (false, s.setStatus .flushError)
      | (true, s) =>
        match s.updateAllDataAndMhtNodes P with
        | (false, s) => (false, (s.clearUpdateFlag P).setStatus .cryptoError)
        | (true, s) => (true, s)
  else (true, s)

def finishFlush : Bool × File N :=
  match s.updateMetaDataNode P with
  | (false, s) => (false, (s.clearUpdateFlag P).setStatus .cryptoError)
  | (true, s) =>
    match s.writeAllChangesToDisk P flushToDisk with
    | (false, s) => (false, s.setStatus .writeToDiskFailed)
    | (true, s) => (true, s.setNeedWritingFlag false)

def internalFlush : Bool × File N :=
  if s.needWriting = false then (true, s)
  else
    match s.prepareNodes P flushToDisk with
    | (false, s) => (false, s)
    | (true, s) => s.finishFlush P flushToDisk

def flush (s : File N) : Bool × File N :=
  if s.fileStatus ≠ .ok then (false, s.fail sgxErrorFileBadStatus)
  else
    match s.internalFlush P true with
    | (true, s) => (true, s)
    | (false, s) =>
      (false, if s.fileStatus = .ok then s.setStatus .flushError else s)

end File
end ProtectedFs
