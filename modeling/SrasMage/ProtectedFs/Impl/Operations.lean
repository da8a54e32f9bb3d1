import SrasMage.ProtectedFs.Impl.Lookup

/-!
This module contains the operations on an open file.
-/

namespace ProtectedFs

structure Buffer where
  bytes : Nat → UInt8
  outside : Bool

def uint32Max : Nat := 2 ^ 32 - 1

inductive Origin where
  | set
  | cur
  | «end»
deriving DecidableEq

namespace File

variable {N : Type} (P : Platform N)

variable (s : File N) (data : Nat → UInt8) (left : Nat)

def setOffset (offset : Nat) : File N := { s with offset := offset }

def setEof (b : Bool) : File N := { s with endOfFile := b }

def advance (n : Nat) : File N :=
  { s with
    offset := s.offset + n
    encryptedPartPlain.size := max s.encryptedPartPlain.size (s.offset + n) }

def storeMetaData (n : Nat) : File N :=
  let s' :=
    { s with
      encryptedPartPlain.data := memcpy s.encryptedPartPlain.data s.offset n data
      needWriting := true }
  s'.advance n

def writeMetaData : File N × Nat :=
  if s.offset < mdUserDataSize then
    (s.storeMetaData data (min left (mdUserDataSize - s.offset)), min left (mdUserDataSize - s.offset))
  else (s, 0)

def markDirty (a : Addr) : File N :=
  if (s.heap a).needWriting = true then s
  else
    let s := s.modifyNode a FileNode.setNeedWriting
    let s := s.setNeedWriting (s.parents (s.heap a).parent)
    (s.setRootMht s.rootMht.setNeedWriting).setNeedWritingFlag true

def storeData (a : Addr) (data : Nat → UInt8) (n : Nat) : File N :=
  let offsetInNode := (s.offset - mdUserDataSize) % nodeSize
  (s.modifyNode a (fun node =>
    node.setPlain (node.plain.mapData (fun d => memcpy d offsetInNode n data)))).advance n

def writeLoop : Nat → File N → (Nat → UInt8) → Nat → Nat → Nat × File N
  | 0, s, _, _, left => (left, s)
  | fuel + 1, s, data, done, left =>
    if left = 0 then (0, s)
    else
      match s.getDataNode P with
      | (none, s) => (left, s)
      | (some a, s) =>
        let n := min left (nodeSize - (s.offset - mdUserDataSize) % nodeSize)
        writeLoop fuel ((s.storeData a (fun i => data (done + i)) n).markDirty a) data (done + n) (left - n)

def writeBytes : Nat × File N :=
  let (s, n) := s.writeMetaData data left
  s.writeLoop P (left - n) data n (left - n)

def writeRefused (buffer : Buffer) (size count : Nat) : Option Error :=
  if size > uint32Max ∨ count > uint32Max then some einval
  else if buffer.outside then some sgxErrorInvalidParameter
  else if s.fileStatus ≠ .ok then some sgxErrorFileBadStatus
  else if s.openMode.append = false ∧ s.openMode.update = false ∧ s.openMode.write = false then
    some eacces
  else none

def seekToStart : File N :=
  if s.openMode.append then s.setOffset s.encryptedPartPlain.size else s

def write (s : File N) (ptr : Option Buffer) (size count : Nat) : Nat × File N :=
  match ptr with
  | none => (0, s)
  | some buffer =>
    if size = 0 ∨ count = 0 then (0, s)
    else
      match s.writeRefused buffer size count with
      | some e => (0, s.fail e)
      | none =>
        let (left, s) := s.seekToStart.writeBytes P buffer.bytes (size * count)
        ((size * count - left) / size, s)

def readMetaData : File N × List UInt8 :=
  if s.offset < mdUserDataSize then
    let n := min left (mdUserDataSize - s.offset)
    (s.setOffset (s.offset + n), slice s.encryptedPartPlain.data s.offset n)
  else (s, [])

def readLoop : Nat → File N → List UInt8 → Nat → (List UInt8 × Nat) × File N
  | 0, s, out, left => ((out, left), s)
  | fuel + 1, s, out, left =>
    if left = 0 then ((out, 0), s)
    else
      match s.getDataNode P with
      | (none, s) => ((out, left), s)
      | (some a, s) =>
        let offsetInNode := (s.offset - mdUserDataSize) % nodeSize
        let n := min left (nodeSize - offsetInNode)
        let bytes := slice (s.heap a).plain.toData offsetInNode n
        readLoop fuel (s.setOffset (s.offset + n)) (out ++ bytes) (left - n)

def readBytes (attempted : Nat) : (List UInt8 × Nat) × File N :=
  let (s, out) := s.readMetaData attempted
  let left := attempted - out.length
  s.readLoop P left out left

def readRefused (outside : Bool) (size count : Nat) : Option Error :=
  if size > uint32Max ∨ count > uint32Max then some einval
  else if outside then some einval
  else if s.fileStatus ≠ .ok then some sgxErrorFileBadStatus
  else if s.openMode.read = false ∧ s.openMode.update = false then some eacces
  else none

def read (s : File N) (ptr : Option Buffer) (size count : Nat) : (Nat × List UInt8) × File N :=
  match ptr with
  | none => ((0, []), s)
  | some buffer =>
    if size = 0 ∨ count = 0 then ((0, []), s)
    else
      match s.readRefused buffer.outside size count with
      | some e => ((0, []), s.fail e)
      | none =>
        if s.endOfFile = true then ((0, []), s)
        else if s.offset = s.encryptedPartPlain.size then
          ((0, []), s.setEof true)
        else
          let attempted := min (size * count) (s.encryptedPartPlain.size - s.offset)
          let ((out, left), s) := s.readBytes P attempted
          let s :=
            if left = 0 ∧ attempted ≠ size * count then s.setEof true else s
          (((attempted - left) / size, out), s)

def setFile (b : Bool) : File N := { s with file := b }

def tell : Int × File N :=
  if s.fileStatus ≠ .ok then (-1, s.fail sgxErrorFileBadStatus) else (s.offset, s)

def seekTarget (newOffset : Int) : Origin → Option Nat
  | .set =>
    if 0 ≤ newOffset ∧ newOffset ≤ s.encryptedPartPlain.size then some newOffset.toNat else none
  | .cur =>
    if 0 ≤ s.offset + newOffset ∧ s.offset + newOffset ≤ s.encryptedPartPlain.size then
      some (s.offset + newOffset).toNat
    else none
  | .end =>
    if newOffset ≤ 0 ∧ 0 - (s.encryptedPartPlain.size : Int) ≤ newOffset then
      some (s.encryptedPartPlain.size + newOffset).toNat
    else none

def seek (s : File N) (newOffset : Int) (origin : Origin) : Int × File N :=
  if s.fileStatus ≠ .ok then (-1, s.fail sgxErrorFileBadStatus)
  else
    match s.seekTarget newOffset origin with
    | some offset => (0, (s.setOffset offset).setEof false)
    | none => (-1, s.fail einval)

def getError : Error :=
  if s.lastError ≠ 0 then s.lastError
  else if s.fileStatus ≠ .ok then sgxErrorFileBadStatus
  else 0

def getEof : Bool := s.endOfFile

def repairFlush : File N :=
  if s.fileStatus = .flushError then
    match s.internalFlush P true with
    | (true, s) => s.setStatus .ok
    | (false, s) => s
  else s

def repairWrite : File N :=
  if s.fileStatus = .writeToDiskFailed then
    match s.writeAllChangesToDisk P true with
    | (true, s) => (s.setNeedWritingFlag false).setStatus .ok
    | (false, s) => s
  else s

def repair (s : File N) : File N := (s.repairFlush P).repairWrite P

def clearError : File N :=
  match s.fileStatus with
  | .notInitialized | .closed | .cryptoError | .corrupted | .memoryCorrupted => s
  | .ok | .flushError | .writeToDiskFailed =>
    let s := s.repair P
    if s.fileStatus = .ok then (s.fail 0).setEof false else s

def settle : File N :=
  if s.fileStatus ≠ .ok then s.clearError P else (s.internalFlush P true).2

def evictAll : Nat → File N → Int × File N
  | 0, s => (if s.cache.size = 0 then 0 else 1, s)
  | fuel + 1, s =>
    if s.cache.size = 0 then (0, s)
    else
      match s.cache.getLast with
      | none => (1, s)
      | some a => if (s.heap a).needWriting then (1, s) else evictAll fuel (s.evictLast a)

def clearCache : Int × File N :=
  let s := s.settle P
  if s.fileStatus ≠ .ok then (1, s) else s.evictAll s.cache.size

def closeFile : Bool × File N :=
  if s.file then
    match s.fclose sgxErrorFileCloseFailed with
    | (none, s) => (true, s.setFile false)
    | (some e, s) => (false, (s.fail e).setFile false)
  else (true, s)

def eraseRecoveryFile : File N :=
  if s.fileStatus = .ok ∧ s.lastError = 0 then s.removeRecoveryFile else s

def exportMetaDataKey (exportKey : Bool) : (Bool × Option Key) × File N :=
  if exportKey = false then ((true, none), s)
  else if s.useUserKdkKey then ((false, none), s)
  else
    match s.restoreCurrentMetaDataKey P none with
    | (true, s) => ((true, some s.curKey), s)
    | (false, s) => ((false, none), s)

def preClose (exportKey importing : Bool) : (Bool × Option Key) × File N :=
  let imported := !(importing && s.useUserKdkKey)
  let s := if importing && !s.useUserKdkKey then s.setNeedWritingFlag true else s
  let s := s.settle P
  let settled := decide (s.fileStatus = .ok)
  let (closed, s) := s.closeFile
  let ((exported, key), s) := s.eraseRecoveryFile.exportMetaDataKey P exportKey
  ((imported && settled && closed && exported, key), s.setStatus .closed)

end File
end ProtectedFs
