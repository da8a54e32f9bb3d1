import SrasMage.Lru.Basic
import SrasMage.ProtectedFs.Nodes
import SrasMage.Sgx

/-!
This module contains the state of an open protected file, the untrusted host it talks to and the calls that
leave the file system code.
-/

namespace ProtectedFs

abbrev Error := Nat

export Sgx (sgxErrorUnexpected sgxErrorInvalidParameter)

def sgxErrorMacMismatch : Error := 0x3001
def sgxErrorFileBadStatus : Error := 0x7001
def sgxErrorFileNoKeyId : Error := 0x7002
def sgxErrorFileNameMismatch : Error := 0x7003
def sgxErrorFileNotSgxFile : Error := 0x7004
def sgxErrorFileCantOpenRecoveryFile : Error := 0x7005
def sgxErrorFileCantWriteRecoveryFile : Error := 0x7006
def sgxErrorFileRecoveryNeeded : Error := 0x7007
def sgxErrorFileFlushFailed : Error := 0x7008
def sgxErrorFileCloseFailed : Error := 0x7009
def eperm : Error := 1
def enoent : Error := 2
def eio : Error := 5
def enomem : Error := 12
def eacces : Error := 13
def einval : Error := 22
def enametoolong : Error := 36
def enotsup : Error := 95

structure KdfInput where
  index : Nat
  label : List Char
  nodeNumber : Nat
  nonce : BitVec 256
  outputLen : Nat

structure KeyRequest where
  keyId : KeyId
  cpuSvn : BitVec 128
  isvSvn : BitVec 16

structure Report where
  cpuSvn : BitVec 128
  isvSvn : BitVec 16

structure Platform (N : Type) where
  zero : N
  packData : DataNode → N
  unpackData : N → DataNode
  packMht : MhtNode → N
  unpackMht : N → MhtNode
  packMetaDataEncrypted : MetaDataEncrypted → N
  unpackMetaDataEncrypted : N → MetaDataEncrypted
  packMetaData : MetaDataNode N → N
  unpackMetaData : N → MetaDataNode N
  rijndael128GcmEncrypt : Key → N → N × Mac
  rijndael128GcmDecrypt : Key → N → Mac → Option N
  rijndael128Cmac : Key → KdfInput → Key
  getKey : KeyRequest → Key

class LawfulPlatform {N : Type} (P : Platform N) : Prop where
  unpackData_packData : ∀ d, P.unpackData (P.packData d) = d
  unpackMht_packMht : ∀ m, P.unpackMht (P.packMht m) = m
  unpackMetaDataEncrypted_pack :
    ∀ m, P.unpackMetaDataEncrypted (P.packMetaDataEncrypted m) = m
  unpackMetaData_packMetaData : ∀ m, P.unpackMetaData (P.packMetaData m) = m

attribute [simp] LawfulPlatform.unpackData_packData LawfulPlatform.unpackMht_packMht
  LawfulPlatform.unpackMetaDataEncrypted_pack LawfulPlatform.unpackMetaData_packMetaData

structure HostFile (N : Type) where
  count : Nat
  nodes : Nat → N

structure RecoveryNode (N : Type) where
  physicalNodeNumber : Nat
  nodeData : N

structure Host (N : Type) where
  main : Option (HostFile N)
  recovery : Option (List (RecoveryNode N))

inductive HostEvent (N : Type) where
  | createFile (hole : N)
  | removeFile
  | writeNode (nodeNumber : Nat) (node : N)
  | openRecovery
  | writeRecovery (node : RecoveryNode N)
  | removeRecovery

def HostFile.write {N : Type} (f : HostFile N) (nodeNumber : Nat) (node : N) : HostFile N where
  count := max f.count (nodeNumber + 1)
  nodes := Function.update f.nodes nodeNumber node

def Host.apply {N : Type} (h : Host N) : HostEvent N → Host N
  | .createFile hole => { h with main := some ⟨0, fun _ => hole⟩ }
  | .removeFile => { h with main := none }
  | .writeNode n b => { h with main := h.main.map (·.write n b) }
  | .openRecovery => { h with recovery := some [] }
  | .writeRecovery n => { h with recovery := h.recovery.map (· ++ [n]) }
  | .removeRecovery => { h with recovery := none }

structure Answer (N : Type) where
  status : Nat
  result : Int
  bytes : Option N

structure Outcome where
  status : Nat
  rand : BitVec 256

structure Outside (N : Type) where
  ocall : Nat → Answer N
  call : Nat → Outcome

def Answer.error32 {N : Type} (a : Answer N) (noErrno : Error) : Option Error :=
  if a.status ≠ 0 then some a.status
  else if a.result ≠ 0 then
    if a.result ≠ -1 then some (a.result % 2 ^ 32).toNat else some noErrno
  else none

def Answer.error8 {N : Type} (a : Answer N) (failed : Error) : Option Error :=
  if a.status ≠ 0 then some a.status
  else if a.result ≠ 0 then some failed
  else none

inductive FileStatus where
  | ok
  | notInitialized
  | flushError
  | writeToDiskFailed
  | cryptoError
  | corrupted
  | memoryCorrupted
  | closed
deriving DecidableEq

structure OpenMode where
  read : Bool
  write : Bool
  append : Bool
  binary : Bool
  update : Bool
deriving DecidableEq

abbrev Addr := Nat

inductive MhtPtr where
  | root
  | node (addr : Addr)
deriving DecidableEq

inductive Plain where
  | mht (node : MhtNode)
  | data (node : DataNode)

def Plain.isData : Plain → Bool
  | mht _ => false
  | data _ => true

def Plain.toMht : Plain → MhtNode
  | mht m => m
  | data _ => MhtNode.zero

def Plain.toData : Plain → DataNode
  | mht _ => DataNode.zero
  | data d => d

def Plain.mapMht (f : MhtNode → MhtNode) : Plain → Plain
  | mht m => mht (f m)
  | data d => data d

def Plain.mapData (f : DataNode → DataNode) : Plain → Plain
  | mht m => mht m
  | data d => data (f d)

def Plain.scrub : Plain → Plain
  | mht _ => mht MhtNode.zero
  | data _ => data DataNode.zero

structure FileNode (N : Type) where
  number : Nat
  parent : MhtPtr
  needWriting : Bool
  newNode : Bool
  physicalNodeNumber : Nat
  encrypted : N
  plain : Plain

namespace FileNode

variable {N : Type}

variable (n : FileNode N)

def recoveryNode : RecoveryNode N := ⟨n.physicalNodeNumber, n.encrypted⟩

def setNeedWriting : FileNode N := { n with needWriting := true }

def setWritten : FileNode N := { n with needWriting := false, newNode := false }

def setOld : FileNode N := { n with newNode := false }

def setEncrypted (cipher : N) : FileNode N := { n with encrypted := cipher }

def setPlain (plain : Plain) : FileNode N := { n with plain := plain }

end FileNode

structure File (N : Type) where
  fileMetaData : MetaDataNode N
  encryptedPartPlain : MetaDataEncrypted
  rootMht : FileNode N
  file : Bool
  openMode : OpenMode
  readOnly : Bool
  offset : Nat
  endOfFile : Bool
  realFileSize : Nat
  needWriting : Bool
  lastError : Error
  fileStatus : FileStatus
  useUserKdkKey : Bool
  userKdkKey : Key
  curKey : Key
  sessionMasterKey : Key
  masterKeyCount : Nat
  cache : Lru.Cache Nat Addr
  report : Report
  heap : Addr → FileNode N
  nextAddr : Addr
  host : Host N
  hostLog : List (HostEvent N)
  encryptLog : List (Key × N)
  outside : Outside N
  ocalls : Nat
  calls : Nat
  /-- The eviction loop was entered in a state that it does not leave. -/
  diverged : Bool

namespace File

variable {N : Type}

variable (s : File N) (P : Platform N)

def fail (e : Error) : File N := { s with lastError := e }

def answer : Answer N := s.outside.ocall s.ocalls

def next : File N := { s with ocalls := s.ocalls + 1 }

def outcome : Outcome := s.outside.call s.calls

def nextCall : File N := { s with calls := s.calls + 1 }

def setStatus (status : FileStatus) : File N := { s with fileStatus := status }

def setFileMetaData (m : MetaDataNode N) : File N := { s with fileMetaData := m }

def setCurKey (key : Key) : File N := { s with curKey := key }

def setCache (cache : Lru.Cache Nat Addr) : File N := { s with cache := cache }

def setRootMht (n : FileNode N) : File N := { s with rootMht := n }

def setNeedWritingFlag (b : Bool) : File N := { s with needWriting := b }

def emit (e : HostEvent N) : File N :=
  { s with host := s.host.apply e, hostLog := s.hostLog ++ [e] }

def setNode (a : Addr) (n : FileNode N) : File N :=
  { s with heap := Function.update s.heap a n }

def modifyNode (a : Addr) (f : FileNode N → FileNode N) : File N :=
  s.setNode a (f (s.heap a))

def mhtNode : MhtPtr → FileNode N
  | .root => s.rootMht
  | .node a => s.heap a

def modifyMhtNode (p : MhtPtr) (f : FileNode N → FileNode N) : File N :=
  match p with
  | .root => s.setRootMht (f s.rootMht)
  | .node a => s.modifyNode a f

def new : Bool × File N := (s.outcome.status = 0, s.nextCall)

def freadNode (nodeNumber : Nat) : Except Error N × File N :=
  match s.answer.error32 eio with
  | some e => (.error e, s.next)
  | none =>
    match s.answer.bytes with
    | some b => (.ok b, s.next)
    | none =>
      match s.host.main with
      | none => (.error eio, s.next)
      | some f => (if nodeNumber < f.count then .ok (f.nodes nodeNumber) else .error eio, s.next)

def fwriteNode (nodeNumber : Nat) (node : N) : Option Error × File N :=
  match s.answer.error32 eio with
  | none => (none, (s.emit (.writeNode nodeNumber node)).next)
  | some e =>
    -- a write that fails may still have reached the file
    match s.answer.bytes with
    | none => (some e, s.next)
    | some b => (some e, (s.emit (.writeNode nodeNumber b)).next)

def fflush : Option Error × File N :=
  (s.answer.error8 sgxErrorFileFlushFailed, s.next)

def fclose (noErrno : Error) : Option Error × File N :=
  (s.answer.error32 noErrno, s.next)

def recoveryFileOpen : Option Error × File N :=
  match s.answer.error8 sgxErrorFileCantOpenRecoveryFile with
  | some e => (some e, s.next)
  | none => (none, (s.emit .openRecovery).next)

def fwriteRecoveryNode (node : RecoveryNode N) : Option Error × File N :=
  match s.answer.error8 sgxErrorFileCantWriteRecoveryFile with
  | some e => (some e, s.next)
  | none => (none, (s.emit (.writeRecovery node)).next)

def removeRecoveryFile : File N :=
  match s.answer.error32 eperm with
  | some _ => s.next
  | none => (s.emit .removeRecovery).next

def gcmEncrypt (s : File N) (key : Key) (plain : N) : Except Error (N × Mac) × File N :=
  if s.outcome.status ≠ 0 then (.error s.outcome.status, s.nextCall)
  else
    (.ok (P.rijndael128GcmEncrypt key plain), { s with encryptLog := s.encryptLog ++ [(key, plain)] }.nextCall)

def gcmDecrypt (s : File N) (key : Key) (cipher : N) (gmac : Mac) : Except Error N × File N :=
  if s.outcome.status ≠ 0 then (.error s.outcome.status, s.nextCall)
  else
    match P.rijndael128GcmDecrypt key cipher gmac with
    | none => (.error sgxErrorMacMismatch, s.nextCall)
    | some plain => (.ok plain, s.nextCall)

def readRand : Except Error (BitVec 256) × File N :=
  (if s.outcome.status ≠ 0 then .error s.outcome.status else .ok s.outcome.rand, s.nextCall)

def cmac (s : File N) (key : Key) (input : KdfInput) : Except Error Key × File N :=
  (if s.outcome.status ≠ 0 then .error s.outcome.status else .ok (P.rijndael128Cmac key input), s.nextCall)

def getKey (P : Platform N) (s : File N) (request : KeyRequest) : Except Error Key × File N :=
  (if s.outcome.status ≠ 0 then .error s.outcome.status else .ok (P.getKey request), s.nextCall)

end File
end ProtectedFs
