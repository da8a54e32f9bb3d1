import SrasMage.ProtectedFs.Impl.Flush

/-!
This module contains the lookup of the data node at the current offset.
-/

namespace ProtectedFs

def maxPagesInCache : Nat := 48

namespace File

variable {N : Type} (P : Platform N)

variable (s : File N)

def alloc (n : FileNode N) : File N :=
  { s.setNode s.nextAddr n with nextAddr := s.nextAddr + 1 }

def addNode (n : FileNode N) : Option Addr × File N :=
  match s.new with
  | (false, s) => (none, s.fail enomem)
  | (true, s) =>
    (some s.nextAddr, (s.alloc n).setCache (s.cache.add n.physicalNodeNumber s.nextAddr))

def appendNode (number physicalNodeNumber : Nat) (parent : MhtPtr) (plain : Plain) : Option Addr × File N :=
  match s.new with
  | (false, s) => (none, s.fail enomem)
  | (true, s) =>
    s.addNode
      { number := number
        parent := parent
        needWriting := false
        newNode := true
        physicalNodeNumber := physicalNodeNumber
        encrypted := P.zero
        plain := plain }

def loadNode (number physicalNodeNumber : Nat) (parent : MhtPtr) (c : GcmCryptoData) (cast : N → Plain) :
    Option Addr × File N :=
  match s.new with
  | (false, s) => (none, s.fail enomem)
  | (true, s) =>
    match s.freadNode physicalNodeNumber with
    | (.error e, s) => (none, s.fail e)
    | (.ok cipher, s) =>
      match s.gcmDecrypt P c.key cipher c.gmac with
      | (.error e, s) =>
        let s := s.fail e
        (none, if e = sgxErrorMacMismatch then s.setStatus .corrupted else s)
      | (.ok plain, s) =>
        s.addNode
          { number := number
            parent := parent
            needWriting := false
            newNode := false
            physicalNodeNumber := physicalNodeNumber
            encrypted := cipher
            plain := cast plain }

def readMhtNode (mhtNodeNumber : Nat) : Option MhtPtr × File N :=
  go mhtNodeNumber mhtNodeNumber s
where
  go : Nat → Nat → File N → Option MhtPtr × File N
  | _, 0, s => (some .root, s)
  -- the number of the parent is smaller, so this is not reached
  | 0, _ + 1, s => (none, s)
  | fuel + 1, m + 1, s =>
    match s.cache.find (physicalMhtNode (m + 1)) with
    | some a => (some (.node a), s)
    | none =>
      match go fuel (NodeId.mht (m + 1)).parent s with
      | (none, s) => (none, s)
      | (some parent, s) =>
        let (a, s) := s.loadNode P (m + 1) (physicalMhtNode (m + 1)) parent
          ((s.mhtNode parent).plain.toMht.mhtCrypto (m + 1)) (fun b => .mht (P.unpackMht b))
        (a.map .node, s)

def appendMhtNode (mhtNodeNumber : Nat) : Option MhtPtr × File N :=
  match s.readMhtNode P (NodeId.mht mhtNodeNumber).parent with
  | (none, s) => (none, s)
  | (some parent, s) =>
    let (a, s) := s.appendNode P mhtNodeNumber (physicalMhtNode mhtNodeNumber) parent
      (.mht MhtNode.zero)
    (a.map .node, s)

def getMhtNode : Option MhtPtr × File N :=
  if s.offset < mdUserDataSize then (none, s.fail sgxErrorUnexpected)
  else
    let mhtNodeNumber := (getNodeNumbers s.offset).mhtNodeNumber
    if mhtNodeNumber = 0 then (some .root, s)
    else if (s.offset - mdUserDataSize) % (attachedDataNodesCount * nodeSize) = 0
        ∧ s.offset = s.encryptedPartPlain.size then
      s.appendMhtNode P mhtNodeNumber
    else
      s.readMhtNode P mhtNodeNumber

def appendDataNode : Option Addr × File N :=
  match s.getMhtNode P with
  | (none, s) => (none, s)
  | (some parent, s) =>
    let numbers := getNodeNumbers s.offset
    s.appendNode P numbers.dataNodeNumber numbers.physicalDataNodeNumber parent
      (.data DataNode.zero)

def readDataNode : Option Addr × File N :=
  let numbers := getNodeNumbers s.offset
  match s.cache.get numbers.physicalDataNodeNumber with
  | (some a, cache) => (some a, s.setCache cache)
  | (none, _) =>
    match s.getMhtNode P with
    | (none, s) => (none, s)
    | (some parent, s) =>
      s.loadNode P numbers.dataNodeNumber numbers.physicalDataNodeNumber parent
        ((s.mhtNode parent).plain.toMht.dataCrypto numbers.dataNodeNumber) (fun b => .data (P.unpackData b))

def bump (as : List Addr) : File N :=
  as.foldl (fun s a => s.setCache (s.cache.get (s.heap a).physicalNodeNumber).2) s

def bumpParents : Option Addr → File N
  | none => s
  | some a => s.bump (s.parents (s.heap a).parent)

def evictLast (a : Addr) : File N :=
  (s.modifyNode a (fun n => n.setPlain n.plain.scrub)).setCache s.cache.removeLast

def evict : Nat → File N → Bool × File N
  | fuel, s =>
    if s.cache.size ≤ maxPagesInCache then (true, s)
    else
      match fuel with
      | 0 => (false, { s with diverged := true })
      | fuel + 1 =>
        match s.cache.getLast with
        | none => (false, s.fail sgxErrorUnexpected)
        | some a =>
          if (s.heap a).needWriting = false then evict fuel (s.evictLast a)
          else
            match s.internalFlush P false with
            | (true, s) => evict fuel s
            | (false, s) =>
              (false, if s.fileStatus = .ok then s.setStatus .flushError else s)

def findDataNode : Option Addr × File N :=
  if (s.offset - mdUserDataSize) % nodeSize = 0 ∧ s.offset = s.encryptedPartPlain.size then
    s.appendDataNode P
  else
    s.readDataNode P

def getDataNode : Option Addr × File N :=
  if s.offset < mdUserDataSize then (none, s.fail sgxErrorUnexpected)
  else
    let (found, s) := s.findDataNode P
    let s := s.bumpParents found
    match s.evict P (2 * s.cache.size + 2) with
    | (true, s) => (found, s)
    | (false, s) => (none, s)

end File
end ProtectedFs
