import SrasMage.Vmc.Cache

/-!
This module contains the operations on the database of virtual monotonic counters.
-/

namespace Vmc

open Merkle

variable {W D R : Type} [DecidableEq D] [DecidableEq R] (P : Outside W D R)

variable (s : State W D R) (owner : IsvAttributes) (op : RpdbOp) (data : Leaf D)

def getDbChildrenOfRoot : Except OpError (D × D) × State W D R :=
  match P.sqliteReadChildrenOfRoot s.world with
  | (none, w) => (.error .internal, { s with world := w })
  | (some (rc, children), w) =>
    if rc = .success then (.ok children, { s with world := w })
    else (.error rc, { s with world := w })

def verifyRootNode (children : D × D) (s : State W D R) : OpError × State W D R :=
  match hashRoot P s children with
  | (none, s) => (.internal, s)
  | (some rootHash, s) =>
    match getCachedRoothash s with
    | none => (.internal, s)
    | some cachedRootHash => (if cachedRootHash ≠ rootHash then .invalidVmcDb else .success, s)

def rollbackDbFile : Bool × State W D R :=
  match P.sqliteRollbackDbFile s.world with
  | (rc, w) => (rc = some .success, { s with world := w })

def pseVmcDatabaseCheckError : OpError × State W D R :=
  match getDbChildrenOfRoot P s with
  | (.error rc, s) => (rc, s)
  | (.ok children, s) =>
    match verifyRootNode P children s with
    | (.invalidVmcDb, s) =>
      match rollbackDbFile P s with
      | (false, s) => (.invalidVmcDb, s)
      | (true, s) =>
        match getDbChildrenOfRoot P s with
        | (.error rc, s) => (rc, s)
        | (.ok children, s) => verifyRootNode P children s
    | (rc, s) => (rc, s)

def setStatus (rc : OpError) (s : State W D R) : OpError × State W D R :=
  (rc, { s with mcServiceStatus := rc })

def reinitDb : OpError × State W D R :=
  match resetRpdata P s with
  | (.success, s) =>
    let child := P.internalNodeHashValueTable (initMaxHashTreeLayer - 3)
    match hashRoot P s (child, child) with
    | (none, s) => setStatus .internal s
    | (some root, s) =>
      match updateRpdata P s root with
      | (.success, s) =>
        match P.sqliteDbInitHashTreeTable s.world with
        | (some .success, w) => setStatus .success { s with world := w }
        | (_, w) => setStatus .internal { s with world := w }
      | (rc, s) => setStatus rc s
  | (rc, s) => setStatus rc (clearCachedRpdata P s)

def initializeSqliteDatabaseFile (isForEmptyDbCreation : Bool) (s : State W D R) : OpError × State W D R :=
  match readRpdata P { s with tree := flushHashTreeCache } with
  | (.success, s) =>
    if isForEmptyDbCreation then reinitDb P s
    else
      match pseVmcDatabaseCheckError P s with
      | (.databaseFatal, s) => reinitDb P s
      | (.invalidVmcDb, s) => reinitDb P s
      | (rc, s) => setStatus rc s
  | (rc, s) => setStatus rc s

def Suite.ownerId (S : Suite D R) (owner : IsvAttributes) (mcPolicy : UInt16) (maskFlags maskXfrm : UInt64) : D :=
  let signer := if mcPolicy &&& mcPolicySigner ≠ 0 then [owner.mrSigner] else []
  let enclave := if mcPolicy &&& mcPolicyEnclave ≠ 0 then [owner.mrEnclave] else []
  S.ownerHash (signer ++ enclave) (owner.flags &&& maskFlags) (owner.xfrm &&& maskXfrm) owner.isvProdId

def calculateOwnerId (mcPolicy : UInt16) (maskFlags maskXfrm : UInt64) (w : W) : Option D × W :=
  match P.sha256 w with
  | (false, w) => (none, w)
  | (true, w) => (some (P.ownerId owner mcPolicy maskFlags maskXfrm), w)

def rpdbAccessible (vmc : Leaf D) (w : W) : OpError × W :=
  match calculateOwnerId P owner vmc.ownerPolicy vmc.ownerMaskFlags vmc.ownerMaskXfrm w with
  | (none, w) => (.internal, w)
  | (some id, w) =>
    if id ≠ vmc.ownerId then (.invalidOwner, w)
    else if vmc.ownerSvn > owner.isvSvn then (.invalidOwner, w)
    else (.success, w)

def Suite.zeroPath (S : Suite D R) : Path D R :=
  ⟨0, S.zeroLeaf, 0, S.zeroLeaf, List.replicate initInternalNodeNr ⟨0, S.zeroDigest, 0, S.zeroDigest⟩,
    List.length_replicate, S.zeroRoot⟩

def fetchFromDb (leafId : Nat) (s : State W D R) : Except OpError (Path D R) × State W D R :=
  match P.sqliteReadDb leafId s.world with
  | (none, w) => (.error .internal, { s with world := w })
  | (some (rc, cache), w) =>
    if rc ≠ .success then (.error rc, { s with world := w })
    else
      let cache := setRelatedNodesIds leafId cache
      match verifyRelatedNodesOfLeaf P cache { s with world := w } with
      | ((.success, _), s) => (.ok cache, s)
      | ((rc, _), s) => (.error rc, s)

def fetch (leafId : Nat) (rpdataRoothash : R) (s : State W D R) : Except OpError (Path D R × Bool) × State W D R :=
  match readHashTreeCache P op (setRelatedNodesIds leafId P.zeroPath) rpdataRoothash s with
  | (some cache, s) => (.ok (cache, true), s)
  | (none, s) =>
    match fetchFromDb P leafId s with
    | (.ok cache, s) => (.ok (cache, false), s)
    | (.error rc, s) => (.error rc, s)

def checkLeaf (nonce : Nonce) (op : RpdbOp) (leaf : Leaf D) (w : W) : OpError × W :=
  match op with
  | .create => (if leaf.isUsed ≠ 0 then .internal else .success, w)
  | .read =>
    (if leaf.isUsed = 0 then .invalidCounter else if nonce ≠ leaf.nonce then .invalidCounter else .success, w)
  | _ =>
    if leaf.isUsed = 0 then (.invalidCounter, w)
    else if nonce ≠ leaf.nonce then (.invalidCounter, w)
    else rpdbAccessible P owner leaf w

def updatesFlag : RpdbOp → Bool
  | .create => true
  | .delete => true
  | _ => false

def flagOp (flag : Option OpLeafnodeFlag) : LeafnodeFlagOp :=
  if updatesFlag op then (flag.map (·.opType)).getD .nonOp else .nonOp

def commit (flag : Option OpLeafnodeFlag) (cache : Path D R) (s : State W D R) : OpError × State W D R :=
  match updateRelatedNodesOfLeaf P cache (flagOp op flag) s with
  | (none, s) => (.internal, s)
  | (some cache, s) =>
    match P.sqliteWriteDb cache (updatesFlag op) flag s.world with
    | (none, w) => (.internal, { s with world := w })
    | (some .success, w) =>
      match updateRpdata P { s with world := w } cache.root with
      | (.success, s) => (.success, updateHashTreeCache P op cache s)
      | (rc, s) => (rc, s)
    | (some rc, w) => (rc, { s with world := w })

def operateLeaf (nonce : Nonce) (rpdb : Leaf D) (op : RpdbOp) (flag : Option OpLeafnodeFlag) (leafId : Nat)
    (rpdataRoothash : R) (s : State W D R) : (OpError × Leaf D) × State W D R :=
  match fetch P op leafId rpdataRoothash s with
  | (.error rc, s) => ((rc, rpdb), s)
  | (.ok (cache, isReadFromCache), s) =>
    match checkLeaf P owner nonce op cache.self s.world with
    | (.success, w) =>
      let s := { s with world := w }
      match op with
      | .read =>
        if isReadFromCache then ((.success, cache.self), s)
        else
          match getCachedRoothash s with
          | none => ((.internal, cache.self), s)
          | some root => ((.success, cache.self), updateHashTreeCache P op { cache with root := root } s)
      | .increment =>
        let leaf := { cache.self with value := cache.self.value + 1 }
        let (rc, s) := commit P op flag { cache with self := leaf } s
        ((rc, leaf), s)
      | _ =>
        let (rc, s) := commit P op flag { cache with self := rpdb } s
        ((rc, rpdb), s)
    | (rc, w) => ((rc, rpdb), { s with world := w })

def operateVmc (uuid : Uuid) (rpdb : Leaf D) (op : RpdbOp) (flag : Option OpLeafnodeFlag) (s : State W D R) :
    (OpError × Leaf D) × State W D R :=
  if uuid.entryIndex.toNat > initLeafNodeIdBase - 1 then ((.invalidCounter, rpdb), s)
  else
    match readRpdata P s with
    | (.success, s) =>
      match getCachedRoothash s with
      | none => ((.internal, rpdb), s)
      | some rpdataRoothash =>
        operateLeaf P owner uuid.nonce rpdb op flag (uuid.entryIndex.toNat + initLeafNodeIdBase) rpdataRoothash s
    | (rc, s) => ((rc, rpdb), s)

def isBroken (rc : OpError) : Bool := rc = .invalidVmcDb || rc = .databaseFatal

def createAt (uuid : Uuid) (s : State W D R) (again : OpError → State W D R → (OpError × Uuid) × State W D R) :
    (OpError × Uuid) × State W D R :=
  match operateVmc P owner uuid { data with isUsed := 1 } .create (some ⟨.setLeafnodeFlag, owner.mrSigner⟩) s with
  | ((rc, _), s) => if isBroken rc then again rc s else ((rc, uuid), s)

def createRound (s : State W D R) (again : OpError → State W D R → (OpError × Uuid) × State W D R) :
    (OpError × Uuid) × State W D R :=
  match P.sqliteGetEmptyLeafnode owner.mrSigner s.world with
  | (none, w) => ((.internal, ⟨0, data.nonce⟩), { s with world := w })
  | (some (rc, leafNodeId), w) =>
    if rc = .success then
      if leafNodeId < initLeafNodeIdBase ∨ leafNodeId > initMaxLeafNodeId then
        ((.internal, ⟨0, data.nonce⟩), { s with world := w })
      else
        createAt P owner data
          ⟨BitVec.ofNat 24 (leafNodeId.toNat - initLeafNodeIdBase), data.nonce⟩ { s with world := w } again
    else if isBroken rc then again rc { s with world := w }
    else ((rc, ⟨0, data.nonce⟩), { s with world := w })

def createLoop (owner : IsvAttributes) (data : Leaf D) : Nat → State W D R → (OpError × Uuid) × State W D R
  | 0, s => createRound P owner data s fun rc s => ((rc, ⟨0, data.nonce⟩), s)
  | retryTimes + 1, s =>
    createRound P owner data s fun _ s =>
      match initializeSqliteDatabaseFile P true s with
      | (.success, s) => createLoop owner data retryTimes s
      | (rc, s) => ((rc, ⟨0, data.nonce⟩), s)

def invalidUuid : Uuid := ⟨0xFFFFFF, 0⟩

def ensureService : OpError × State W D R :=
  if s.mcServiceStatus = .success then (.success, s) else initializeSqliteDatabaseFile P false s

def createVmc (s : State W D R) : (OpError × Uuid) × State W D R :=
  match ensureService P s with
  | (.success, s) =>
    match calculateOwnerId P owner data.ownerPolicy data.ownerMaskFlags data.ownerMaskXfrm s.world with
    | (none, w) => ((.internal, invalidUuid), { s with world := w })
    | (some id, w) =>
      match P.readRand w with
      | (none, w) => ((.internal, invalidUuid), { s with world := w })
      | (some nonce, w) =>
        let data := { data with ownerId := id, ownerSvn := owner.isvSvn, nonce := nonce }
        match createLoop P owner data 1 { s with world := w } with
        | ((.success, uuid), s) => ((.success, uuid), s)
        | ((rc, _), s) => ((rc, invalidUuid), s)
  | (rc, s) => ((rc, invalidUuid), s)

def accessVmc (owner : IsvAttributes) (uuid : Uuid) (rpdb : Leaf D) (s : State W D R) :
    (OpError × Leaf D) × State W D R :=
  match ensureService P s with
  | (.success, s) =>
    match operateVmc P owner uuid rpdb op none s with
    | ((rc, leaf), s) =>
      if isBroken rc then
        match initializeSqliteDatabaseFile P true s with
        | (.success, s) => ((.invalidCounter, leaf), s)
        | (rc, s) => ((rc, leaf), s)
      else ((rc, leaf), s)
  | (rc, s) => ((rc, rpdb), s)

def readVmc (uuid : Uuid) (rpdb : Leaf D) (s : State W D R) : (OpError × Leaf D) × State W D R :=
  accessVmc P .read owner uuid rpdb s

def incVmc (uuid : Uuid) (rpdb : Leaf D) (s : State W D R) : (OpError × Leaf D) × State W D R :=
  accessVmc P .increment owner uuid rpdb s

def deleteVmc (uuid : Uuid) (s : State W D R) : OpError × State W D R :=
  match ensureService P s with
  | (.success, s) =>
    if uuid.entryIndex.toNat > initLeafNodeIdBase - 1 then (.invalidCounter, s)
    else
      match operateVmc P owner uuid P.zeroLeaf .delete (some ⟨.clrLeafnodeFlag, 0⟩) s with
      | ((rc, _), s) => if isBroken rc then initializeSqliteDatabaseFile P true s else (rc, s)
  | (rc, s) => (rc, s)

inductive Call (D : Type) where
  | create (owner : IsvAttributes) (data : Leaf D)
  | read (owner : IsvAttributes) (uuid : Uuid) (rpdb : Leaf D)
  | inc (owner : IsvAttributes) (uuid : Uuid) (rpdb : Leaf D)
  | delete (owner : IsvAttributes) (uuid : Uuid)

structure Response (D : Type) where
  rc : OpError
  uuid : Option Uuid
  leaf : Option (Leaf D)

def step (call : Call D) (s : State W D R) : Response D × State W D R :=
  match call with
  | .create owner data =>
    let ((rc, uuid), s) := createVmc P owner data s
    (⟨rc, some uuid, none⟩, s)
  | .read owner uuid rpdb =>
    let ((rc, leaf), s) := readVmc P owner uuid rpdb s
    (⟨rc, none, some leaf⟩, s)
  | .inc owner uuid rpdb =>
    let ((rc, leaf), s) := incVmc P owner uuid rpdb s
    (⟨rc, none, some leaf⟩, s)
  | .delete owner uuid =>
    let (rc, s) := deleteVmc P owner uuid s
    (⟨rc, none, none⟩, s)

def State.loaded (world : W) (rpdata : Rpdata R) : State W D R :=
  { world := world, rpdata := rpdata, cachedRpdata := ⟨P.zeroRoot, 0⟩, rpdataCacheInitialized := false
    mcServiceStatus := .internal, tree := flushHashTreeCache }

def run (calls : List (Call D)) (s : State W D R) : State W D R :=
  calls.foldl (fun s call => (step P call s).2) s

end Vmc
