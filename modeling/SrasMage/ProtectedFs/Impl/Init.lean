import SrasMage.ProtectedFs.Impl.Operations

/-!
This module contains the constructor of the file object.
-/

namespace ProtectedFs

def fullnameMaxLen : Nat := 512 + filenameMaxLen
def maxModeStringLen : Nat := 5

def baseName (src : List Char) : List Char :=
  src.foldl (fun name c => if c = '\\' ∨ c = '/' then [] else name ++ [c]) []

def cleanupFilename (src : List Char) : Except Error (List Char) :=
  let name := baseName src
  if name.length ≥ filenameMaxLen - 1 then .error enametoolong
  else if name = [] then .error einval
  else .ok name

def OpenMode.raw0 : OpenMode := ⟨false, false, false, false, false⟩

def parseModeChar (m : OpenMode) (c : Char) : Option OpenMode :=
  if c = 'r' then
    if m.write ∨ m.read ∨ m.append then none else some { m with read := true }
  else if c = 'w' then
    if m.write ∨ m.read ∨ m.append then none else some { m with write := true }
  else if c = 'a' then
    if m.write ∨ m.read ∨ m.append then none else some { m with append := true }
  else if c = 'b' then
    if m.binary then none else some { m with binary := true }
  else if c = '+' then
    if m.update then none else some { m with update := true }
  else none

def parseMode (mode : List Char) : Option OpenMode :=
  if mode.length > maxModeStringLen then none
  else
    match mode.foldlM parseModeChar OpenMode.raw0 with
    | none => none
    | some m => if m.write = false ∧ m.read = false ∧ m.append = false then none else some m

def doFileRecovery {N : Type} (h : Host N) : Option (List (HostEvent N)) :=
  match h.main, h.recovery with
  | some _, some nodes =>
    some (nodes.map (fun n => .writeNode n.physicalNodeNumber n.nodeData) ++ [.removeRecovery])
  | _, _ => none

structure OpenArgs where
  filename : List Char
  mode : List Char
  importKey : Option Key
  kdkKey : Option Key
  report : Report

namespace File

variable {N : Type} (P : Platform N)

def initFields (h : Host N) (report : Report) (outside : Outside N) : File N where
  fileMetaData := ⟨⟨0, 0, 0, 0, 0, 0, false, 0, false⟩, P.zero⟩
  encryptedPartPlain := ⟨[], 0, 0, 0, fun _ => 0⟩
  rootMht :=
    { number := 0
      parent := .root
      needWriting := false
      newNode := true
      physicalNodeNumber := 1
      encrypted := P.zero
      plain := .mht MhtNode.zero }
  file := false
  openMode := OpenMode.raw0
  readOnly := false
  offset := 0
  endOfFile := false
  realFileSize := 0
  needWriting := false
  lastError := 0
  fileStatus := .notInitialized
  useUserKdkKey := false
  userKdkKey := 0
  curKey := 0
  sessionMasterKey := 0
  masterKeyCount := 0
  cache := Lru.Cache.empty
  report := report
  heap := fun _ => ⟨0, .root, false, false, 0, P.zero, .data DataNode.zero⟩
  nextAddr := 0
  host := h
  hostLog := []
  encryptLog := []
  outside := outside
  ocalls := 0
  calls := 0
  diverged := false

variable (s : File N) (cleanFilename : List Char)

def setOpenMode (mode : OpenMode) : File N := { s with openMode := mode }

def setReadOnly (b : Bool) : File N := { s with readOnly := b }

def setRealFileSize (size : Nat) : File N := { s with realFileSize := size }

def setUserKdkKey (key : Option Key) : File N :=
  { s with useUserKdkKey := key.isSome, userKdkKey := key.getD 0 }

def exclusiveFileOpen : Except Error Nat × File N :=
  if s.answer.status ≠ 0 then (.error s.answer.status, s.next)
  else if s.answer.result ≠ 0 then (.error (s.answer.result % 2 ^ 32).toNat, s.next)
  else
    match s.host.main with
    | some f => (.ok (f.count * nodeSize), (s.setFile true).next)
    | none => (.ok 0, ((s.setFile true).emit (.createFile P.zero)).next)

def readMetaDataNode : Bool × File N :=
  match s.freadNode 0 with
  | (.error e, s) => (false, s.fail e)
  | (.ok b, s) => (true, s.setFileMetaData (P.unpackMetaData b))

def emitAll (es : List (HostEvent N)) : File N := es.foldl emit s

def fileRecovery : Bool × File N :=
  match s.fclose einval with
  | (some e, s) => (false, s.fail e)
  | (none, s) =>
    let s := s.setFile false
    match s.answer.error32 einval with
    | some e => (false, s.next.fail e)
    | none =>
      match doFileRecovery s.host with
      | none => (false, s.next.fail einval)
      | some es =>
        match (s.emitAll es).next.exclusiveFileOpen P with
        | (.error e, s) => (false, s.fail e)
        | (.ok newFileSize, s) =>
          if newFileSize ≠ s.realFileSize then (false, s.fail sgxErrorUnexpected)
          else s.readMetaDataNode P

def recoverIfNeeded : Bool × File N :=
  if s.fileMetaData.plainPart.updateFlag = false then (true, s)
  else
    match s.fileRecovery P with
    | (false, s) => (false, s.fail sgxErrorFileRecoveryNeeded)
    | (true, s) =>
      if s.fileMetaData.plainPart.updateFlag then (false, s.fail sgxErrorFileRecoveryNeeded)
      else if s.fileMetaData.plainPart.majorVersion ≠ sgxFileMajorVersion then
        (false, s.fail enotsup)
      else (true, s)

def initRootMht : Bool × File N :=
  if s.encryptedPartPlain.size > mdUserDataSize then
    match s.freadNode 1 with
    | (.error e, s) => (false, s.fail e)
    | (.ok cipher, s) =>
      let s := s.setRootMht (s.rootMht.setEncrypted cipher)
      match s.gcmDecrypt P s.encryptedPartPlain.mhtKey cipher s.encryptedPartPlain.mhtGmac with
      | (.error e, s) => (false, s.fail e)
      | (.ok plain, s) =>
        (true, s.setRootMht (s.rootMht.setPlain (.mht (P.unpackMht plain))).setOld)
  else (true, s)

def setEncryptedPartPlain (m : MetaDataEncrypted) : File N :=
  { s with encryptedPartPlain := m }

def initMetaData (importKey : Option Key) : Bool × File N :=
  if s.fileMetaData.plainPart.useUserKdkKey ≠ s.useUserKdkKey then (false, s.fail einval)
  else
    match s.restoreCurrentMetaDataKey P importKey with
    | (false, s) => (false, s)
    | (true, s) =>
      match s.gcmDecrypt P s.curKey s.fileMetaData.encryptedPart s.fileMetaData.plainPart.metaDataGmac with
      | (.error e, s) => (false, s.fail e)
      | (.ok plain, s) =>
        let s := s.setEncryptedPartPlain (P.unpackMetaDataEncrypted plain)
        if s.encryptedPartPlain.cleanFilename ≠ cleanFilename then
          (false, s.fail sgxErrorFileNameMismatch)
        else s.initRootMht P

def initExistingFile (importKey : Option Key) : Bool × File N :=
  match s.readMetaDataNode P with
  | (false, s) => (false, s)
  | (true, s) =>
    if s.fileMetaData.plainPart.fileId ≠ sgxFileId then (false, s.fail sgxErrorFileNotSgxFile)
    else if s.fileMetaData.plainPart.majorVersion ≠ sgxFileMajorVersion then
      (false, s.fail enotsup)
    else
      match s.recoverIfNeeded P with
      | (false, s) => (false, s)
      | (true, s) => s.initMetaData P cleanFilename importKey

def initNewFile : File N :=
  { s with
    fileMetaData.plainPart.fileId := sgxFileId
    fileMetaData.plainPart.majorVersion := sgxFileMajorVersion
    fileMetaData.plainPart.minorVersion := sgxFileMinorVersion
    fileMetaData.plainPart.useUserKdkKey := s.useUserKdkKey
    encryptedPartPlain.cleanFilename := cleanFilename
    needWriting := true }

def checkIfFileExists : Except Error Bool × File N :=
  (if s.answer.status ≠ 0 then .error s.answer.status else .ok s.host.main.isSome, s.next)

def remove (s : File N) : Error × File N :=
  match s.answer.error32 eperm with
  | some e => (e, s.next)
  | none => (0, (s.emit .removeFile).next)

def prepareFile : Except Error Bool × File N :=
  match s.checkIfFileExists with
  | (.error e, s) => (.error e, s)
  | (.ok exists_, s) =>
    if s.openMode.write = true ∧ exists_ = true then
      let (savedErrno, s) := s.remove
      match s.checkIfFileExists with
      | (.error e, s) => (.error e, s)
      | (.ok true, s) => (.error (if savedErrno ≠ 0 then savedErrno else eacces), s)
      | (.ok false, s) => (.ok false, s)
    else (.ok exists_, s)

def openFile (importKey : Option Key) : File N :=
  match s.exclusiveFileOpen P with
  | (.error e, s) => s.fail (if e ≠ 0 then e else eacces)
  | (.ok realFileSize, s) =>
    let s := s.setRealFileSize realFileSize
    if realFileSize % nodeSize ≠ 0 then s.fail sgxErrorFileNotSgxFile
    else if realFileSize > 0 then
      if s.openMode.write then s.fail eacces
      else
        match s.initExistingFile P cleanFilename importKey with
        | (false, s) => s
        | (true, s) =>
          let offset :=
            if s.openMode.append = true ∧ s.openMode.update = false then s.encryptedPartPlain.size
            else s.offset
          (s.setOffset offset).setStatus .ok
    else (s.initNewFile cleanFilename).setStatus .ok

def closeUnusable : File N :=
  if s.fileStatus ≠ .ok ∧ s.file = true then s.next.setFile false else s

def checkArgs (args : OpenArgs) : Option Error :=
  if args.filename = [] ∨ args.mode = [] then some einval
  else if args.filename.length ≥ fullnameMaxLen - 1 then some enametoolong
  else if args.importKey.isSome ∧ args.kdkKey.isSome then some einval
  else none

def parseArgs (args : OpenArgs) : Except Error (List Char × OpenMode) :=
  match cleanupFilename args.filename with
  | .error e => .error e
  | .ok cleanFilename =>
    if args.importKey = some 0 then .error einval
    else
      match parseMode args.mode with
      | none => .error einval
      | some mode => .ok (cleanFilename, mode)

def createFile (importKey : Option Key) : File N :=
  match s.prepareFile with
  | (.error e, s) => s.fail e
  | (.ok exists_, s) =>
    if s.openMode.read = true ∧ exists_ = false then s.fail enoent
    else if importKey.isSome ∧ exists_ = false then s.fail enoent
    else
      let s := s.setReadOnly (s.openMode.read && !s.openMode.update)
      (s.openFile P cleanFilename importKey).closeUnusable

def create (args : OpenArgs) (h : Host N) (outside : Outside N) : File N :=
  let s := initFields P h args.report outside
  match checkArgs args with
  | some e => s.fail e
  | none =>
    -- sgx_create_report
    if s.outcome.status ≠ 0 then s.nextCall.fail s.outcome.status
    else
      match s.nextCall.initSessionMasterKey P with
      | (false, s) => s
      | (true, s) =>
        let s := s.setUserKdkKey args.kdkKey
        match parseArgs args with
        | .error e => s.fail e
        | .ok (cleanFilename, mode) =>
          (s.setOpenMode mode).createFile P cleanFilename args.importKey

end File
end ProtectedFs
