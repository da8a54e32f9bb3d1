import SrasMage.ProtectedFs.Impl.State

/-!
This module contains the derivation of node and metadata keys.
-/

namespace ProtectedFs

def masterKeyName : List Char := "SGX-PROTECTED-FS-MASTER-KEY".toList
def randomKeyName : List Char := "SGX-PROTECTED-FS-RANDOM-KEY".toList
def metadataKeyName : List Char := "SGX-PROTECTED-FS-METADATA-KEY".toList

def maxLabelLen : Nat := 64
def maxMasterKeyUsages : Nat := 65536

namespace File

variable {N : Type} (P : Platform N)

def generateSecureBlob (s : File N) (key : Key) (label : List Char) (physicalNodeNumber : Nat) : Option Key × File N :=
  if label.length > maxLabelLen then (none, s.fail einval)
  else
    match s.readRand with
    | (.error e, s) => (none, s.fail e)
    | (.ok rand, s) =>
      -- the nonce of this derivation is 16 bytes long
      match s.cmac P key ⟨1, label, physicalNodeNumber, (rand.setWidth 128).setWidth 256, 0x80⟩ with
      | (.error e, s) => (none, s.fail e)
      | (.ok output, s) => (some output, s)

def generateSecureBlobFromUserKdk (s : File N) (restore : Bool) : Bool × File N :=
  match (if restore then (.ok s.fileMetaData.plainPart.metaDataKeyId, s) else s.readRand) with
  | (.error e, s) => (false, s.fail e)
  | (.ok nonce, s) =>
    match s.cmac P s.userKdkKey ⟨1, metadataKeyName, 0, nonce, 0x80⟩ with
    | (.error e, s) => (false, s.fail e)
    | (.ok output, s) =>
      let s := s.setCurKey output
      if restore then (true, s)
      else (true, s.setFileMetaData { s.fileMetaData with plainPart.metaDataKeyId := nonce })

def initSessionMasterKey (s : File N) : Bool × File N :=
  match s.generateSecureBlob P 0 masterKeyName 0 with
  | (none, s) => (false, s)
  | (some output, s) => (true, { s with sessionMasterKey := output, masterKeyCount := 0 })

def countMasterKey (s : File N) : File N :=
  { s with masterKeyCount := (s.masterKeyCount + 1) % 2 ^ 32 }

def useSessionMasterKey (s : File N) : Bool × File N :=
  if s.masterKeyCount > maxMasterKeyUsages then s.countMasterKey.initSessionMasterKey P
  else (true, s.countMasterKey)

def deriveRandomNodeKey (s : File N) (physicalNodeNumber : Nat) : Bool × File N :=
  match s.useSessionMasterKey P with
  | (false, s) => (false, s)
  | (true, s) =>
    match s.generateSecureBlob P s.sessionMasterKey randomKeyName physicalNodeNumber with
    | (none, s) => (false, s)
    | (some output, s) => (true, s.setCurKey output)

def generateRandomMetaDataKey (s : File N) : Bool × File N :=
  if s.useUserKdkKey then s.generateSecureBlobFromUserKdk P false
  else
    match s.readRand with
    | (.error e, s) => (false, s.fail e)
    | (.ok keyId, s) =>
      match s.getKey P ⟨keyId, s.report.cpuSvn, s.report.isvSvn⟩ with
      | (.error e, s) => (false, s.fail e)
      | (.ok key, s) =>
        let plainPart :=
          { s.fileMetaData.plainPart with
            metaDataKeyId := keyId, cpuSvn := s.report.cpuSvn, isvSvn := s.report.isvSvn }
        (true, (s.setCurKey key).setFileMetaData { s.fileMetaData with plainPart := plainPart })

def restoreCurrentMetaDataKey (s : File N) (importKey : Option Key) : Bool × File N :=
  match importKey with
  | some key => (true, s.setCurKey key)
  | none =>
    if s.useUserKdkKey then s.generateSecureBlobFromUserKdk P true
    else
      let plainPart := s.fileMetaData.plainPart
      if plainPart.metaDataKeyId = 0 then (false, s.fail sgxErrorFileNoKeyId)
      else
        match s.getKey P ⟨plainPart.metaDataKeyId, plainPart.cpuSvn, plainPart.isvSvn⟩ with
        | (.error e, s) => (false, s.fail e)
        | (.ok key, s) => (true, s.setCurKey key)

end File
end ProtectedFs
