import SrasMage.ProtectedFs.Lemmas.Session

/-!
This module contains the specification of the constructor.
-/

namespace ProtectedFs

open File

variable {N : Type}

namespace File

def hull (s : File N) : File N :=
  { s.quiet with
    host := ⟨none, none⟩
    hostLog := []
    file := false
    realFileSize := 0
    readOnly := false }

section Host

variable {P : Platform N} {s : File N}

theorem checkIfFileExists_spec (s : File N) :
    (∃ e, s.checkIfFileExists = (.error e, s.next) ∧ ¬ s.outside.OcallsSucceed)
    ∨ s.checkIfFileExists = (.ok s.host.main.isSome, s.next) := by
  unfold checkIfFileExists
  by_cases h : s.answer.status ≠ 0
  . rw [if_pos h]
    exact .inl ⟨_, rfl, fun ho => h (ho s.ocalls).1⟩
  rw [if_neg h]
  exact .inr rfl

theorem remove_spec (s : File N) :
    (∃ e s', s.remove = (e, s') ∧ s'.hull = s.hull ∧ s'.outside = s.outside ∧ ¬ s.outside.OcallsSucceed)
    ∨ ∃ s', s.remove = (0, s') ∧ s'.hull = s.hull ∧ s'.outside = s.outside ∧ s'.host.main = none := by
  unfold remove
  split
  . next e he =>
    refine .inl ⟨_, _, rfl, rfl, rfl, ?_⟩
    intro ho
    rw [answer, ho.error32] at he
    cases he
  . exact .inr ⟨_, rfl, rfl, rfl, rfl⟩

theorem prepareFile_spec (s : File N) :
    (∃ e s', s.prepareFile = (.error e, s') ∧ s'.hull = s.hull ∧ ¬ s.outside.OcallsSucceed)
    ∨ (∃ s', s.prepareFile = (.ok true, s') ∧ s'.hull = s.hull ∧ s'.host = s.host
      ∧ s.host.main.isSome = true ∧ s.openMode.write = false)
    ∨ ∃ s', s.prepareFile = (.ok false, s') ∧ s'.hull = s.hull ∧ s'.host.main = none
      ∧ (s.host.main = none ∨ s.openMode.write = true) := by
  unfold prepareFile
  rcases checkIfFileExists_spec s with ⟨e, heq, hfails⟩ | heq
  . rw [heq]
    exact .inl ⟨e, _, rfl, rfl, hfails⟩
  rw [heq]
  dsimp only
  split
  . next hwrite =>
    rcases remove_spec s.next with ⟨e, s1, hremove, hhull, houtside, hfails⟩
      | ⟨s1, hremove, hhull, houtside, hmain⟩
    . rw [hremove]
      dsimp only
      rcases checkIfFileExists_spec s1 with ⟨e', heq', -⟩ | heq'
      . rw [heq']
        exact .inl ⟨_, _, rfl, hhull, hfails⟩
      rw [heq']
      cases h : s1.host.main.isSome with
      | true => exact .inl ⟨_, _, rfl, hhull, hfails⟩
      | false =>
        refine .inr (.inr ⟨_, rfl, hhull, ?_, .inr hwrite.1⟩)
        rw [Option.isSome_eq_false_iff, Option.isNone_iff_eq_none] at h
        exact h
    . rw [hremove]
      dsimp only
      rcases checkIfFileExists_spec s1 with ⟨e', heq', hfails⟩ | heq'
      . rw [heq']
        exact .inl ⟨_, _, rfl, hhull, houtside ▸ hfails⟩
      rw [heq', hmain]
      exact .inr (.inr ⟨_, rfl, hhull, hmain, .inr hwrite.1⟩)
  . next hwrite =>
    cases h : s.host.main with
    | none => exact .inr (.inr ⟨_, rfl, rfl, h, .inl rfl⟩)
    | some f =>
      refine .inr (.inl ⟨_, rfl, rfl, rfl, rfl, ?_⟩)
      have hmode : s.next.openMode.write = false := by simpa [h] using hwrite
      exact hmode

theorem exclusiveFileOpen_spec (s : File N) :
    (∃ e s', s.exclusiveFileOpen P = (.error e, s') ∧ s'.hull = s.hull ∧ ¬ s.outside.OcallsSucceed)
    ∨ (∃ f s', s.host.main = some f ∧ s.exclusiveFileOpen P = (.ok (f.count * nodeSize), s')
      ∧ s'.hull = s.hull ∧ s'.host = s.host)
    ∨ ∃ s', s.host.main = none ∧ s.exclusiveFileOpen P = (.ok 0, s') ∧ s'.hull = s.hull
      ∧ s'.host.main = some ⟨0, fun _ => P.zero⟩ := by
  have hfails : (s.answer.status ≠ 0 ∨ s.answer.result ≠ 0) → ¬ s.outside.OcallsSucceed := by
    rintro (h | h) ho
    . exact h (ho s.ocalls).1
    . exact h (ho s.ocalls).2
  unfold exclusiveFileOpen
  split
  . next h => exact .inl ⟨_, _, rfl, rfl, hfails (.inl h)⟩
  split
  . next h => exact .inl ⟨_, _, rfl, rfl, hfails (.inr h)⟩
  split
  . next f hf => exact .inr (.inl ⟨f, _, hf, rfl, rfl, rfl⟩)
  . next hf => exact .inr (.inr ⟨_, hf, rfl, rfl, rfl⟩)

end Host

section Existing

variable {P : Platform N} {E : Key × N → Prop} {s : File N} {f : HostFile N}
  {md : MetaDataEncrypted} {t : Tree}

theorem freadNode_honest (hhonest : s.outside.Honest) (hf : s.host.main = some f) {k : Nat} (hk : k < f.count) :
    (∃ e, s.freadNode k = (.error e, s.next) ∧ ¬ s.outside.OcallsSucceed)
    ∨ s.freadNode k = (.ok (f.nodes k), s.next) := by
  rcases freadNode_cases s k with ⟨e, hanswer, heq⟩ | ⟨hanswer, b, hb, -⟩ | ⟨-, -, heq⟩
  . refine .inl ⟨e, heq, ?_⟩
    intro ho
    rw [answer, ho.error32] at hanswer
    cases hanswer
  . have hnone : s.answer.bytes = none := hhonest s.ocalls hanswer
    rw [hnone] at hb
    cases hb
  . exact .inr (heq f hf hk)

theorem restoreCurrentMetaDataKey_spec (hcalls : s.outside.CallsSucceed)
    (hkey : s.fileMetaData.plainPart.metaDataKeyId ≠ 0) :
    ∃ s', s.restoreCurrentMetaDataKey P none = (true, s') ∧ s'.quiet = s.quiet
      ∧ s'.curKey = P.metaDataKey s.kdk s.fileMetaData.plainPart := by
  have hcall := (hcalls s.calls).1
  unfold restoreCurrentMetaDataKey
  dsimp only
  by_cases huser : s.useUserKdkKey = true
  . rw [if_pos huser]
    simp only [generateSecureBlobFromUserKdk, cmac, outcome, hcall, ↓reduceIte, ne_eq, not_true_eq_false]
    refine ⟨_, rfl, rfl, ?_⟩
    simp only [kdk, huser, Platform.metaDataKey, setCurKey, if_true]
  rw [if_neg huser, if_neg hkey]
  simp only [getKey, outcome, hcall, ne_eq, not_true_eq_false, if_false]
  refine ⟨_, rfl, rfl, ?_⟩
  simp [kdk, huser, Platform.metaDataKey, setCurKey]

theorem gcmDecrypt_spec (hcalls : s.outside.CallsSucceed) {key : Key} {cipher plain : N} {gmac : Mac}
    (h : P.rijndael128GcmDecrypt key cipher gmac = some plain) :
    s.gcmDecrypt P key cipher gmac = (.ok plain, s.nextCall) := by
  have hcall := (hcalls s.calls).1
  simp only [gcmDecrypt, outcome, hcall, ne_eq, not_true_eq_false, if_false, h]

def openedRoot (s : File N) (f : HostFile N) (size : Nat) (t : Tree) : FileNode N :=
  if mdUserDataSize < size then
    ((s.rootMht.setEncrypted (f.nodes 1)).setPlain (t.plain (.mht 0))).setOld
  else s.rootMht

structure Unusable (s s' : File N) : Prop where
  status : s'.fileStatus = s.fileStatus
  cache : s'.cache = s.cache
  diverged : s'.diverged = s.diverged

theorem initRootMht_spec [LawfulPlatform P] (hP : P.GcmCorrect) (hcalls : s.outside.CallsSucceed)
    (hhonest : s.outside.Honest) (hf : s.host.main = some f) (hmd : s.encryptedPartPlain = md)
    {kdk : Option Key} (himage : Image P E kdk f md t) :
    (∃ s', s.initRootMht P = (false, s') ∧ Unusable s s' ∧ ¬ s.outside.OcallsSucceed)
    ∨ ∃ s', s.initRootMht P = (true, s') ∧ s'.quiet = (s.setRootMht (s.openedRoot f md.size t)).quiet := by
  unfold initRootMht openedRoot
  rw [hmd]
  by_cases hsize : mdUserDataSize < md.size
  . rw [if_pos hsize, if_pos hsize]
    rcases himage.node (.mht 0) hsize with ⟨hcount, hseals⟩
    have hphysical : (NodeId.mht 0).physical = 1 := rfl
    rw [hphysical] at hcount hseals
    rcases freadNode_honest hhonest hf hcount with ⟨e, heq, hfails⟩ | heq
    . rw [heq]
      exact .inl ⟨_, rfl, ⟨rfl, rfl, rfl⟩, hfails⟩
    rw [heq]
    have hcrypto : t.crypto (.mht 0) = ⟨md.mhtKey, md.mhtGmac⟩ := himage.root
    have hdecrypt := hseals.decrypt hP
    rw [hcrypto] at hdecrypt
    have hmd' : (s.next.setRootMht (s.next.rootMht.setEncrypted (f.nodes 1))).encryptedPartPlain = md := hmd
    have hcalls' : (s.next.setRootMht (s.next.rootMht.setEncrypted (f.nodes 1))).outside.CallsSucceed := hcalls
    dsimp only
    rw [hmd', gcmDecrypt_spec hcalls' hdecrypt]
    have hunpack : P.unpackMht (P.pack (t.plain (.mht 0))) = t.mht 0 :=
      LawfulPlatform.unpackMht_packMht _
    refine .inr ⟨_, rfl, ?_⟩
    rw [hunpack]
    rfl
  . rw [if_neg hsize, if_neg hsize]
    exact .inr ⟨s, rfl, rfl⟩

def withImage (s : File N) (m : MetaDataNode N) (f : HostFile N) (md : MetaDataEncrypted) (t : Tree) : File N :=
  ((s.setFileMetaData m).setEncryptedPartPlain md).setRootMht (s.openedRoot f md.size t)

theorem initMetaData_spec [LawfulPlatform P] (hP : P.GcmCorrect) (hcalls : s.outside.CallsSucceed)
    (hhonest : s.outside.Honest) (hf : s.host.main = some f) (himage : Image P E s.kdk f md t)
    {m : MetaDataNode N} (hm : s.fileMetaData = m) (hheader : m.Header s.kdk)
    (hseals : P.SealsMetaData E s.kdk m md) (cleanFilename : List Char) :
    (∃ s', s.initMetaData P cleanFilename none = (false, s') ∧ Unusable s s'
      ∧ (¬ s.outside.OcallsSucceed ∨ md.cleanFilename ≠ cleanFilename))
    ∨ ∃ s', s.initMetaData P cleanFilename none = (true, s')
      ∧ s'.quiet = (s.withImage m f md t).quiet ∧ md.cleanFilename = cleanFilename := by
  have huse : s.fileMetaData.plainPart.useUserKdkKey = s.useUserKdkKey := by
    rw [hm, hheader.useUserKdkKey, kdk]
    split <;> simp_all
  have hkey : s.fileMetaData.plainPart.metaDataKeyId ≠ 0 := hm ▸ hseals.keyId
  rcases restoreCurrentMetaDataKey_spec (P := P) hcalls hkey with ⟨s1, heq, hquiet, hcur⟩
  have hm1 : s1.fileMetaData = m :=
    (congrArg fileMetaData hquiet :).trans hm
  have hcalls1 : s1.outside.CallsSucceed := outside_of_quiet hquiet ▸ hcalls
  have hdecrypt := hseals.seals.decrypt hP
  have hunpack : P.unpackMetaDataEncrypted (P.packMetaDataEncrypted md) = md :=
    LawfulPlatform.unpackMetaDataEncrypted_pack md
  rw [initMetaData, if_neg (not_not.2 huse), heq]
  dsimp only
  rw [hcur, hm1, hm, gcmDecrypt_spec hcalls1 hdecrypt]
  dsimp only
  rw [hunpack]
  split
  . next hname =>
    refine .inl ⟨_, rfl, ⟨?_, ?_, ?_⟩, .inr hname⟩
    . exact (congrArg fileStatus hquiet :)
    . exact (congrArg cache hquiet :)
    . exact (congrArg diverged hquiet :)
  next hname =>
  have hname' : md.cleanFilename = cleanFilename := not_not.1 hname
  have hmain : (s1.nextCall.setEncryptedPartPlain md).host.main = some f :=
    (congrArg (fun u => u.host.main) hquiet :).trans hf
  have hhonest1 : (s1.nextCall.setEncryptedPartPlain md).outside.Honest :=
    outside_of_quiet hquiet ▸ hhonest
  rcases initRootMht_spec hP (s := s1.nextCall.setEncryptedPartPlain md) hcalls1 hhonest1 hmain
    rfl himage with ⟨s', hroot, hunusable, hfails⟩ | ⟨s', hroot, hquiet'⟩
  . refine .inl ⟨s', hroot, ⟨?_, ?_, ?_⟩, .inl ?_⟩
    . exact hunusable.status.trans (congrArg fileStatus hquiet :)
    . exact hunusable.cache.trans (congrArg cache hquiet :)
    . exact hunusable.diverged.trans (congrArg diverged hquiet :)
    . intro ho
      exact hfails (outside_of_quiet hquiet ▸ ho)
  . refine .inr ⟨s', hroot, hquiet'.trans ?_, hname'⟩
    have hmeta : s.setFileMetaData m = s := by rw [← hm]; rfl
    rw [withImage, hmeta]
    exact congrArg (fun u => (u.setEncryptedPartPlain md).setRootMht (u.openedRoot f md.size t)) hquiet

theorem initExistingFile_spec [LawfulPlatform P] (hP : P.GcmCorrect)
    (hcalls : s.outside.CallsSucceed) (hhonest : s.outside.Honest) (hf : s.host.main = some f)
    (himage : Image P E s.kdk f md t) (cleanFilename : List Char) :
    (∃ s', s.initExistingFile P cleanFilename none = (false, s') ∧ Unusable s s'
      ∧ (¬ s.outside.OcallsSucceed ∨ md.cleanFilename ≠ cleanFilename))
    ∨ ∃ m s', s.initExistingFile P cleanFilename none = (true, s')
      ∧ s'.quiet = (s.withImage m f md t).quiet ∧ md.cleanFilename = cleanFilename
      ∧ f.nodes 0 = P.packMetaData m ∧ m.Header s.kdk ∧ P.SealsMetaData E s.kdk m md := by
  rcases himage.metaData with ⟨m, hcount, hzero, hheader, hseals⟩
  have hunpack : P.unpackMetaData (f.nodes 0) = m := by
    rw [hzero]
    exact LawfulPlatform.unpackMetaData_packMetaData m
  unfold initExistingFile readMetaDataNode
  rcases freadNode_honest hhonest hf hcount with ⟨e, heq, hfails⟩ | heq
  . rw [heq]
    exact .inl ⟨_, rfl, ⟨rfl, rfl, rfl⟩, .inl hfails⟩
  rw [heq]
  dsimp only
  rw [hunpack]
  have hmd : (s.next.setFileMetaData m).fileMetaData = m := rfl
  rw [hmd, if_neg (not_not.2 hheader.fileId), if_neg (not_not.2 hheader.majorVersion),
    recoverIfNeeded, hmd, if_pos hheader.updateFlag]
  dsimp only
  rcases initMetaData_spec hP (s := s.next.setFileMetaData m) hcalls hhonest hf himage rfl hheader
    hseals cleanFilename with ⟨s', hinit, hunusable, hwhy⟩ | ⟨s', hinit, hquiet, hname⟩
  . exact .inl ⟨s', hinit, ⟨hunusable.status, hunusable.cache, hunusable.diverged⟩, hwhy⟩
  . exact .inr ⟨m, s', hinit, hquiet, hname, hzero, hheader, hseals⟩

end Existing

section Create

variable {P : Platform N} {E : Key × N → Prop} {s : File N} {f : HostFile N}
  {md : MetaDataEncrypted} {t : Tree}

def blank (P : Platform N) (args : OpenArgs) (mode : OpenMode) (outside : Outside N) : File N :=
  ((initFields P ⟨none, none⟩ args.report outside).setUserKdkKey args.kdkKey).setOpenMode mode

variable {args : OpenArgs} {mode : OpenMode} {outside : Outside N}

theorem kdk_blank : (blank P args mode outside).kdk = args.kdkKey := by
  cases h : args.kdkKey <;> simp [blank, kdk, setUserKdkKey, setOpenMode, h]

section

variable (hcache : s.cache = Lru.Cache.empty)
include hcache

theorem loc_of_empty {i : NodeId} {p : MhtPtr} (hi : s.loc i = some p) : i = .mht 0 ∧ p = .root := by
  by_cases h : i = .mht 0
  . subst h
    rw [loc_root, Option.some.injEq] at hi
    exact ⟨rfl, hi.symm⟩
  . rw [loc_of_ne h, cached, hcache, Lru.Cache.data?_empty] at hi
    cases hi

theorem linked_of_empty (hshape : s.rootMht.shape = (0, .root, 1, false)) : Linked s where
  wf := hcache ▸ Lru.Cache.wf_empty
  keys key hkey := by simp [hcache] at hkey
  addr i a hi := by simp [cached, hcache] at hi
  shape i p hi := by
    rcases loc_of_empty hcache hi with ⟨rfl, rfl⟩
    exact ⟨.root, loc_root s, hshape⟩

theorem ordered_of_empty : Ordered s := by simp [Ordered, hcache]

theorem node?_of_empty {i : NodeId} {n : FileNode N} (hn : s.node? i = some n) : i = .mht 0 ∧ n = s.rootMht := by
  rcases node?_eq_some_iff.1 hn with ⟨p, hp, rfl⟩
  rcases loc_of_empty hcache hp with ⟨rfl, rfl⟩
  exact ⟨rfl, rfl⟩

theorem not_dirty_of_empty (hroot : s.rootMht.needWriting = false) (i : NodeId) : ¬ s.Dirty i := by
  rintro ⟨n, hn, hneed⟩
  rcases node?_of_empty hcache hn with ⟨-, rfl⟩
  rw [hroot] at hneed
  cases hneed

theorem closed_of_empty (hroot : s.rootMht.needWriting = false) : Closed s :=
  ⟨fun i hi => absurd hi (not_dirty_of_empty hcache hroot i), fun i hi => absurd hi (not_dirty_of_empty hcache hroot i),
    fun hi => absurd hi (not_dirty_of_empty hcache hroot _)⟩

end

def blankRoot (P : Platform N) : FileNode N where
  number := 0
  parent := .root
  needWriting := false
  newNode := true
  physicalNodeNumber := 1
  encrypted := P.zero
  plain := .mht MhtNode.zero

theorem Flushed.of_image {m : MetaDataNode N} (hcache : s.cache = Lru.Cache.empty)
    (hroot : s.rootMht = blankRoot P) (hneed : s.needWriting = false)
    (hf : s.host.main = some f) (himage : Image P E s.kdk f md t)
    (hzero : f.nodes 0 = P.packMetaData m) (hheader : m.Header s.kdk)
    (hseals : P.SealsMetaData E s.kdk m md) : Flushed P E (s.withImage m f md t) t := by
  have hcache' : (s.withImage m f md t).cache = Lru.Cache.empty := hcache
  have hroot' : (s.withImage m f md t).rootMht = s.openedRoot f md.size t := rfl
  have hsmall : ¬ mdUserDataSize < md.size → t.plain (.mht 0) = .mht MhtNode.zero := by
    intro hsize
    exact himage.tail (.mht 0) (Nat.not_lt.1 hsize)
  have hhas : (s.withImage m f md t).Has (.mht 0) ↔ mdUserDataSize < md.size := Iff.rfl
  have hneed' : (s.openedRoot f md.size t).needWriting = false := by
    rw [openedRoot, hroot]
    split <;> rfl
  have hcipher : ∀ i n, (s.withImage m f md t).node? i = some n → n.newNode = false →
      (s.withImage m f md t).SameCipher i n := by
    intro i n hn hold
    rcases node?_of_empty hcache' hn with ⟨rfl, rfl⟩
    rw [hroot', openedRoot] at hold ⊢
    split at hold
    . next hsize =>
      rw [if_pos hsize]
      exact ⟨f, hf, rfl⟩
    . rw [hroot] at hold
      cases hold
  refine ⟨⟨⟨?_, himage.root, ?_, ?_, ?_, ?_, ?_, ?_, ?_⟩, ?_, hheader, ?_, hcipher⟩, hneed⟩
  . apply linked_of_empty hcache'
    rw [hroot', openedRoot, hroot]
    split <;> rfl
  . intro i n hn
    rcases node?_of_empty hcache' hn with ⟨rfl, rfl⟩
    rw [hroot', openedRoot]
    split
    . rfl
    . next hsize => rw [hroot, hsmall hsize]; rfl
  . intro i hi
    exact himage.tail i (Nat.not_lt.1 hi)
  . have hmain : (s.withImage m f md t).host.main = some f := hf
    simp [hmain]
  . intro i hi _
    exact ⟨f, hf, himage.node i hi⟩
  . intro i n hn _ hold
    exact hcipher i n hn hold
  . intro i n hn hold
    rcases node?_of_empty hcache' hn with ⟨rfl, rfl⟩
    rw [hhas]
    rw [hroot', openedRoot] at hold
    split at hold
    . next hsize => exact hsize
    rw [hroot] at hold
    cases hold
  . intro i n hn hnew _
    rcases node?_of_empty hcache' hn with ⟨rfl, rfl⟩
    rw [hhas]
    rw [hroot', openedRoot] at hnew
    split at hnew
    . cases hnew
    . next hsize => exact hsize
  . exact closed_of_empty hcache' hneed'
  . intro _
    exact ⟨⟨f, hf, by rcases himage.metaData with ⟨_, hcount, _⟩; exact hcount, hzero⟩, hseals⟩

theorem Ready.of_new (hcache : s.cache = Lru.Cache.empty) (hroot : s.rootMht = blankRoot P)
    (hmd : s.encryptedPartPlain.size = 0 ∧ s.encryptedPartPlain.mhtKey = 0 ∧ s.encryptedPartPlain.mhtGmac = 0)
    (hmain : s.host.main.isSome = true) (hneed : s.needWriting = true)
    (hheader : s.fileMetaData.Header s.kdk) : Ready P E s Tree.zero := by
  have hhas : ∀ i, ¬ s.Has i := by
    intro i hi
    rw [Has, hmd.1] at hi
    exact Nat.not_lt_zero _ hi
  refine ⟨⟨?_, ?_, ?_, ?_, hmain, ?_, ?_, ?_, ?_⟩, ?_, hheader, ?_, ?_⟩
  . exact linked_of_empty hcache (by rw [hroot]; rfl)
  . rw [hmd.2.1, hmd.2.2]
    rfl
  . intro i n hn
    rcases node?_of_empty hcache hn with ⟨rfl, rfl⟩
    rw [hroot]
    rfl
  . intro i _
    exact Tree.plain_zero i
  . intro i hi
    exact absurd hi (hhas i)
  . intro i n hn _ hold
    rcases node?_of_empty hcache hn with ⟨rfl, rfl⟩
    rw [hroot] at hold
    cases hold
  . intro i n hn hold
    rcases node?_of_empty hcache hn with ⟨rfl, rfl⟩
    rw [hroot] at hold
    cases hold
  . intro i n _ _ _
    exact hhas i
  . exact closed_of_empty hcache (by rw [hroot]; rfl)
  . intro h
    rw [hneed] at h
    cases h
  . intro i n hn hold
    rcases node?_of_empty hcache hn with ⟨rfl, rfl⟩
    rw [hroot] at hold
    cases hold

structure Opened (P : Platform N) (E : Key × N → Prop) (args : OpenArgs) (cleanFilename : List Char)
    (mode : OpenMode) (s : File N) (t : Tree) : Prop where
  status : s.fileStatus = .ok
  live : Live P E (fun _ => True) s t
  openMode : s.openMode = mode
  kdk : s.kdk = args.kdkKey
  cleanFilename : s.encryptedPartPlain.cleanFilename = cleanFilename
  endOfFile : s.endOfFile = false
  diverged : s.diverged = false

structure Refused (s : File N) : Prop where
  status : s.fileStatus = .notInitialized
  cache : s.cache = Lru.Cache.empty
  diverged : s.diverged = false

theorem Refused.closeUnusable (hs : Refused s) : Refused s.closeUnusable := by
  unfold File.closeUnusable
  split <;> exact ⟨hs.status, hs.cache, hs.diverged⟩

theorem closeUnusable_of_ok (hok : s.fileStatus = .ok) : s.closeUnusable = s := by
  rw [closeUnusable, if_neg (by simp [hok])]

theorem Refused.of_hull (h : s.hull = (blank P args mode outside).hull) : Refused s :=
  ⟨(congrArg File.fileStatus h :), (congrArg File.cache h :), (congrArg File.diverged h :)⟩

theorem kdk_of_hull (h : s.hull = (blank P args mode outside).hull) : s.kdk = args.kdkKey :=
  (congrArg kdk h :).trans kdk_blank

theorem Flushed.opened (hs : Flushed P E s t) {s' : File N} (hquiet : s'.quiet = s.quiet)
    (hcache : s.cache = Lru.Cache.empty) {offset : Nat}
    (hin : offset ≤ s.encryptedPartPlain.size) :
    Live P E (fun _ => True) ((s'.setOffset offset).setStatus .ok) t := by
  have hsame : SameFile s ((s'.setOffset offset).setStatus .ok) :=
    ⟨(congrArg memory hquiet :), (congrArg fileMetaData hquiet :), (congrArg File.kdk hquiet :),
      (congrArg File.needWriting hquiet :)⟩
  refine ⟨hsame.ready hs.ready, ?_, ?_, trivial⟩
  . exact ordered_of_empty ((congrArg cache hquiet :).trans hcache)
  rw [← congr_quiet hquiet (f := fun u => u.encryptedPartPlain.size) (fun _ => rfl)] at hin
  exact hin

def openOffset (mode : OpenMode) (size : Nat) : Nat :=
  if mode.append = true ∧ mode.update = false then size else 0

theorem openOffset_le (mode : OpenMode) (size : Nat) : openOffset mode size ≤ size := by
  rw [openOffset]
  split
  . exact le_rfl
  . exact Nat.zero_le _

theorem openFile_existing [LawfulPlatform P] (hP : P.GcmCorrect)
    (hhull : s.hull = (blank P args mode outside).hull) (hcalls : outside.CallsSucceed)
    (hhonest : outside.Honest) (hwrite : mode.write = false) (hf : s.host.main = some f)
    (himage : Image P E args.kdkKey f md t) (cleanFilename : List Char) :
    (Refused (s.openFile P cleanFilename none).closeUnusable
      ∧ (¬ outside.OcallsSucceed ∨ md.cleanFilename ≠ cleanFilename))
    ∨ ∃ s', (s.openFile P cleanFilename none).closeUnusable = s'
      ∧ Opened P E args cleanFilename mode s' t ∧ s'.encryptedPartPlain = md
      ∧ s'.offset = openOffset mode md.size ∧ s'.needWriting = false := by
  have hcount : 0 < f.count := by
    rcases himage.metaData with ⟨_, hcount, _⟩
    exact hcount
  have houtside : s.outside = outside := (congrArg File.outside hhull :)
  unfold openFile
  rcases exclusiveFileOpen_spec (P := P) s with ⟨e, s1, heq, hhull1, hfails⟩
    | ⟨f', s1, hf', heq, hhull1, hhost⟩ | ⟨s1, hnone, -⟩
  . rw [heq]
    refine .inl ⟨Refused.closeUnusable ?_, .inl (houtside ▸ hfails)⟩
    exact Refused.of_hull (s := s1.fail _) (hhull1.trans hhull)
  . rw [hf, Option.some.injEq] at hf'
    subst hf'
    rw [heq]
    dsimp only
    have hsize : ¬ f.count * nodeSize % nodeSize ≠ 0 := by simp
    have hpos : f.count * nodeSize > 0 := Nat.mul_pos hcount (by decide)
    rw [if_neg hsize, if_pos hpos]
    have hu : (s1.setRealFileSize (f.count * nodeSize)).hull = (blank P args mode outside).hull :=
      Eq.trans (b := s1.hull) rfl (hhull1.trans hhull)
    have hmode : (s1.setRealFileSize (f.count * nodeSize)).openMode = mode :=
      (congrArg openMode hu :)
    have hmain : (s1.setRealFileSize (f.count * nodeSize)).host.main = some f := by
      rw [← hf, ← hhost]
      rfl
    generalize s1.setRealFileSize (f.count * nodeSize) = u at hu hmode hmain ⊢
    have hout : u.outside = outside := (congrArg File.outside hu :)
    have hkdk := kdk_of_hull hu
    have hcache : u.cache = Lru.Cache.empty := (congrArg File.cache hu :)
    rw [hmode, if_neg (by simp [hwrite])]
    rcases initExistingFile_spec hP (s := u) (hout ▸ hcalls) (hout ▸ hhonest) hmain
      (hkdk ▸ himage) cleanFilename with ⟨s', hinit, hunusable, hwhy⟩
      | ⟨m, s', hinit, hquiet, hname, hzero, hheader, hseals⟩
    . rw [hinit]
      refine .inl ⟨Refused.closeUnusable ⟨?_, ?_, ?_⟩, hout ▸ hwhy⟩
      . exact hunusable.status.trans (congrArg fileStatus hu :)
      . exact hunusable.cache.trans hcache
      . exact hunusable.diverged.trans (congrArg diverged hu :)
    rw [hinit]
    dsimp only
    rw [closeUnusable_of_ok rfl]
    have hmd' : s'.encryptedPartPlain = md :=
      (congrArg encryptedPartPlain hquiet :)
    have hmode' : s'.openMode = mode :=
      (congrArg openMode hquiet :).trans hmode
    have hoffset' : s'.offset = 0 :=
      (congrArg offset hquiet :).trans (congrArg offset hu :)
    have hflushed : Flushed P E (u.withImage m f md t) t :=
      Flushed.of_image hcache (congrArg rootMht hu :) (congrArg needWriting hu :) hmain (hkdk ▸ himage) hzero hheader
        hseals
    rw [hmode', hmd', hoffset', ← openOffset]
    refine .inr ⟨_, rfl, ⟨rfl, ?_, hmode', ?_, ?_, ?_, ?_⟩, hmd', rfl, ?_⟩
    . exact hflushed.opened hquiet hcache (openOffset_le mode md.size)
    . exact (congrArg kdk hquiet :).trans hkdk
    . exact (congrArg MetaDataEncrypted.cleanFilename hmd').trans hname
    . exact (congrArg endOfFile hquiet :).trans (congrArg endOfFile hu :)
    . exact (congrArg diverged hquiet :).trans (congrArg diverged hu :)
    . exact (congrArg needWriting hquiet :).trans (congrArg needWriting hu :)
  . rw [hf] at hnone
    cases hnone

theorem openFile_new (hhull : s.hull = (blank P args mode outside).hull)
    (hf : s.host.main = none) (cleanFilename : List Char) :
    (Refused (s.openFile P cleanFilename none).closeUnusable ∧ ¬ outside.OcallsSucceed)
    ∨ ∃ s', (s.openFile P cleanFilename none).closeUnusable = s'
      ∧ Opened P E args cleanFilename mode s' Tree.zero ∧ s'.encryptedPartPlain.size = 0
      ∧ s'.offset = 0 := by
  have houtside : s.outside = outside := (congrArg File.outside hhull :)
  unfold openFile
  rcases exclusiveFileOpen_spec (P := P) s with ⟨e, s1, heq, hhull1, hfails⟩
    | ⟨f', s1, hf', -⟩ | ⟨s1, -, heq, hhull1, hmain⟩
  . rw [heq]
    refine .inl ⟨Refused.closeUnusable ?_, houtside ▸ hfails⟩
    exact Refused.of_hull (s := s1.fail _) (hhull1.trans hhull)
  . rw [hf] at hf'
    cases hf'
  rw [heq]
  dsimp only
  rw [if_neg (by simp), if_neg (Nat.lt_irrefl 0), closeUnusable_of_ok rfl]
  have hu : (s1.setRealFileSize 0).hull = (blank P args mode outside).hull :=
    Eq.trans (b := s1.hull) rfl (hhull1.trans hhull)
  have hmain' : (s1.setRealFileSize 0).host.main.isSome = true := by
    have h : (s1.setRealFileSize 0).host.main = some ⟨0, fun _ => P.zero⟩ := hmain
    rw [h]
    rfl
  generalize s1.setRealFileSize 0 = u at hu hmain' ⊢
  have hmd : u.encryptedPartPlain = ⟨[], 0, 0, 0, fun _ => 0⟩ :=
    (congrArg encryptedPartPlain hu :)
  have hflag : u.fileMetaData.plainPart.updateFlag = false :=
    (congrArg (fun v => v.fileMetaData.plainPart.updateFlag) hu :)
  have hcache : u.cache = Lru.Cache.empty := (congrArg cache hu :)
  have hoffset : u.offset = 0 := (congrArg offset hu :)
  have hready : Ready P E ((u.initNewFile cleanFilename).setStatus .ok) Tree.zero := by
    refine Ready.of_new (s := (u.initNewFile cleanFilename).setStatus .ok) hcache
      (congrArg rootMht hu :) ?_ hmain' rfl ⟨rfl, rfl, ?_, hflag⟩
    . change u.encryptedPartPlain.size = 0 ∧ u.encryptedPartPlain.mhtKey = 0 ∧ u.encryptedPartPlain.mhtGmac = 0
      rw [hmd]
      exact ⟨rfl, rfl, rfl⟩
    . change u.useUserKdkKey = u.kdk.isSome
      rw [kdk]
      cases u.useUserKdkKey <;> rfl
  refine .inr ⟨_, rfl, ⟨rfl, ⟨hready, ordered_of_empty hcache, ?_, trivial⟩, ?_, ?_, rfl, ?_, ?_⟩, ?_, hoffset⟩
  . exact (le_of_eq hoffset).trans (Nat.zero_le _)
  . exact (congrArg openMode hu :)
  . exact (kdk_of_hull hu : u.kdk = args.kdkKey)
  . exact (congrArg endOfFile hu :)
  . exact (congrArg diverged hu :)
  . exact congrArg MetaDataEncrypted.size hmd

theorem createFile_existing [LawfulPlatform P] (hP : P.GcmCorrect)
    (hhull : s.hull = (blank P args mode outside).hull) (hcalls : outside.CallsSucceed)
    (hhonest : outside.Honest) (hwrite : mode.write = false) (hf : s.host.main = some f)
    (himage : Image P E args.kdkKey f md t) (cleanFilename : List Char) :
    (Refused (s.createFile P cleanFilename none) ∧ (¬ outside.OcallsSucceed ∨ md.cleanFilename ≠ cleanFilename))
    ∨ ∃ s', s.createFile P cleanFilename none = s'
      ∧ Opened P E args cleanFilename mode s' t ∧ s'.encryptedPartPlain = md
      ∧ s'.offset = openOffset mode md.size ∧ s'.needWriting = false := by
  have houtside : s.outside = outside := (congrArg File.outside hhull :)
  have hmode : s.openMode = mode := (congrArg File.openMode hhull :)
  unfold createFile
  rcases prepareFile_spec s with ⟨e, s1, heq, hhull1, hfails⟩ | ⟨s1, heq, hhull1, hhost, -⟩
    | ⟨s1, -, -, -, hnone⟩
  . rw [heq]
    refine .inl ⟨?_, .inl (houtside ▸ hfails)⟩
    exact Refused.of_hull (s := s1.fail _) (hhull1.trans hhull)
  . rw [heq]
    dsimp only
    rw [if_neg (by simp), if_neg (by simp)]
    apply openFile_existing hP _ hcalls hhonest hwrite _ himage
    . exact Eq.trans (b := s1.hull) rfl (hhull1.trans hhull)
    rw [← hf, ← hhost]
    rfl
  . rcases hnone with hnone | hnone
    . rw [hf] at hnone
      cases hnone
    rw [hmode, hwrite] at hnone
    cases hnone

theorem createFile_new (hhull : s.hull = (blank P args mode outside).hull)
    (hnew : s.host.main = none ∨ mode.write = true) (cleanFilename : List Char) :
    (Refused (s.createFile P cleanFilename none) ∧ (¬ outside.OcallsSucceed ∨ mode.read = true))
    ∨ ∃ s', s.createFile P cleanFilename none = s'
      ∧ Opened P E args cleanFilename mode s' Tree.zero ∧ s'.encryptedPartPlain.size = 0
      ∧ s'.offset = 0 := by
  have houtside : s.outside = outside := (congrArg File.outside hhull :)
  have hmode : s.openMode = mode := (congrArg File.openMode hhull :)
  unfold createFile
  rcases prepareFile_spec s with ⟨e, s1, heq, hhull1, hfails⟩ | ⟨s1, -, -, -, hsome, hwrite⟩
    | ⟨s1, heq, hhull1, hmain, -⟩
  . rw [heq]
    refine .inl ⟨?_, .inl (houtside ▸ hfails)⟩
    exact Refused.of_hull (s := s1.fail _) (hhull1.trans hhull)
  . rcases hnew with hnew | hnew
    . rw [hnew] at hsome
      cases hsome
    rw [hmode, hnew] at hwrite
    cases hwrite
  rw [heq]
  dsimp only
  have hmode1 : s1.openMode = mode :=
    (congrArg openMode hhull1 :).trans hmode
  by_cases hread : mode.read = true
  . rw [if_pos ⟨hmode1 ▸ hread, rfl⟩]
    exact .inl ⟨Refused.of_hull (s := s1.fail _) (hhull1.trans hhull), .inr hread⟩
  rw [if_neg (by simp [hmode1, hread]), if_neg (by simp)]
  have hu : (s1.setReadOnly (s1.openMode.read && !s1.openMode.update)).hull = (blank P args mode outside).hull :=
    Eq.trans (b := s1.hull) rfl (hhull1.trans hhull)
  rcases openFile_new (E := E) hu hmain cleanFilename with ⟨hrefused, hfails⟩ | hopened
  . exact .inl ⟨hrefused, .inl hfails⟩
  . exact .inr hopened

theorem createFile_missing (hhull : s.hull = (blank P args mode outside).hull)
    (hread : mode.read = true) (hmain : s.host.main = none) (cleanFilename : List Char) :
    (Refused (s.createFile P cleanFilename none) ∧ (s.createFile P cleanFilename none).host.main = none)
    ∨ ¬ outside.OcallsSucceed := by
  have houtside : s.outside = outside := (congrArg File.outside hhull :)
  have hmode : s.openMode = mode := (congrArg File.openMode hhull :)
  unfold createFile
  rcases prepareFile_spec s with ⟨e, s1, heq, hhull1, hfails⟩ | ⟨s1, -, -, -, hsome, -⟩
    | ⟨s1, heq, hhull1, hmain1, -⟩
  . exact .inr (houtside ▸ hfails)
  . rw [hmain] at hsome
    cases hsome
  have hmode1 : s1.openMode = mode :=
    (congrArg openMode hhull1 :).trans hmode
  rw [heq]
  dsimp only
  rw [if_pos ⟨hmode1 ▸ hread, rfl⟩]
  exact .inl ⟨Refused.of_hull (s := s1.fail _) (hhull1.trans hhull), hmain1⟩

theorem create_cases (hcalls : outside.CallsSucceed) (args : OpenArgs) (h : Host N) :
    (Refused (create P args h outside) ∧ (create P args h outside).host = h
      ∧ (checkArgs args ≠ none ∨ ∃ e, parseArgs args = .error e))
    ∨ ∃ (cleanFilename : List Char) (mode : OpenMode) (s : File N), checkArgs args = none
      ∧ parseArgs args = .ok (cleanFilename, mode) ∧ s.hull = (blank P args mode outside).hull
      ∧ s.host = h ∧ create P args h outside = s.createFile P cleanFilename args.importKey := by
  unfold create
  dsimp only
  split
  . next e he =>
    refine .inl ⟨⟨rfl, rfl, rfl⟩, rfl, .inl ?_⟩
    simp [he]
  next hnone =>
  have h0 : (initFields P h args.report outside).outcome.status = 0 := (hcalls 0).1
  rcases initSessionMasterKey_spec P (s := (initFields P h args.report outside).nextCall) hcalls with ⟨s1, hkey, hquiet⟩
  rw [if_neg (not_not.2 h0), hkey]
  dsimp only
  split
  . next e he =>
    refine .inl ⟨⟨?_, ?_, ?_⟩, ?_, .inr ⟨e, he⟩⟩
    . exact (congrArg fileStatus hquiet :)
    . exact (congrArg cache hquiet :)
    . exact (congrArg diverged hquiet :)
    . exact (congrArg host hquiet :)
  . next cleanFilename mode hparse =>
    refine .inr ⟨cleanFilename, mode, _, hnone, hparse, ?_, ?_, rfl⟩
    . exact congrArg (fun u => ((u.setUserKdkKey args.kdkKey).setOpenMode mode).hull) hquiet
    . exact (congrArg host hquiet :)

end Create

end File
end ProtectedFs
