import Mathlib.Algebra.Field.Rat
import Mathlib.Data.List.Forall2
import SrasMage.Qe.Signing

/-!
This module contains that a quote commits to one revocation list with a valid signature, and the report of
the quoting enclave to one quote, whatever the host does to its memory.
-/

namespace Qe

open Bytes Memory StreamCipher Hoare

structure Quote where
  body : List UInt8
  w : WrapKey
  basicSig : List UInt8
  rlVer : List UInt8
  rlNum : List UInt8
  nrs : List (List UInt8)
  tag : List UInt8

variable {F G : Type} [Field F] [AddCommGroup G] [Module F G]

namespace Quote

def payload (q : Quote) : List UInt8 := q.basicSig ++ q.rlVer ++ q.rlNum ++ q.nrs.flatten

def signature (q : Quote) (env : Env F G) : List UInt8 :=
  (q.w.wrapped ++ q.w.iv ++ toBytes 4 q.payload.length) ++ encryptAt (env.keystream q.w.key q.w.iv) 0 q.payload ++ q.tag

def bytes (q : Quote) (env : Env F G) : List UInt8 := q.body ++ q.signature env

end Quote

variable {env : Env F G} {args : Args} {member : Member F} {info : SigRlInfo} {basename body : List UInt8} {s : State}

def Quote.Answers (q : Quote) (env : Env F G) (args : Args) (member : Member F) (info : SigRlInfo)
    (basename : List UInt8) : Prop :=
  if args.sigRl = 0 then q.rlNum = List.replicate 4 0 ∧ q.nrs = []
  else q.rlVer = (info.header.drop 8).take 4 ∧ q.rlNum = (info.header.drop 12).take 4 ∧
    ∃ entries, Accepted env member info (q.body.take qeQuoteBodySize) basename q.basicSig entries q.nrs

structure Quote.Signed (q : Quote) (env : Env F G) (args : Args) (member : Member F) (info : SigRlInfo)
    (basename : List UInt8) (d : Streams) : Prop where
  out : load d.out args.sign (q.signature env).length = q.signature env
  qeReport : d.qeReport =
    some ((env.sha256 (args.nonceRand.toList ++ q.bytes env)).toList ++ List.replicate 32 0)
  answers : q.Answers env args member info basename

theorem runs_finishQuote_signed {q : Quote} {Q : Unit → State → Prop} (hreport : args.qeReport ≠ 0)
    (hiv : q.w.iv.length = 12) (hwrapped : q.w.wrapped.length = 288) (hgcm : s.streams.gcm = q.payload)
    (hsize : q.payload.length = info.signSize)
    (hsealed : Sealed env args q.w (args.nonceRand.toList ++ q.body)
      (q.w.wrapped ++ q.w.iv ++ toBytes 4 info.signSize) s.streams)
    (hanswers : q.Answers env args member info basename)
    (h : ∀ s' tag, Quote.Signed { q with tag } env args member info basename s'.streams → Q () s') :
    Runs (finishQuote env args q.w info.signSize) s Q fun _ _ => True := by
  rw [← hgcm] at hsize
  apply runs_finishQuote hreport hsize hsealed
  intro s' tag htag hout hqeReport
  rw [hgcm] at hsize hout hqeReport
  apply h s' tag
  have hlength : (Quote.signature { q with tag } env).length = 304 + info.signSize + sizeofMac := by
    unfold Quote.signature
    rw [List.length_append, List.length_append, List.length_append, List.length_append, hwrapped, hiv, length_toBytes,
      length_encryptAt, htag]
    show 288 + 12 + 4 + q.payload.length + sizeofMac = _
    rw [hsize]
  constructor
  . rw [hlength, hout, ← hsize]
    rfl
  . rw [hqeReport, ← hsize]
    unfold Quote.bytes Quote.signature
    simp only [List.append_assoc]
    rfl
  . exact hanswers

theorem runs_qeEpidSign {Q : Unit → State → Prop} (hreport : args.qeReport ≠ 0)
    (hinfo : args.sigRl ≠ 0 → info.header.length = sizeofSigRl ∧
      info.signSize = 360 + sizeofNrProof * entryCount info.header)
    (hnone : args.sigRl = 0 → info.signSize = 360)
    (h : ∀ s' (q : Quote), q.body = body → q.Signed env args member info basename s'.streams → Q () s') :
    Runs (qeEpidSign env args member info body basename) s Q fun _ _ => True := by
  unfold qeEpidSign
  apply Runs.bind
  apply runs_call
  intro n s1 h1
  have hsig : (env.epid.signBasic n member.f (body.take qeQuoteBodySize) basename).toList.length = 352 :=
    Vector.length_toList
  generalize (env.epid.signBasic n member.f (body.take qeQuoteBodySize) basename).toList = basicSig at hsig ⊢
  apply Runs.bind
  apply runs_startQuoteHash hreport
  intro s2 h2
  apply Runs.bind
  apply runs_startSigRlHash
  intro s3 h3 hheader
  apply Runs.bind
  apply runs_makeWrapKey
  intro w s4 hiv hwrapped h4
  apply Runs.bind
  apply runs_encryptBasicSign hreport hiv hwrapped
  intro s5 hsealed hgcm hsigRl
  have hquote : s4.streams.quote = args.nonceRand.toList ++ body := by rw [h4, h3, h2]
  rw [hquote] at hsealed
  rw [h4] at hsigRl
  apply Runs.bind
  unfold encryptRevocation
  apply Runs.ite
  . intro hlist
    obtain ⟨hlength, hsize⟩ := hinfo hlist
    rw [hheader hlist] at hsigRl
    apply runs_processSigRl hreport hsig hlength hgcm hsigRl hsealed
    intro s6 entries nrs hsealed6 hgcm6 hlength6 haccepted
    rw [← hsize, hgcm6] at hlength6
    apply runs_finishQuote_signed (q := ⟨body, w, basicSig, _, _, nrs, []⟩) hreport hiv hwrapped hgcm6 hlength6 hsealed6
    . unfold Quote.Answers
      rw [if_neg hlist]
      exact ⟨rfl, rfl, entries, haccepted⟩
    . intro s' tag hsigned
      exact h s' _ rfl hsigned
  intro hlist
  rw [ne_eq, not_not] at hlist
  apply runs_withoutSigRl hreport hsig hgcm hsealed
  intro s6 hsealed6 hgcm6
  have hpayload : Quote.payload ⟨body, w, basicSig, List.replicate 4 0, List.replicate 4 0, [], []⟩ =
      basicSig ++ List.replicate 8 0 := by
    unfold Quote.payload
    rw [List.flatten_nil, List.append_nil, List.append_assoc]
    rfl
  apply runs_finishQuote_signed (q := ⟨body, w, basicSig, List.replicate 4 0, List.replicate 4 0, [], []⟩) hreport hiv
    hwrapped (hgcm6.trans hpayload.symm) _ hsealed6
  . unfold Quote.Answers
    rw [if_pos hlist]
    exact ⟨rfl, rfl⟩
  . intro s' tag hsigned
    exact h s' _ rfl hsigned
  . rw [hpayload, List.length_append, hsig, hnone hlist]
    rfl

theorem runs_readSigRl {gid : Vector UInt8 4} {Q : SigRlInfo → State → Prop}
    (h : ∀ (info : SigRlInfo) s', (args.sigRl ≠ 0 → info.header.length = sizeofSigRl ∧
        info.signSize = 360 + sizeofNrProof * entryCount info.header) →
      (args.sigRl = 0 → info.signSize = 360) → Q info s') :
    Runs (readSigRl env args gid) s Q fun _ _ => True := by
  unfold readSigRl
  apply Runs.ite
  . intro hlist
    apply Runs.bind
    apply runs_memcpyIn
    intro header s1 hheader _
    apply Runs.ite
    . intro _
      exact .throw trivial
    intro _
    apply Runs.bind
    apply runs_memcpyIn
    intro x s2 _ _
    apply Runs.bind
    apply runs_memcpyIn
    intro y s3 _ _
    apply Runs.ite
    . intro _
      exact .throw trivial
    intro _
    apply Runs.pure
    apply h
    . intro _
      exact ⟨hheader, by rw [Nat.mul_comm sizeofNrProof]; rfl⟩
    intro hnone
    exact absurd hnone hlist
  . intro hlist
    apply Runs.pure
    apply h
    . intro hlist'
      exact absurd hlist' hlist
    intro _
    rfl

theorem runs_makeBasename {Q : List UInt8 → State → Prop}
    (h : ∀ (basename : List UInt8) s', basename.length = 32 → Q basename s') :
    Runs (makeBasename env args) s Q fun _ _ => True := by
  unfold makeBasename
  apply Runs.ite
  . intro _
    apply Runs.bind
    apply runs_call
    intro n s1 _
    apply Runs.pure
    apply h
    rw [List.length_append, Vector.length_toList, length_tabulate]
  . intro _
    apply Runs.pure
    apply h
    rw [List.length_append, Vector.length_toList, List.length_replicate]

theorem length_quoteBody {signSize : Nat} (hbasename : basename.length = 32) :
    (quoteBody env args member basename signSize).length = sizeofQuote := by
  have hreport : args.reportBody.length = 384 := by
    unfold Args.reportBody
    rw [List.length_take, Vector.length_toList]
    rfl
  unfold quoteBody
  simp only [List.length_append, length_toBytes, List.length_reverse, Vector.length_toList, hbasename, hreport]
  rfl

theorem runs_writeQuote {Q : Unit → State → Prop} (hreport : args.qeReport ≠ 0) (hbasename : basename.length = 32)
    (hinfo : args.sigRl ≠ 0 → info.header.length = sizeofSigRl ∧
      info.signSize = 360 + sizeofNrProof * entryCount info.header)
    (hnone : args.sigRl = 0 → info.signSize = 360)
    (h : ∀ s' (q : Quote), load s'.streams.out args.quote (q.bytes env).length = q.bytes env → s'.streams.qeReport =
        some ((env.sha256 (args.nonceRand.toList ++ q.bytes env)).toList ++ List.replicate 32 0) →
      q.Answers env args member info basename → Q () s') :
    Runs (writeQuote env args member info basename) s Q fun _ _ => True := by
  unfold writeQuote
  apply Runs.bind
  apply runs_memcpyOut
  intro s1 _
  apply Runs.bind
  apply runs_call
  intro _ s2 _
  apply Runs.bind
  apply Runs.tryCatch
  apply Runs.mono (runs_qeEpidSign hreport hinfo hnone _)
  . exact fun _ _ hQ => hQ
  . intro e s3 _
    apply Runs.bind
    apply runs_memcpyOut
    intro s4 _
    exact .throw trivial
  intro s3 q hbody hsigned
  apply runs_memcpyOut
  intro s4 h4
  rw [← hbody] at h4
  have hlength : q.body.length = sizeofQuote := by
    rw [hbody]
    exact length_quoteBody hbasename
  apply h s4 q
  . unfold Quote.bytes
    rw [h4, List.length_append, load_add, load_store_same, hlength, load_store_apart]
    . exact congrArg _ hsigned.out
    rw [hlength]
    exact .inr (Nat.le_refl _)
  . rw [h4]
    exact hsigned.qeReport
  . exact hsigned.answers

theorem runs_getQuote (hreport : args.qeReport ≠ 0) : Runs (getQuote env args) s
      (fun _ s' => ∃ (member : Member F) (q : Quote) (info : SigRlInfo) (basename : List UInt8),
        env.verifyBlob = .ok member ∧ load s'.streams.out args.quote (q.bytes env).length = q.bytes env ∧
        s'.streams.qeReport = some ((env.sha256 (args.nonceRand.toList ++ q.bytes env)).toList ++ List.replicate 32 0) ∧
        q.Answers env args member info basename)
      fun _ _ => True := by
  unfold getQuote
  apply Runs.ite
  . intro _
    exact .throw trivial
  intro _
  apply Runs.ite
  . intro _
    exact .throw trivial
  intro _
  apply Runs.bind
  cases hblob : env.verifyBlob with
  | error e => exact .throw trivial
  | ok member =>
    apply Runs.pure
    apply Runs.bind
    apply runs_readSigRl
    intro info s1 hinfo hnone
    apply Runs.bind
    apply runs_makeBasename
    intro basename s2 hbasename
    apply Runs.bind
    apply runs_call
    intro _ s3 _
    apply Runs.ite
    . intro _
      exact .throw trivial
    intro _
    apply runs_writeQuote hreport hbasename hinfo hnone
    intro s4 q hout hqeReport hanswers
    exact ⟨member, q, info, basename, rfl, hout, hqeReport, hanswers⟩

theorem Accepted.not_revokes {msg basicSig : List UInt8} {entries nrs : List (List UInt8)}
    (h : Accepted env member info msg basename basicSig entries nrs) :
    ∀ entry ∈ entries, ¬Revokes env.epid member.f entry := by
  intro entry hentry
  obtain ⟨k, hk, rfl⟩ := List.getElem_of_mem hentry
  have hnr : k < nrs.length := by
    rw [← h.proofs.length_eq]
    exact hk
  obtain ⟨call, hproof⟩ := h.proofs.get hk hnr
  exact not_revokes_of_noErr (congrArg Prod.fst hproof)

/--
If the enclave has made a quote and a report, the report is about the quote as it has been written out, and for a
revocation list there is a proof for each entry of a list with a valid signature, none of which revokes the key.
-/
theorem getQuote_commits (env : Env F G) (args : Args) (s s' : State) (hrun : getQuote env args s = .ok () s')
    (hreport : args.qeReport ≠ 0) :
    ∃ (member : Member F) (q : Quote), env.verifyBlob = .ok member ∧
      load s'.streams.out args.quote (q.bytes env).length = q.bytes env ∧
      s'.streams.qeReport =
        some ((env.sha256 (args.nonceRand.toList ++ q.bytes env)).toList ++ List.replicate 32 0) ∧
      (args.sigRl = 0 → q.rlNum = List.replicate 4 0 ∧ q.nrs = []) ∧
      (args.sigRl ≠ 0 → ∃ (header x y basename : List UInt8) (entries : List (List UInt8)),
        q.rlNum = (header.drop 12).take 4 ∧ entries.length = entryCount header ∧ q.nrs.length = entryCount header ∧
        env.ecdsaVerifyHash (env.sha256 (header.take 16 ++ entries.flatten)) member.epidSk x y = true ∧
        List.Forall₂ (ProofFor env member.f (q.body.take qeQuoteBodySize) basename q.basicSig .noErr) entries q.nrs ∧
        ∀ entry ∈ entries, ¬Revokes env.epid member.f entry) := by
  obtain ⟨member, q, info, basename, hblob, hout, hqeReport, hanswers⟩ := Runs.ok (runs_getQuote hreport) hrun
  unfold Quote.Answers at hanswers
  refine ⟨member, q, hblob, hout, hqeReport, ?_, ?_⟩
  . intro hlist
    rw [if_pos hlist] at hanswers
    exact hanswers
  intro hlist
  rw [if_neg hlist] at hanswers
  obtain ⟨-, hnum, entries, haccepted⟩ := hanswers
  have hnrs : q.nrs.length = entryCount info.header := by
    rw [← haccepted.proofs.length_eq]
    exact haccepted.length
  exact ⟨info.header, info.x, info.y, basename, entries, hnum, haccepted.length, hnrs, haccepted.signed,
    haccepted.proofs, haccepted.not_revokes⟩

def sampleEpid : Epid ℚ ℚ where
  readEcPoint _ := some 1
  writeEcPoint g := if g = 0 then .replicate 64 0 else .replicate 64 1
  isIdentity_writeEcPoint g := by
    split
    . next h => exact iff_of_true (by decide) h
    . next h => exact iff_of_false (by decide) h
  mu _ := 1
  mu_ne_zero _ := one_ne_zero
  signBasic _ _ _ _ := .replicate 352 0
  respond _ _ _ _ _ _ _ := some (.replicate 96 0)

def sampleSigRl : List UInt8 := [0, 2, 0, 14, 0, 0, 0, 0, 0, 0, 0, 1, 0, 0, 0, 2]

def sampleEnv : Env ℚ ℚ where
  enclave := ⟨0x100000, 0x10000, by decide, by decide, by decide, by decide⟩
  epid := sampleEpid
  host _ addr := sampleSigRl.getD (addr - 0x1000) 0
  fails _ := false
  readRand _ _ := 0
  sha256 _ := .replicate 32 0
  rsaPubEncrypt _ _ := .replicate 256 0
  keystream _ _ _ := 0
  gcmMac _ _ _ := .replicate 16 0
  ecdsaVerifyHash _ _ _ _ := true
  verifyReport _ := true
  verifyBlob := .ok ⟨2, .replicate 4 0, .replicate 64 0, 0⟩
  isvSvn := 1

def sampleArgs : Args where
  blob := 0x100000
  blobSize := sgxTrustedEpidBlobSizeSdk
  enclaveReport := 0x101000
  report := .replicate 432 0
  quoteType := sgxLinkableSignature
  spid := 0x102000
  spidId := .replicate 16 0
  nonce := 0x103000
  nonceRand := .replicate 16 0
  sigRl := 0x1000
  sigRlSize := 336
  qeReport := 0x104000
  quote := 0x2000
  quoteSize := 1436
  pceIsvsvn := 1

def sampleState : State := ⟨0, 0, ⟨fun _ => 0, [], [], [], none⟩⟩

theorem getQuote_commits_sampleArgs : ∃ (s' : State) (q : Quote),
    getQuote sampleEnv sampleArgs sampleState = .ok () s' ∧
    load s'.streams.out 0x2000 (q.bytes sampleEnv).length = q.bytes sampleEnv ∧
    ∃ (header : List UInt8) (entries : List (List UInt8)), q.nrs.length = entryCount header ∧
      entries.length = entryCount header ∧ ∀ entry ∈ entries, ¬Revokes sampleEpid 2 entry := by
  have hok : isOk (getQuote sampleEnv sampleArgs) sampleState = true := by decide +kernel
  obtain ⟨⟨⟩, s', hrun⟩ := exists_ok hok
  obtain ⟨member, q, hblob, hout, -, -, hlist⟩ :=
    getQuote_commits sampleEnv sampleArgs sampleState s' hrun (by decide)
  obtain ⟨header, x, y, basename, entries, -, hentries, hnrs, -, -, hrevokes⟩ := hlist (by decide)
  cases hblob
  exact ⟨s', q, hrun, hout, header, entries, hnrs, hentries, hrevokes⟩

end Qe
