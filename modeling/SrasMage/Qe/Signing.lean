import SrasMage.Qe.QuotingEnclave

/-!
This module contains what each part of `qe_epid_sign` hashes, encrypts and writes out.
-/

namespace Qe

open Bytes Memory StreamCipher Hoare

variable {F G : Type} [Field F] [AddCommGroup G] [Module F G] {env : Env F G}

section

variable {α : Type} {s : State} {args : Args} {w : WrapKey}

theorem runs_nextCall {Q : Nat → State → Prop} (h : ∀ n s', s'.streams = s.streams → Q n s') :
    Runs nextCall s Q fun _ _ => True := by
  unfold nextCall
  apply Runs.bind
  apply Runs.get
  apply Runs.bind
  apply Runs.modify
  exact .pure (h _ _ rfl)

theorem runs_call {Q : Nat → State → Prop} {e : AeError} (h : ∀ n s', s'.streams = s.streams → Q n s') :
    Runs (call env e) s Q fun _ _ => True := by
  unfold call
  apply Runs.bind
  apply runs_nextCall
  intro n s' hs'
  apply Runs.ite
  . intro _
    exact .throw trivial
  . intro _
    exact .pure (h n s' hs')

theorem runs_memcpyIn {Q : List UInt8 → State → Prop} {addr n : Nat}
    (h : ∀ bytes s', bytes.length = n → s'.streams = s.streams → Q bytes s') :
    Runs (memcpyIn env addr n) s Q fun _ _ => True := by
  unfold memcpyIn
  apply Runs.bind
  apply Runs.get
  apply Runs.bind
  apply Runs.modify
  exact .pure (h _ _ (length_tabulate _ _) rfl)

variable {Q : Unit → State → Prop} {bytes : List UInt8}

theorem runs_updateStreams {g : Streams → Streams} (h : ∀ s', s'.streams = g s.streams → Q () s') :
    Runs (updateStreams g) s Q fun _ _ => True :=
  Runs.modify (h _ rfl)

theorem runs_memcpyOut {addr : Nat}
    (h : ∀ s', s'.streams = { s.streams with out := store s.streams.out addr bytes } → Q () s') :
    Runs (memcpyOut addr bytes) s Q fun _ _ => True :=
  runs_updateStreams h

theorem runs_updateSigRlHash (h : ∀ s', s'.streams = { s.streams with sigRl := s.streams.sigRl ++ bytes } → Q () s') :
    Runs (updateSigRlHash env bytes) s Q fun _ _ => True := by
  unfold updateSigRlHash
  apply Runs.bind
  apply runs_call
  intro _ s1 h1
  apply runs_updateStreams
  rw [h1]
  exact h

theorem runs_updateQuoteHash (h : ∀ s', s'.streams = { s.streams with quote := s.streams.quote ++ bytes } → Q () s') :
    Runs (updateQuoteHash env bytes) s Q fun _ _ => True := by
  unfold updateQuoteHash
  apply Runs.bind
  apply runs_call
  intro _ s1 h1
  apply runs_updateStreams
  rw [h1]
  exact h

theorem runs_aesGcm128EncUpdate {Q : List UInt8 → State → Prop} {data : List UInt8}
    (h : ∀ s', s'.streams = { s.streams with gcm := s.streams.gcm ++ data } →
      Q (encryptAt (env.keystream w.key w.iv) s.streams.gcm.length data) s') :
    Runs (aesGcm128EncUpdate env w data) s Q fun _ _ => True := by
  unfold aesGcm128EncUpdate
  apply Runs.bind
  apply runs_call
  intro _ s1 h1
  apply Runs.bind
  apply Runs.get
  apply Runs.bind
  apply runs_updateStreams
  rw [h1]
  intro s2 h2
  exact .pure (h s2 h2)

theorem runs_whenReport {x : M Unit} (hreport : args.qeReport ≠ 0) (h : Runs x s Q fun _ _ => True) :
    Runs (args.whenReport x) s Q fun _ _ => True := by
  unfold Args.whenReport
  rw [if_pos hreport]
  exact h

end

structure Sealed (env : Env F G) (args : Args) (w : WrapKey) (front pre : List UInt8) (d : Streams) : Prop where
  quote : d.quote = front ++ pre ++ encryptAt (env.keystream w.key w.iv) 0 d.gcm
  out : load d.out args.sign (304 + d.gcm.length) = pre ++ encryptAt (env.keystream w.key w.iv) 0 d.gcm

section

variable {s : State} {args : Args} {w : WrapKey} {front pre body header : List UInt8} {Q : Unit → State → Prop}

theorem Sealed.emit {d d' : Streams} {addr : Nat} (h : Sealed env args w front pre d) (data : List UInt8)
    (hgcm : d'.gcm = d.gcm ++ data) (haddr : addr = args.sign + (304 + d.gcm.length))
    (hout : d'.out = store d.out addr (encryptAt (env.keystream w.key w.iv) d.gcm.length data))
    (hquote : d'.quote = d.quote ++ encryptAt (env.keystream w.key w.iv) d.gcm.length data) :
    Sealed env args w front pre d' := by
  constructor
  . rw [hquote, h.quote, hgcm, encryptAt_append, Nat.zero_add]
    simp only [List.append_assoc]
  have happend := load_store_append d.out args.sign (304 + d.gcm.length)
    (encryptAt (env.keystream w.key w.iv) d.gcm.length data)
  rw [h.out, length_encryptAt] at happend
  rw [hout, haddr, hgcm, List.length_append, ← Nat.add_assoc 304, happend, encryptAt_append, Nat.zero_add,
    List.append_assoc]

theorem runs_startQuoteHash (hreport : args.qeReport ≠ 0)
    (h : ∀ s', s'.streams = { s.streams with quote := args.nonceRand.toList ++ body } → Q () s') :
    Runs (startQuoteHash env args body) s Q fun _ _ => True := by
  unfold startQuoteHash
  apply runs_whenReport hreport
  apply Runs.bind
  apply runs_call
  intro _ s1 h1
  apply Runs.bind
  apply runs_updateStreams
  intro s2 h2
  apply Runs.bind
  apply runs_updateQuoteHash
  intro s3 h3
  apply runs_updateQuoteHash
  rw [h3, h2, h1]
  exact h

theorem runs_startSigRlHash (h : ∀ s', s'.streams = { s.streams with sigRl := s'.streams.sigRl } →
      (args.sigRl ≠ 0 → s'.streams.sigRl = header.take 16) → Q () s') :
    Runs (startSigRlHash env args header) s Q fun _ _ => True := by
  unfold startSigRlHash
  apply Runs.ite
  . intro _
    apply Runs.bind
    apply runs_call
    intro _ s1 h1
    apply Runs.bind
    apply runs_updateStreams
    intro s2 h2
    apply runs_updateSigRlHash
    rw [h2, h1]
    intro s3 h3
    apply h
    . rw [h3]
    intro _
    rw [h3]
    rfl
  . intro hnone
    exact .pure (h s rfl fun hlist => absurd hlist hnone)

theorem runs_makeWrapKey {Q : WrapKey → State → Prop}
    (h : ∀ w s', w.iv.length = 12 → w.wrapped.length = 288 → s'.streams = s.streams → Q w s') :
    Runs (makeWrapKey env) s Q fun _ _ => True := by
  unfold makeWrapKey
  apply Runs.bind
  apply runs_call
  intro n s1 h1
  apply Runs.bind
  apply runs_call
  intro _ s2 h2
  apply Runs.bind
  apply runs_call
  intro _ s3 h3
  apply Runs.bind
  apply runs_call
  intro _ s4 h4
  apply Runs.bind
  apply runs_call
  intro k s5 h5
  apply Runs.bind
  apply runs_call
  intro i s6 h6
  apply Runs.pure
  apply h
  . exact length_tabulate _ _
  . rw [List.length_append, Vector.length_toList, Vector.length_toList]
  . rw [h6, h5, h4, h3, h2, h1]

theorem runs_encryptBasicSign {basicSig : List UInt8} {signSize : Nat} (hreport : args.qeReport ≠ 0)
    (hiv : w.iv.length = 12) (hwrapped : w.wrapped.length = 288)
    (h : ∀ s', Sealed env args w s.streams.quote (w.wrapped ++ w.iv ++ toBytes 4 signSize) s'.streams →
      s'.streams.gcm = basicSig → s'.streams.sigRl = s.streams.sigRl → Q () s') :
    Runs (encryptBasicSign env args w basicSig signSize) s Q fun _ _ => True := by
  unfold encryptBasicSign
  apply Runs.bind
  apply runs_memcpyOut
  intro s1 h1
  apply Runs.bind
  apply runs_memcpyOut
  intro s2 h2
  apply Runs.bind
  apply runs_memcpyOut
  intro s3 h3
  apply Runs.bind
  apply runs_call
  intro _ s4 h4
  apply Runs.bind
  apply runs_updateStreams
  intro s5 h5
  apply Runs.bind
  apply runs_aesGcm128EncUpdate
  intro s6 h6
  apply Runs.bind
  apply runs_memcpyOut
  intro s7 h7
  apply runs_whenReport hreport
  apply Runs.bind
  apply runs_updateQuoteHash
  intro s8 h8
  apply Runs.bind
  apply runs_updateQuoteHash
  intro s9 h9
  apply Runs.bind
  apply runs_updateQuoteHash
  intro s10 h10
  apply runs_updateQuoteHash
  intro s11 h11
  -- the fields before the encrypted part, which starts empty
  have hout := load_store_append (store (store s.streams.out args.sign w.wrapped) (args.sign + 288) w.iv) args.sign 300
    (toBytes 4 signSize)
  have hiv' := load_store_append (store s.streams.out args.sign w.wrapped) args.sign 288 w.iv
  have hwrapped' := load_store_same s.streams.out args.sign w.wrapped
  rw [hiv] at hiv'
  rw [hwrapped] at hwrapped'
  rw [hwrapped'] at hiv'
  rw [hiv', length_toBytes] at hout
  have hstart : Sealed env args w s.streams.quote (w.wrapped ++ w.iv ++ toBytes 4 signSize)
      { s3.streams with gcm := [], quote := s.streams.quote ++ (w.wrapped ++ w.iv ++ toBytes 4 signSize) } := by
    constructor
    . rw [encryptAt_nil, List.append_nil]
    . rw [encryptAt_nil, List.append_nil, h3, h2, h1]
      exact hout
  apply h
  . refine hstart.emit basicSig ?_ rfl ?_ ?_
    . rw [h11, h10, h9, h8, h7, h6, h5]
    . rw [h11, h10, h9, h8, h7, h6, h5, h4]
      rfl
    . rw [h11, h10, h9, h8, h7, h6, h5, h4, h3, h2, h1]
      simp only [List.append_assoc]
  . rw [h11, h10, h9, h8, h7, h6, h5]
    rfl
  . rw [h11, h10, h9, h8, h7, h6, h5, h4, h3, h2, h1]

def ProofFor (env : Env F G) (f : F) (msg basename basicSig : List UInt8) (status : EpidStatus)
    (entry nr : List UInt8) : Prop :=
  ∃ call, epidNrProve env.epid call f msg basename basicSig entry = (status, nr)

structure Proves (env : Env F G) (f : F) (msg basename basicSig : List UInt8) (d d' : Streams) (n : Nat)
    (isMatch isMatch' : Bool) (entries nrs : List (List UInt8)) : Prop where
  length : entries.length = n
  entry_length : ∀ entry ∈ entries, entry.length = sizeofSigRlEntry
  nr_length : nrs.flatten.length = sizeofNrProof * n
  sigRl : d'.sigRl = d.sigRl ++ entries.flatten
  gcm : d'.gcm = d.gcm ++ nrs.flatten
  isMatch : isMatch' = false → isMatch = false
  proofs : isMatch' = false → List.Forall₂ (ProofFor env f msg basename basicSig .noErr) entries nrs

theorem runs_proveEntries {f : F} {basename basicSig : List UInt8} (hreport : args.qeReport ≠ 0) (n : Nat) :
    ∀ (i : Nat) (isMatch : Bool) (s : State), s.streams.gcm.length = 360 + sizeofNrProof * i →
      Sealed env args w front pre s.streams →
      Runs (proveEntries env args w f body basename basicSig n i isMatch) s
        (fun isMatch' s' => Sealed env args w front pre s'.streams ∧ ∃ entries nrs,
          Proves env f (body.take qeQuoteBodySize) basename basicSig s.streams s'.streams
            n isMatch isMatch' entries nrs)
        fun _ _ => True := by
  induction n with
  | zero =>
    intro i isMatch s _ hsealed
    refine .pure ⟨hsealed, [], [], ?_⟩
    exact {
      length := rfl
      entry_length := nofun
      nr_length := rfl
      sigRl := (List.append_nil _).symm
      gcm := (List.append_nil _).symm
      isMatch := id
      proofs := fun _ => .nil }
  | succ n ih =>
    intro i isMatch s hlength hsealed
    rw [proveEntries]
    apply Runs.bind
    apply runs_memcpyIn
    intro entry s1 hentry h1
    apply Runs.bind
    apply runs_nextCall
    intro k s2 h2
    have hnr : (epidNrProve env.epid k f (body.take qeQuoteBodySize) basename basicSig entry).2.length =
      sizeofNrProof := length_epidNrProve
    obtain ⟨⟨status, nr⟩, hresult⟩ :
      ∃ result, epidNrProve env.epid k f (body.take qeQuoteBodySize) basename basicSig entry = result := ⟨_, rfl⟩
    rw [hresult] at hnr ⊢
    apply Runs.ite
    . intro _
      exact .throw trivial
    intro hstatus
    apply Runs.bind
    apply runs_updateSigRlHash
    intro s3 h3
    apply Runs.bind
    apply runs_aesGcm128EncUpdate
    intro s4 h4
    apply Runs.bind
    apply runs_memcpyOut
    intro s5 h5
    apply Runs.bind
    apply runs_whenReport hreport
    apply runs_updateQuoteHash
    intro s6 h6
    rw [h5, h4, h3, h2, h1] at h6
    have hsealed' : Sealed env args w front pre s6.streams := by
      refine hsealed.emit nr (by rw [h6]) ?_ (by rw [h6]) (by rw [h6])
      omega
    have hlength' : s6.streams.gcm.length = 360 + sizeofNrProof * (i + 1) := by
      rw [h6]
      show (s.streams.gcm ++ nr).length = _
      rw [List.length_append, hlength, hnr, Nat.mul_succ, Nat.add_assoc]
    apply (ih (i + 1) _ s6 hlength' hsealed').mono
    . rintro isMatch' s' ⟨hsealed'', entries, nrs, hproves⟩
      refine ⟨hsealed'', entry :: entries, nr :: nrs, ?_⟩
      exact {
        length := by rw [List.length_cons, hproves.length]
        entry_length := List.forall_mem_cons.2 ⟨hentry, hproves.entry_length⟩
        nr_length := by rw [List.flatten_cons, List.length_append, hproves.nr_length, hnr, Nat.mul_succ, Nat.add_comm]
        sigRl := by rw [hproves.sigRl, h6, List.flatten_cons, List.append_assoc]
        gcm := by rw [hproves.gcm, h6, List.flatten_cons, List.append_assoc]
        isMatch := fun hfalse => (Bool.or_eq_false_iff.1 (hproves.isMatch hfalse)).1
        proofs := by
          intro hfalse
          refine .cons ?_ (hproves.proofs hfalse)
          have hnot := of_decide_eq_false (Bool.or_eq_false_iff.1 (hproves.isMatch hfalse)).2
          cases status with
          | noErr => exact ⟨k, hresult⟩
          | sigRevokedInSigRl => exact absurd rfl hnot
          | otherErr => exact absurd rfl hstatus }
    . exact fun _ _ _ => trivial

structure Accepted (env : Env F G) (member : Member F) (info : SigRlInfo) (msg basename basicSig : List UInt8)
    (entries nrs : List (List UInt8)) : Prop where
  length : entries.length = entryCount info.header
  entry_length : ∀ entry ∈ entries, entry.length = sizeofSigRlEntry
  signed : env.ecdsaVerifyHash (env.sha256 (info.header.take 16 ++ entries.flatten)) member.epidSk info.x info.y = true
  proofs : List.Forall₂ (ProofFor env member.f msg basename basicSig .noErr) entries nrs

variable {member : Member F} {info : SigRlInfo} {basename basicSig : List UInt8}

theorem runs_verifySigRl {isMatch : Bool} (h : ∀ s', s'.streams = s.streams → isMatch = false →
      env.ecdsaVerifyHash (env.sha256 s.streams.sigRl) member.epidSk info.x info.y = true → Q () s') :
    Runs (verifySigRl env member info isMatch) s Q fun _ _ => True := by
  unfold verifySigRl
  apply Runs.bind
  apply runs_call
  intro _ s1 h1
  apply Runs.bind
  apply runs_call
  intro _ s2 h2
  apply Runs.bind
  apply runs_call
  intro _ s3 h3
  apply Runs.bind
  apply Runs.get
  rw [h3, h2, h1]
  apply Runs.ite
  . intro _
    exact .throw trivial
  intro hverified
  apply Runs.ite
  . intro _
    exact .throw trivial
  intro hmatch
  apply Runs.pure
  apply h
  . rw [h3, h2, h1]
  . exact Bool.eq_false_iff.2 hmatch
  . exact Bool.not_eq_false _ ▸ hverified

theorem runs_processSigRl (hreport : args.qeReport ≠ 0) (hsig : basicSig.length = 352)
    (hheader : info.header.length = sizeofSigRl) (hgcm : s.streams.gcm = basicSig)
    (hsigRl : s.streams.sigRl = info.header.take 16) (hsealed : Sealed env args w front pre s.streams)
    (h : ∀ s' entries nrs, Sealed env args w front pre s'.streams →
      s'.streams.gcm = basicSig ++ (info.header.drop 8).take 4 ++ (info.header.drop 12).take 4 ++ nrs.flatten →
      s'.streams.gcm.length = 360 + sizeofNrProof * entryCount info.header →
      Accepted env member info (body.take qeQuoteBodySize) basename basicSig entries nrs → Q () s') :
    Runs (processSigRl env args member info w body basename basicSig) s Q fun _ _ => True := by
  have hver : ((info.header.drop 8).take 4).length = 4 := by
    rw [List.length_take, List.length_drop, hheader]
    rfl
  have hnum : ((info.header.drop 12).take 4).length = 4 := by
    rw [List.length_take, List.length_drop, hheader]
    rfl
  unfold processSigRl
  apply Runs.bind
  apply runs_aesGcm128EncUpdate
  intro s1 h1
  apply Runs.bind
  apply runs_aesGcm128EncUpdate
  intro s2 h2
  apply Runs.bind
  apply runs_memcpyOut
  intro s3 h3
  apply Runs.bind
  apply runs_memcpyOut
  intro s4 h4
  apply Runs.bind
  apply runs_whenReport hreport
  apply Runs.bind
  apply runs_updateQuoteHash
  intro s5 h5
  apply runs_updateQuoteHash
  intro s6 h6
  rw [h1] at h6
  rw [h5, h4, h3, h2, h1] at h6
  have hgcm6 : s6.streams.gcm = basicSig ++ (info.header.drop 8).take 4 ++ (info.header.drop 12).take 4 := by
    rw [h6, ← hgcm]
  have hlength6 : s6.streams.gcm.length = 360 + sizeofNrProof * 0 := by
    rw [hgcm6, List.length_append, List.length_append, hsig, hver, hnum]
    rfl
  -- the version first, then the number of entries
  have hsealed6 : Sealed env args w front pre s6.streams := by
    have hsealed1 : Sealed env args w front pre { s.streams with
        gcm := s.streams.gcm ++ (info.header.drop 8).take 4
        out := store s.streams.out (args.sign + 656)
          (encryptAt (env.keystream w.key w.iv) s.streams.gcm.length ((info.header.drop 8).take 4))
        quote := s.streams.quote ++
          encryptAt (env.keystream w.key w.iv) s.streams.gcm.length ((info.header.drop 8).take 4) } :=
      hsealed.emit _ rfl (by rw [hgcm, hsig]) rfl rfl
    refine hsealed1.emit ((info.header.drop 12).take 4) (by rw [h6]) ?_ (by rw [h6]) (by rw [h6])
    show args.sign + 660 = args.sign + (304 + (s.streams.gcm ++ _).length)
    rw [List.length_append, hgcm, hsig, hver]
  apply Runs.bind
  apply (runs_proveEntries hreport (entryCount info.header) 0 false s6 hlength6 hsealed6).mono
  . rintro isMatch s7 ⟨hsealed7, entries, nrs, hproves⟩
    apply runs_verifySigRl
    intro s8 h8 hmatch hverified
    apply h s8 entries nrs
    . rw [h8]
      exact hsealed7
    . rw [h8, hproves.gcm, hgcm6]
    . rw [h8, hproves.gcm, List.length_append, hlength6, hproves.nr_length]
      rfl
    . rw [hproves.sigRl, h6, hsigRl] at hverified
      exact ⟨hproves.length, hproves.entry_length, hverified, hproves.proofs hmatch⟩
  . exact fun _ _ _ => trivial

theorem runs_withoutSigRl (hreport : args.qeReport ≠ 0) (hsig : basicSig.length = 352)
    (hgcm : s.streams.gcm = basicSig) (hsealed : Sealed env args w front pre s.streams)
    (h : ∀ s', Sealed env args w front pre s'.streams → s'.streams.gcm = basicSig ++ List.replicate 8 0 → Q () s') :
    Runs (withoutSigRl env args w) s Q fun _ _ => True := by
  unfold withoutSigRl
  apply Runs.bind
  apply runs_aesGcm128EncUpdate
  intro s1 h1
  apply Runs.bind
  apply runs_memcpyOut
  intro s2 h2
  apply runs_whenReport hreport
  apply runs_updateQuoteHash
  intro s3 h3
  rw [h2, h1] at h3
  apply h
  . exact hsealed.emit (List.replicate 8 0) (by rw [h3]) (by rw [hgcm, hsig]) (by rw [h3]) (by rw [h3])
  . rw [h3, ← hgcm]

theorem runs_finishQuote (hreport : args.qeReport ≠ 0) {signSize : Nat} (hsize : s.streams.gcm.length = signSize)
    (hsealed : Sealed env args w front pre s.streams)
    (h : ∀ s' (tag : List UInt8), tag.length = sizeofMac → load s'.streams.out args.sign (304 + signSize + sizeofMac) =
        pre ++ encryptAt (env.keystream w.key w.iv) 0 s.streams.gcm ++ tag →
      s'.streams.qeReport = some ((env.sha256 (front ++ pre ++
        encryptAt (env.keystream w.key w.iv) 0 s.streams.gcm ++ tag)).toList ++ List.replicate 32 0) → Q () s') :
    Runs (finishQuote env args w signSize) s Q fun _ _ => True := by
  unfold finishQuote
  apply Runs.bind
  apply runs_call
  intro _ s1 h1
  apply Runs.bind
  apply Runs.get
  apply Runs.bind
  apply runs_memcpyOut
  intro s2 h2
  apply runs_whenReport hreport
  apply Runs.bind
  apply runs_updateQuoteHash
  intro s3 h3
  apply Runs.bind
  apply runs_call
  intro _ s4 h4
  apply Runs.bind
  apply runs_call
  intro _ s5 h5
  apply runs_updateStreams
  intro s6 h6
  rw [h5, h4, h3, h2, h1] at h6
  have htag : (env.gcmMac w.key w.iv s.streams.gcm).toList.length = sizeofMac := Vector.length_toList
  have happend := load_store_append s.streams.out args.sign (304 + signSize)
    (env.gcmMac w.key w.iv s.streams.gcm).toList
  rw [htag, ← hsize, hsealed.out, ← Nat.add_assoc, hsize] at happend
  apply h s6 (env.gcmMac w.key w.iv s.streams.gcm).toList htag
  . rw [h6]
    exact happend
  rw [h6]
  show some ((env.sha256 (s.streams.quote ++ _)).toList ++ _) = _
  rw [hsealed.quote]

end

end Qe
