import SrasMage.TkeyExchange.Exchange

/-!
This module contains that message 3 is about one quote, whatever the host does to the memory the quote
stands in.
-/

namespace TkeyExchange

open Threads

/--
If a call has returned message 3 for a quote of the EPID quoting enclave, its code is over a quote of the given
size, and the verified report is about the same quote, after the nonce of the context.
-/
theorem sgxRaGetMsg3Trusted_quoted {τ : Type} [DecidableEq τ] (crypto : Crypto)
    (x : Config Mem Lock SgxError τ Call Answer) (h : Reachable (Call.code crypto) Mem.init x) (c : Nat)
    (r : Msg3Request) (argsOk : Bool) (msg3 : Msg3)
    (hmsg3 : (.getMsg3 c r argsOk, .ok (.msg3 msg3)) ∈ x.world.finished) (hepid : r.qeReport.mrSigner = gQeMrsigner) :
    ∃ p quote, x.world.mem.Entry c p ∧ quote.length = r.quoteSize ∧
      msg3.mac = crypto.cmac (x.world.mem.heap p).smkKey
        ((x.world.mem.heap p).gA.toList ++ (x.world.mem.heap p).psSecProp ++ quote) ∧
      crypto.verifyReport r.qeReport = true ∧
      r.qeReport.reportData.toList.take 32 =
        (crypto.sha256 ((x.world.mem.heap p).quoteNonce.toList ++ quote)).toList := by
  obtain ⟨p, quote, hp, -, hquoted⟩ := (inv_of_reachable h).finished _ hmsg3
  exact ⟨p, quote, hp, hquoted.length, hquoted.maced, hquoted.verified, hquoted.hashed hepid⟩

section

variable {τ : Type} {t : τ} {w : State τ}

theorem alone_quotePieces (quote quoteSize : Nat) (hend : quote + quoteSize + pieceSize ≤ 2 ^ 64)
    (hsize : quoteSize < 2 ^ 32) (fuel : Nat) :
    ∀ ptr size digests (rest : List UInt8), quote ≤ ptr → (ptr < quote + quoteSize → size = pieceSize) →
      rest.length = quote + quoteSize - ptr → rest.length < fuel →
      Alone t (quotePieces quote quoteSize fuel ptr size digests) w
        ⟨digests.sha ++ rest, digests.cmac ++ rest⟩ w.mem := by
  induction fuel with
  | zero =>
    intro ptr size digests rest _ _ _ hfuel
    exact absurd hfuel (Nat.not_lt_zero _)
  | succ fuel ih =>
    intro ptr size digests rest hptr hpiece hrest hfuel
    by_cases hlt : ptr < quote + quoteSize
    . obtain rfl := hpiece hlt
      have hnext : nextPieceSize quote quoteSize ptr pieceSize = min (quote + quoteSize - ptr) pieceSize := by
        unfold nextPieceSize pieceSize at *
        split <;> omega
      have htake : (rest.take pieceSize).length = nextPieceSize quote quoteSize ptr pieceSize := by
        rw [hnext, List.length_take, hrest, Nat.min_comm]
      have hdrop : (rest.drop pieceSize).length = quote + quoteSize - (ptr + pieceSize) := by
        rw [List.length_drop, hrest, Nat.sub_sub]
      rw [quotePieces, if_pos hlt]
      refine .choose (rest.take pieceSize) htake (.require (.require ?_))
      rw [Nat.mod_eq_of_lt (by omega)]
      have hstep := ih (ptr + pieceSize) (nextPieceSize quote quoteSize ptr pieceSize)
        ⟨digests.sha ++ rest.take pieceSize, digests.cmac ++ rest.take pieceSize⟩ (rest.drop pieceSize)
        (by omega) (by rw [hnext]; omega) hdrop (by rw [hdrop]; unfold pieceSize at *; omega)
      rw [List.append_assoc, List.append_assoc, List.take_append_drop] at hstep
      exact hstep
    . obtain rfl : rest = [] := List.eq_nil_of_length_eq_zero (by omega)
      rw [quotePieces, if_neg hlt, List.append_nil, List.append_nil]
      exact .pure _

end

def zeroReport : QeReport := ⟨.replicate 16 0, .replicate 32 0, gQeMrsigner, .replicate 64 0⟩

def sampleRequest : Msg3Request where
  quoteSize := 40
  qeReport := zeroReport
  msg3Addr := 0x1000
  msg3Size := 376
  msg3Outside := true

theorem alone_sgxRaGetMsg3Trusted {w : State Unit} (hfree : ∀ l, w.owner l = none) (hsize : 0 < w.mem.size)
    (hget : w.mem.vectorGet 0 = some 0) (hstate : (w.mem.heap 0).state = .procMsg2ed)
    (htarget : (w.mem.heap 0).qeTarget = zeroTarget) :
    ∃ msg3, Alone () (sgxRaGetMsg3Trusted zeroCrypto 0 sampleRequest true) w (.msg3 msg3) w.mem := by
  have hreport : zeroReport.attributes = (w.mem.heap 0).qeTarget.attributes ∧
      zeroReport.mrEnclave = (w.mem.heap 0).qeTarget.mrEnclave := by
    rw [htarget]
    exact ⟨rfl, rfl⟩
  have hcopy : Alone () (copyForMsg3 0 zeroReport) (w.setOwner (.item 0) (some ()))
      ((w.mem.heap 0).gA, (w.mem.heap 0).psSecProp, (w.mem.heap 0).smkKey) w.mem :=
    .load (.ensure (decide_eq_true hstate) (.load (.ensure (decide_eq_true hreport) (.load (.load (.load (.pure _)))))))
  have hhash : ∀ hashed, zeroReport.reportData.toList.take 32 = (zeroCrypto.sha256 hashed).toList := by
    intro hashed
    show zeroReport.reportData.toList.take 32 = (Vector.replicate 32 0).toList
    decide
  have hpieces := alone_quotePieces (t := ()) (w := w) sampleRequest.quote sampleRequest.quoteSize (by decide)
    (by decide) 41 sampleRequest.quote pieceSize
    ⟨(w.mem.heap 0).quoteNonce.toList, (w.mem.heap 0).gA.toList ++ (w.mem.heap 0).psSecProp⟩ (List.replicate 40 0)
    (Nat.le_refl _) (fun _ => rfl) (by decide) (by decide)
  exact ⟨_, Alone.enter (hfree _) hsize hget (.ensure (by decide) (.require (.ensure rfl (Alone.bind
    (Alone.withLock (hfree _) hcopy) (.require (.load (.require (.require (.require (.require (Alone.bind hpieces
    (.require (.require (.ensure (decide_eq_true (.inr (hhash _))) (.pure _)))))))))))))))⟩

theorem sgxRaGetMsg3Trusted_quoted_sampleRequest :
    ∃ (x : Config Mem Lock SgxError Unit Call Answer) (msg3 : Msg3), Reachable (Call.code zeroCrypto) Mem.init x ∧
      (.getMsg3 0 sampleRequest true, .ok (.msg3 msg3)) ∈ x.world.finished ∧
      sampleRequest.qeReport.mrSigner = gQeMrsigner ∧
      ∃ p quote, x.world.mem.Entry 0 p ∧ quote.length = 40 ∧
        msg3.mac = zeroCrypto.cmac (x.world.mem.heap p).smkKey
          ((x.world.mem.heap p).gA.toList ++ (x.world.mem.heap p).psSecProp ++ quote) ∧
        zeroCrypto.verifyReport sampleRequest.qeReport = true ∧
        sampleRequest.qeReport.reportData.toList.take 32 =
          (zeroCrypto.sha256 ((x.world.mem.heap p).quoteNonce.toList ++ quote)).toList := by
  obtain ⟨w, hreachable, hfree, hsize, hget, hstate, htarget⟩ := reachable_procMsg2
  let c : Call := .getMsg3 0 sampleRequest true
  obtain ⟨msg3, halone⟩ : ∃ msg3, Alone () (c.code zeroCrypto) (w.start c) (.msg3 msg3) w.mem :=
    alone_sgxRaGetMsg3Trusted (w := w.start c) hfree hsize hget hstate htarget
  have hreachable' := reachable_alone hreachable halone
  have hmem : (c, .ok (.msg3 msg3)) ∈ (World.finish (w.start c) c (.ok (.msg3 msg3))).finished :=
    List.mem_append_right _ (List.mem_singleton.mpr rfl)
  exact ⟨_, msg3, hreachable', hmem, rfl,
    sgxRaGetMsg3Trusted_quoted zeroCrypto _ hreachable' 0 sampleRequest true msg3 hmem rfl⟩

end TkeyExchange
