import SrasMage.RefLe.Basic

/-!
This module contains what `ref_le_get_launch_token` leaves in the token of its caller.
-/

namespace RefLe

/--
The buffer of the caller after a call: an error leaves it as it was or clears it, and a token that is issued
has the code of its body, made with the key for the identifier and the versions in the token.
-/
structure WholeToken (P : Platform) (before : Token) (res : Nat × Token) : Prop where
  failed : res.1 ≠ aeSuccess → res.2 = before ∨ res.2 = Token.zero
  issued : res.1 = aeSuccess → res.2.mac = P.cmac128 (P.getKey (launchKeyRequest res.2)) res.2.body

theorem wholeToken_refused {P : Platform} {e : Nat} (he : e ≠ aeSuccess) (before : Token) :
    WholeToken P before (e, before) :=
  ⟨fun _ => .inl rfl, fun h => absurd h he⟩

theorem wholeToken_cleared {P : Platform} {e : Nat} (he : e ≠ aeSuccess) (before : Token) :
    WholeToken P before (e, Token.zero) :=
  ⟨fun _ => .inr rfl, fun h => absurd h he⟩

theorem wholeToken_signToken (P : Platform) (calls : TokenCalls) (t before : Token) :
    WholeToken P before (signToken P calls t) := by
  unfold signToken
  split
  . exact wholeToken_cleared (by decide) before
  split
  . exact wholeToken_cleared (by decide) before
  . exact ⟨fun h => absurd rfl h, fun _ => rfl⟩

/--
The token is whole if and only if the report could be created when it was asked for, or what is left behind
by that failure was in the buffer before.
-/
theorem getLaunchToken_whole_iff (P : Platform) (calls : TokenCalls) (c : Cache) (request : Option LaunchRequest)
    (lictoken : Token) :
    WholeToken P lictoken (getLaunchToken P calls c request lictoken) ↔
      ∀ r ∈ request, calls.withinEnclave = true → validPrivilege c r = true →
        calls.createReport = 0 ∨ lictoken = { Token.zero with body := launchBody r } := by
  cases request with
  | none =>
    refine ⟨fun _ _ h => absurd h (Option.not_mem_none _), fun _ => ?_⟩
    exact wholeToken_refused (by decide) lictoken
  | some r =>
    simp only [Option.mem_def, Option.some.injEq, forall_eq']
    rw [getLaunchToken]
    by_cases hwithin : calls.withinEnclave = true
    . by_cases hprivilege : validPrivilege c r = true
      . rw [if_neg (by simp [hwithin]), if_neg (by simp [hprivilege])]
        by_cases hreport : calls.createReport = 0
        . refine ⟨fun _ _ _ => .inl hreport, fun _ => ?_⟩
          rw [if_neg (not_not.mpr hreport)]
          split
          . exact wholeToken_cleared (by decide) lictoken
          . exact wholeToken_signToken P calls _ lictoken
        rw [if_pos hreport]
        constructor
        . intro h _ _
          rcases h.failed (show leUnexpectedError ≠ aeSuccess by decide) with heq | heq
          . exact .inr heq.symm
          . -- the body says that the token is valid
            cases congrArg (fun t => t.body.valid) heq
        . intro h
          rw [(h hwithin hprivilege).resolve_left hreport]
          exact wholeToken_refused (by decide) _
      . refine ⟨fun _ _ h => absurd h hprivilege, fun _ => ?_⟩
        rw [if_neg (by simp [hwithin]), if_pos (by simp [hprivilege])]
        exact wholeToken_refused (by decide) lictoken
    . refine ⟨fun _ h => absurd h hwithin, fun _ => ?_⟩
      rw [if_pos (by simp [hwithin])]
      exact wholeToken_refused (by decide) lictoken

def zeroPlatform : Platform where
  sha256 _ := .replicate 32 0
  pad _ := 0
  report := ⟨.replicate 32 0, 0, 0, 0, 0, ⟨0, 0⟩⟩
  getKey _ := 0
  cmac128 _ _ := 0

def zeroRequest : LaunchRequest := ⟨.replicate 32 0, .replicate 32 0, ⟨0, 0⟩⟩

theorem not_wholeToken_createReport : ¬ WholeToken zeroPlatform Token.zero
    (getLaunchToken zeroPlatform ⟨true, 1, 0, 0, 0, 0, 0, 0⟩ ⟨1, 1, fun _ => Entry.zero⟩
      (some zeroRequest) Token.zero) := by
  intro h
  rcases h.failed (by decide +kernel) with heq | heq
  . exact absurd (congrArg (fun t => t.body.valid) heq) (by decide +kernel)
  . exact absurd (congrArg (fun t => t.body.valid) heq) (by decide +kernel)

end RefLe
