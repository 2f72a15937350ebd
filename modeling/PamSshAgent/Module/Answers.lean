import PamSshAgent.Module.FailClosed
import PamSshAgent.Policy.Halting

/-!
# Every call is answered

The loops of a call are those that read a file and those that watch the helper.  None of them
can be kept going by what a file or the helper delivers, so a call returns one of the two
codes, unless reads are interrupted again and again or the clock stands still.
-/

namespace PamSshAgent

open Interaction

/-- The calls to the file system in a run. -/
def fileCalls (es : List (Event ModuleCalls)) : List (Event FsCalls) :=
  es.filterMap fun
    | ⟨.inr (.inl (.inl query)), reply⟩ => some ⟨query, reply⟩
    | _ => none

/-- How often the loops of a call could go on. -/
def stalls (es : List (Event ModuleCalls)) : ℕ :=
  (fileCalls es).countP Interrupted + helperStalls maxDuration (helperCalls es)

lemma fileCalls_policy (es : List (Event PolicyCalls)) :
    fileCalls (es.map policyPart.event) = fileCallsOf es := by
  rw [fileCalls, fileCallsOf, List.filterMap_map]
  refine List.filterMap_congr fun e _ => ?_
  obtain ⟨query | query, reply⟩ := e
  · rfl
  · rfl

lemma helperCalls_policy (es : List (Event PolicyCalls)) :
    helperCalls (es.map policyPart.event) = helperCallsOf es := by
  rw [helperCalls, helperCallsOf, List.filterMap_map]
  refine List.filterMap_congr fun e _ => ?_
  obtain ⟨query | query, reply⟩ := e
  · rfl
  · rfl

lemma stalls_policy (es : List (Event PolicyCalls)) :
    stalls (es.map policyPart.event) = loadStalls es := by
  rw [stalls, loadStalls, fileCalls_policy, helperCalls_policy]

/-! ## The call -/

variable {fuel : ℕ} {crate : SshKeyCrate} {host : Host} {handle : PamHandleExt} {args : List CStr}

/-- The identities that the agent lists are walked over once. -/
lemma authenticate_spins {R : List (Event AuthCalls) → Prop} (policy : IdentityFilter)
    (principal : Text) : (authenticate crate policy principal).SpinsOnly R := by
  have hattempt : ∀ {R : List (Event AuthCalls) → Prop} identity,
      (signAndVerify crate identity policy.strict).SpinsOnly R := by
    intro R identity
    refine Prog.spinsOnly_ask ?_
    rintro (_ | data)
    · exact Prog.spinsOnly_fail _
    refine Prog.spinsOnly_ask ?_
    rintro (error | signature)
    · exact Prog.spinsOnly_fail _
    · exact Prog.spinsOnly_ofExcept _
  have hwalk : ∀ {R : List (Event AuthCalls) → Prop} now identities,
      (tryIdentities crate policy now principal identities).SpinsOnly R := by
    intro R now identities
    induction identities generalizing R with
    | nil => exact Prog.spinsOnly_ret _
    | cons identity rest ih =>
      rw [tryIdentities]
      split_ifs
      · exact ih
      · refine (hattempt identity).attempt.bind fun _ result _ => ?_
        rcases result with error | known
        · dsimp only
          split_ifs
          · exact ih
          · exact Prog.spinsOnly_fail _
        · exact Prog.spinsOnly_ret _
      · exact ih
  refine Prog.spinsOnly_ask fun now => Prog.spinsOnly_ask ?_
  rintro (error | identities)
  · exact Prog.spinsOnly_fail _
  · exact hwalk now identities

lemma setupCall_spins {R : List (Event ModuleCalls) → Prop} (query : SetupQuery) :
    ((setupCall query).lift setupPart).SpinsOnly R :=
  Prog.SpinsOnly.lift (Prog.spinsOnly_ask fun _ => Prog.spinsOnly_ofExcept _)

lemma smAuthenticate_spins : (smAuthenticate fuel crate host handle args).SpinsOnly
    fun es => fuel ≤ stalls es + loopBound := by
  have hrun : (run fuel crate host handle args).SpinsOnly
      fun es => fuel ≤ stalls es + loopBound := by
    rw [run]
    refine (Prog.spinsOnly_ofExcept _).bind fun es₁ context hcontext => ?_
    obtain ⟨rfl, -⟩ := Prog.returns_ofExcept.mp hcontext
    refine (setupCall_spins _).bind fun es₂ _ hlogging => ?_
    obtain ⟨calls, rfl, hinit⟩ := Prog.returns_lift.mp hlogging
    obtain rfl := returns_setupCall.mp hinit
    refine (Prog.spinsOnly_ofExcept _).bind fun es₃ parsed hparsed => ?_
    obtain ⟨rfl, -⟩ := Prog.returns_ofExcept.mp hparsed
    refine (Prog.spinsOnly_ofExcept _).bind fun es₄ _ husers => ?_
    obtain ⟨rfl, -⟩ := Prog.returns_ofExcept.mp husers
    rw [doAuthenticate]
    have hload : ∀ mode, ((IdentityFilter.newWithMode fuel crate host (parsed.policySources context)
        mode).lift policyPart).SpinsOnly fun es => fuel ≤
          stalls ([] ++ ([⟨.initLogging context.service, .ok ()⟩].map setupPart.event ++
            ([] ++ ([] ++ es)))) + loopBound := by
      intro mode
      refine Prog.SpinsOnly.lift (newWithMode_spins.mono fun es h => ?_)
      -- the call that starts logging is none of those that are counted
      show fuel ≤ stalls (es.map policyPart.event) + loopBound
      rwa [stalls_policy]
    refine Prog.SpinsOnly.bind ?_ fun _ policy _ => ?_
    · split_ifs
      · exact hload .strict
      · exact hload .legacy
    refine (Prog.spinsOnly_ofExcept _).bind fun _ special _ => ?_
    split_ifs
    · exact Prog.spinsOnly_ret _
    refine (Prog.spinsOnly_ofExcept _).bind fun _ path _ => ?_
    refine (setupCall_spins _).bind fun _ _ _ => ?_
    have hauth : ∀ {R : List (Event ModuleCalls) → Prop},
        ((authenticate crate policy context.callingUser).lift authPart).SpinsOnly R :=
      fun {R} => Prog.SpinsOnly.lift (authenticate_spins _ _)
    refine hauth.bind fun _ known _ => ?_
    cases known with
    | true => exact Prog.spinsOnly_ret _
    | false => exact Prog.spinsOnly_fail _
  refine hrun.attempt.bind fun _ result _ => ?_
  rcases result with error | _
  · exact Prog.spinsOnly_ret _
  · exact Prog.spinsOnly_ret _

/-- **Every call is answered.**  Whatever the files, the helper and the agent reply, and however
much the files and the helper deliver: a call returns one of its two codes, unless reads are
interrupted or the clock is read before the deadline of the helper more often than any bound on
the loops. -/
theorem call_answers (fuel : ℕ) (crate : SshKeyCrate) (host : Host) (handle : PamHandleExt)
    (args : List CStr) (σ : Type) (responder : Prog.Responder ModuleCalls σ) (s : σ)
    (hfuel : stalls ((smAuthenticate fuel crate host handle args).run responder s).2.1 + loopBound <
      fuel) :
    ∃ code, ((smAuthenticate fuel crate host handle args).run responder s).1 = .ret code := by
  obtain ⟨result, hresult⟩ := smAuthenticate_spins.exists_ends (Nat.not_le.mpr hfuel)
  rcases result with error | code
  · -- what `run` fails with has been turned into a code
    have hsteps := Prog.steps_run responder (smAuthenticate fuel crate host handle args) s
    rw [hresult] at hsteps
    obtain ⟨phase, -, hends⟩ := hsteps.follows (t := ModulePhase.start) smAuthenticate_follows
    exact absurd hends id
  · exact ⟨code, hresult⟩

/-- The call whose helper cannot be started is answered. -/
theorem call_answers_helper : ∃ code, ((smAuthenticate (2 ^ 22) keyLineCrate bobHost
    ⟨.ok "bob", .ok "sudo"⟩ helperArgs).run rootReplies ()).1 = .ret code :=
  call_answers (2 ^ 22) keyLineCrate bobHost ⟨.ok "bob", .ok "sudo"⟩ helperArgs Unit rootReplies ()
    (by decide +kernel)

end PamSshAgent
