import FederatedQuery.Proofs.Engine.Federation
import FederatedQuery.Proofs.Execution.Failure

/-! What a request can come to when nothing is known of the runners. They may return any number of
row sets, fail, stay silent or have the execution cancelled.
-/

namespace FederatedQuery.Session

variable {ρ : Type} {settings : Settings} {session : Session ρ}

/-- A request is refused before anything has been done, or it comes to one row set for each
parameter row or to an external error.
-/
theorem Reached.execute_refused_or_ends (reached : session.Reached settings)
    (respond : Respond ρ) (request : Request) (progress : Progress ρ)
    : let outcome := session.engine.execute session.catalog respond request progress
      (outcome.progress = progress
        ∧ ((∃ error, outcome.result = .error (.request error))
          ∨ ∃ error, outcome.result = .error (.structural error)))
      ∨ Execution.Tolerable (fun sets => sets.length = max 1 request.params.length)
          outcome.result := by
  intro outcome
  rcases reached.execute_cases respond request progress with
    ⟨error, -, failed, still⟩ | ⟨-, ⟨error, -, failed, still⟩ | ⟨plan, compiled, ran⟩⟩
  · exact .inl ⟨still, .inl ⟨error, failed⟩⟩
  · exact .inl ⟨still, .inr ⟨error, failed⟩⟩
  · obtain ⟨tree, -, -, wellFormed⟩ :=
      (Plan.yields_compile reached.reachable _ _ _).of_eq_ok compiled
    rcases Execution.runPlan_refused_or_ensures wellFormed with refused | ensures
    · rw [refused progress, Prod.mk.injEq] at ran
      exact .inl ⟨ran.2, .inr ⟨_, ran.1⟩⟩
    · have ended := ensures progress
      rw [← ran] at ended
      exact .inr ended

/-- An engine never ends with the error of a defective plan. It refuses a request for the request's
own faults before it calls a runner; the errors after that are those of runners and cancellation;
and when it succeeds, there is one row set for each parameter row, or a single one without any.
-/
theorem execute_ends (reached : session.Reached settings) (respond : Respond ρ)
    (request : Request) (progress : Progress ρ)
    : let outcome := session.engine.execute session.catalog respond request progress
      (∀ part bucket detail, outcome.result ≠ .error (.unresolvedScope part bucket detail))
      ∧ (∀ error,
          outcome.result = .error (.structural error)
          → outcome.progress.calls = progress.calls)
      ∧ (∀ error,
          outcome.result = .error (.request error)
          → outcome.progress.calls = progress.calls)
      ∧ (∀ error,
          outcome.result = .error error
          → outcome.progress.calls ≠ progress.calls
          → error = .cancelled ∨ ∃ bucket scope source, error = .backend bucket scope source)
      ∧ ∀ sets, outcome.result = .ok sets → sets.length = max 1 request.params.length := by
  intro outcome
  rcases reached.execute_refused_or_ends respond request progress with
    ⟨still, refused⟩ | ended
  · have unchanged : outcome.progress.calls = progress.calls := congrArg Progress.calls still
    refine ⟨?_, fun _ _ => unchanged, fun _ _ => unchanged,
      fun _ _ changed => absurd unchanged changed, ?_⟩
    · intro part bucket detail same
      rcases refused with ⟨error, failed⟩ | ⟨error, failed⟩
      · cases failed.symm.trans same
      · cases failed.symm.trans same
    · intro sets same
      rcases refused with ⟨error, failed⟩ | ⟨error, failed⟩
      · cases failed.symm.trans same
      · cases failed.symm.trans same
  · have external : ∀ error, outcome.result = .error error → error.isExternal = true := by
      intro error failed
      rwa [failed] at ended
    refine ⟨fun part bucket detail same => ?_, fun error same => ?_, fun error same => ?_,
      fun error same _ => ?_, fun sets same => ?_⟩
    · cases external _ same
    · cases external _ same
    · cases external _ same
    · cases error with
      | backend bucket scope source => exact .inr ⟨bucket, scope, source, rfl⟩
      | cancelled => exact .inl rfl
      | structural | unresolvedScope | request => cases external _ same
    · rwa [same] at ended

/-- A runner that answers its first call for three parameter rows, and later calls with nothing. -/
def forgetful : Respond Bool
  | [], _ => ⟨.sets [RowSet.empty, RowSet.empty, RowSet.empty], false⟩
  | _ :: _, _ => ⟨.sets [], false⟩

set_option maxRecDepth 100000 in
/-- The second part gets no row sets, which is an error of its runner. -/
theorem execute_ends_forgetful
    : ∃ error,
        (shapesAndColorsSession.engine.execute shapesAndColorsSession.catalog forgetful
          shapesOfColorRequest ⟨false, []⟩).result = .error error
        ∧ (shapesAndColorsSession.engine.execute shapesAndColorsSession.catalog forgetful
          shapesOfColorRequest ⟨false, []⟩).progress.calls.length = 2
        ∧ (error = .cancelled ∨ ∃ bucket scope source, error = .backend bucket scope source) := by
  have reached : shapesAndColorsSession.Reached Settings.default := ⟨_, _, rfl⟩
  have called : (shapesAndColorsSession.engine.execute shapesAndColorsSession.catalog forgetful
      shapesOfColorRequest ⟨false, []⟩).progress.calls.length = 2 := by
    decide +kernel
  have fails : (shapesAndColorsSession.engine.execute shapesAndColorsSession.catalog forgetful
      shapesOfColorRequest ⟨false, []⟩).result.toOption.isNone = true := by
    decide +kernel
  obtain ⟨-, -, -, external, -⟩ :=
    execute_ends reached forgetful shapesOfColorRequest ⟨false, []⟩
  cases result : (shapesAndColorsSession.engine.execute shapesAndColorsSession.catalog forgetful
      shapesOfColorRequest ⟨false, []⟩).result with
  | ok sets => simp [result, Except.toOption] at fails
  | error error =>
      refine ⟨error, rfl, called, external error result fun same => ?_⟩
      rw [same] at called
      cases called

end FederatedQuery.Session
