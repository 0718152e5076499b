import FederatedQuery.Proofs.Engine.Contract

/-! How an execution ends early. A runner that fails or leaves it cancelled is the last one that is
called, and nothing of what was found until then is returned.
-/

namespace FederatedQuery.Session

variable {ρ : Type} {settings : Settings} {session : Session ρ}

/-- An execution stops at its first failure. No call follows one that failed, that brought a wrong
number of row sets, or that left the execution cancelled. A failure is reported with the bucket of
the part and the scope of its runner; a cancellation is reported unless all parts have been run for
all parameter rows, which is what it takes to succeed. An execution that was cancelled before calls
nobody.
-/
theorem execute_stops (reached : session.Reached settings) (respond : Respond ρ)
    (request : Request) (progress : Progress ρ)
    : let compiled := Plan.compile session.catalog settings.limits request.bucket request.query
      let outcome := session.engine.execute session.catalog respond request progress
      ∃ history : History ρ,
        history.Records respond progress outcome.progress
        ∧ history.KeepsContract session.catalog compiled request
        ∧ (∀ before call after,
          history.calls = before ++ call :: after
          → let answer := respond (progress.calls ++ before) call
            (answer.reply.fault? call.request.expectedSets).isSome = true ∨ answer.cancels = true
            → after = [])
        ∧ (∀ before call source,
          history.calls = before ++ [call]
          → let answer := respond (progress.calls ++ before) call
            answer.reply.fault? call.request.expectedSets = some source
            → ∃ registration,
                session.catalog.get? call.request.part.bucket = some registration
                ∧ call.runner = registration.runner
                ∧ outcome.result
                  = .error (.backend call.request.part.bucket registration.scope source))
        ∧ (∀ before call plan,
          history.calls = before ++ [call]
          → compiled = .ok plan
          → let answer := respond (progress.calls ++ before) call
            answer.reply.fault? call.request.expectedSets = none
            → answer.cancels = true
            → ¬(∀ part ∈ plan.parts, Completed request history.services part.id)
            → outcome.result = .error .cancelled)
        ∧ ((∃ sets, outcome.result = .ok sets)
          ↔ ∃ plan,
              compiled = .ok plan
              ∧ ∀ part ∈ plan.parts, Completed request history.services part.id)
        ∧ (progress.cancelled = true → history.calls = []) := by
  intro compiled outcome
  obtain ⟨history, records, keeps, ended⟩ := reached.execute_history respond request progress
  have idle (halted : progress.cancelled = true) : history.calls = [] := by
    rw [History.calls, records.idle halted]
    rfl
  refine ⟨history, records, keeps, fun before call after => records.eq_nil_of_stops, ?_⟩
  rcases ended with ⟨rfl, error, failed⟩ | ⟨plan, known, concludes⟩
  · refine ⟨fun before call source split => ?_, fun before call plan split => ?_, ?_, idle⟩
    · simp [History.calls, History.made] at split
    · simp [History.calls, History.made] at split
    · refine iff_of_false ?_ ?_
      · rintro ⟨sets, same⟩
        cases failed.symm.trans same
      · -- a plan has a part at least, which was not run
        rintro ⟨plan, known, completed⟩
        obtain ⟨tree, -, -, wellFormed⟩ :=
          (Plan.yields_compile reached.reachable _ _ _).of_eq_ok known
        have counted := wellFormed.count
        obtain ⟨service, inside, -⟩ := completed plan.parts[0] (List.getElem_mem _) 0 (by omega)
        cases inside
  · obtain ⟨tree, -, -, wellFormed⟩ :=
      (Plan.yields_compile reached.reachable _ _ _).of_eq_ok known
    refine ⟨fun before call source split => concludes.eq_backend records split,
      fun before call other split compiledAs sound _ incomplete => ?_, ?_, idle⟩
    · obtain rfl := Except.ok.inj (compiledAs.symm.trans known)
      exact concludes.eq_cancelled split sound incomplete
    · rw [concludes.isOk_iff wellFormed]
      constructor
      · exact fun completed => ⟨plan, known, completed⟩
      · rintro ⟨other, compiledAs, completed⟩
        obtain rfl := Except.ok.inj (compiledAs.symm.trans known)
        exact completed

/-- A runner that returns what it is given, and has the execution cancelled by its second call. -/
def echoTwice : Respond Bool := fun calls call =>
  ⟨.sets (echo call.request), calls.length = 1⟩

set_option maxRecDepth 100000 in
/-- The rows see two sorts of colors, so that the second part has to be called for twice. It has
been called for once when the execution is cancelled, which is what is reported.
-/
theorem execute_stops_echoTwice
    : ∃ plan, ∃ history : History Bool,
        Plan.compile shapesAndColorsSession.catalog Limits.default "shape" shapesOfColor = .ok plan
        ∧ history.Records echoTwice ⟨false, []⟩
          (shapesAndColorsSession.engine.execute shapesAndColorsSession.catalog echoTwice
            repeatedColors ⟨false, []⟩).progress
        ∧ history.calls.map (fun call => call.request.part.id) = [1, 0]
        ∧ ¬(∀ part ∈ plan.parts, Completed repeatedColors history.services part.id)
        ∧ (shapesAndColorsSession.engine.execute shapesAndColorsSession.catalog echoTwice
            repeatedColors ⟨false, []⟩).result = .error .cancelled := by
  have reached : shapesAndColorsSession.Reached Settings.default := ⟨_, _, rfl⟩
  have made : (shapesAndColorsSession.engine.execute shapesAndColorsSession.catalog echoTwice
      repeatedColors ⟨false, []⟩).progress.calls.map (fun call => call.request.part.id)
      = [1, 0] := by
    decide +kernel
  have fails : (shapesAndColorsSession.engine.execute shapesAndColorsSession.catalog echoTwice
      repeatedColors ⟨false, []⟩).result.toOption.isNone = true := by
    decide +kernel
  obtain ⟨plan, compiled⟩ := exists_plan_shapesOfColor
  obtain ⟨history, records, -, -, -, cancelled, succeeds, -⟩ :=
    execute_stops reached echoTwice repeatedColors ⟨false, []⟩
  rw [records.calls] at made
  obtain ⟨first, second, calls⟩ : ∃ first second, history.calls = [first, second] := by
    refine List.length_eq_two.mp ?_
    simpa using congrArg List.length made
  have incomplete : ¬∀ part ∈ plan.parts, Completed repeatedColors history.services part.id := by
    intro completed
    obtain ⟨sets, executed⟩ := succeeds.mpr ⟨plan, compiled, completed⟩
    rw [executed] at fails
    cases fails
  refine ⟨plan, history, compiled, records, made, incomplete, ?_⟩
  exact cancelled [first] second plan calls compiled
    (Reply.fault?_sets (answersRowByRow_echo.counted second.request)) rfl incomplete

end FederatedQuery.Session
