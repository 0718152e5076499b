import FederatedQuery.Proofs.Engine.RowIndependence
import FederatedQuery.Proofs.Execution.History

/-! What an engine asks of runners, whatever they answer.
-/

namespace FederatedQuery.Session

variable {ρ : Type} {settings : Settings} {session : Session ρ}

/-- Whatever runners answer, an execution has a history of calls that keep to the contract. A
request is refused before the first of them, or its plan is run.
-/
theorem Reached.execute_history (reached : session.Reached settings) (respond : Respond ρ)
    (request : Request) (progress : Progress ρ)
    : let compiled := Plan.compile session.catalog settings.limits request.bucket request.query
      let outcome := session.engine.execute session.catalog respond request progress
      ∃ history : History ρ,
        history.Records respond progress outcome.progress
        ∧ history.KeepsContract session.catalog compiled request
        ∧ ((history = ⟨[], none⟩ ∧ ∃ error, outcome.result = .error error)
          ∨ ∃ plan,
            compiled = .ok plan
            ∧ Execution.Concludes session.catalog plan request respond progress history
                outcome.result) := by
  intro compiled outcome
  have nothing := History.keepsContract_nil session.catalog compiled request
  rcases reached.execute_cases respond request progress with
    ⟨error, -, failed, still⟩ | ⟨-, ⟨error, -, failed, still⟩ | ⟨plan, known, ran⟩⟩
  · exact ⟨_, History.records_nil respond still, nothing, .inl ⟨rfl, _, failed⟩⟩
  · exact ⟨_, History.records_nil respond still, nothing, .inl ⟨rfl, _, failed⟩⟩
  · obtain ⟨tree, -, -, wellFormed⟩ :=
      (Plan.yields_compile reached.reachable _ _ _).of_eq_ok known
    by_cases missing : plan.readsParams = true ∧ request.params = []
    · rw [Execution.runPlan_of_missing missing.1 missing.2, Prod.mk.injEq] at ran
      exact ⟨_, History.records_nil respond ran.2, nothing, .inl ⟨rfl, _, ran.1⟩⟩
    · have given : plan.readsParams = true → request.params ≠ [] := fun reads none =>
        missing ⟨reads, none⟩
      obtain ⟨history, records, honoured, concludes⟩ :=
        Execution.runPlan_history respond settings.coalesceParams wellFormed given progress
      rw [← ran] at records concludes
      refine ⟨history, records, fun index places call here => ?_, .inr ⟨plan, known, concludes⟩⟩
      exact ⟨plan, known, concludes.contract honoured here⟩

/-- Every call of a runner keeps to the contract, in whatever way the runners answer and however far
an execution comes. When it succeeds, each part was run by one call for every parameter row, rows
have shared a call of a part as they have been found the same values for its references to other
parts, and the result is what was found for the root part.
-/
theorem execute_honours_contract (reached : session.Reached settings) (respond : Respond ρ)
    (request : Request) (progress : Progress ρ)
    : let compiled := Plan.compile session.catalog settings.limits request.bucket request.query
      let outcome := session.engine.execute session.catalog respond request progress
      ∃ history : History ρ,
        history.Records respond progress outcome.progress
        ∧ history.KeepsContract session.catalog compiled request
        ∧ ∀ sets,
          outcome.result = .ok sets
          → ∃ plan,
              compiled = .ok plan
              ∧ history.failed = none
              ∧ RanThrough plan request history.services
              ∧ sets
                = (List.range (max 1 request.params.length)).map (setFor history.services 0) := by
  intro compiled outcome
  obtain ⟨history, records, keeps, ended⟩ := reached.execute_history respond request progress
  refine ⟨history, records, keeps, fun sets same => ?_⟩
  rcases ended with ⟨-, error, failed⟩ | ⟨plan, known, concludes⟩
  · cases failed.symm.trans same
  · rw [same] at concludes
    cases concludes with
    | finished ran => exact ⟨plan, known, rfl, ran, rfl⟩

set_option maxRecDepth 100000 in
/-- Three rows share the call for their colors. Two of them see the same colors and share a call for
the shapes, too, so that there are two such calls. These carry no rows.
-/
theorem execute_honours_contract_repeatedColors
    : ∃ plan, ∃ history : History Bool, ∃ sets,
        Plan.compile shapesAndColorsSession.catalog Limits.default "shape" shapesOfColor = .ok plan
        ∧ (shapesAndColorsSession.engine.execute shapesAndColorsSession.catalog
            (.ofAnswer fun _ => echo) repeatedColors ⟨false, []⟩).result = .ok sets
        ∧ RanThrough plan repeatedColors history.services
        ∧ (∀ (index : Nat) places call,
          history.made[index]? = some (places, call)
          → Contract shapesAndColorsSession.catalog plan repeatedColors
              (history.services.take index) places call)
        ∧ history.calls.map (fun call => (call.request.part.id, call.request.params.length))
          = [(1, 3), (0, 0), (0, 0)] := by
  have returns : (shapesAndColorsSession.engine.execute shapesAndColorsSession.catalog
      (.ofAnswer fun _ => echo) repeatedColors ⟨false, []⟩).result.toOption.map List.length
      = some 3 := by
    decide +kernel
  have made : (shapesAndColorsSession.engine.execute shapesAndColorsSession.catalog
      (.ofAnswer fun _ => echo) repeatedColors ⟨false, []⟩).progress.calls.map
        (fun call => (call.request.part.id, call.request.params.length))
      = [(1, 3), (0, 0), (0, 0)] := by
    decide +kernel
  have reached : shapesAndColorsSession.Reached Settings.default := ⟨_, _, rfl⟩
  obtain ⟨history, records, contracts, finished⟩ :=
    execute_honours_contract reached (.ofAnswer fun _ => echo) repeatedColors ⟨false, []⟩
  obtain ⟨sets, executed, -⟩ := toOption_map_eq_some_iff.mp returns
  obtain ⟨plan, compiled, -, ran, -⟩ := finished sets executed
  refine ⟨plan, history, sets, compiled, executed, ran, fun index places call here => ?_, ?_⟩
  · obtain ⟨other, compiledAs, contract⟩ := contracts index places call here
    obtain rfl := Except.ok.inj (compiled.symm.trans compiledAs)
    exact contract
  · rw [records.calls] at made
    exact made

end FederatedQuery.Session
