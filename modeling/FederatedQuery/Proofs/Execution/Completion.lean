import FederatedQuery.Execution

/-! Executions that complete: they start without being cancelled, end in a value, and are not
cancelled on the way.
-/

namespace FederatedQuery

variable {ρ : Type}

namespace Execution

variable {α β : Type}

@[simp]
theorem run_get (next : Progress ρ → Execution ρ α) (progress : Progress ρ)
    : (get >>= next).run.run progress = (next progress).run.run progress := rfl

@[simp]
theorem run_set (next : PUnit → Execution ρ α) (after progress : Progress ρ)
    : ((set after : Execution ρ PUnit) >>= next).run.run progress
      = (next ⟨⟩).run.run after := rfl

/-- An execution that is not cancelled ends in the value, and is not cancelled then. -/
def Completes (action : Execution ρ α) (value : α) : Prop :=
  ∀ progress, progress.cancelled = false
    → ∃ after, action.run.run progress = (.ok value, after) ∧ after.cancelled = false

namespace Completes

theorem pure (value : α) : Completes (pure value : Execution ρ α) value :=
  fun progress active => ⟨progress, rfl, active⟩

/-- A computation that ends in a value completes with it as a step of an execution. -/
theorem lift (value : α)
    : Completes (liftM (Except.ok value : Except ExecutionError α) : Execution ρ α) value :=
  fun progress active => ⟨progress, rfl, active⟩

theorem bind {action : Execution ρ α} {next : α → Execution ρ β} {value : α} {result : β}
    (first : Completes action value) (second : Completes (next value) result)
    : Completes (action >>= next) result := by
  intro progress active
  obtain ⟨middle, ran, stillActive⟩ := first progress active
  obtain ⟨after, ranOn, activeAfter⟩ := second middle stillActive
  refine ⟨after, ?_, activeAfter⟩
  simp only [ExceptT.run_bind, StateT.run_bind, ran]
  exact ranOn

/-- A step that only looks whether the execution is cancelled lets it go on. -/
theorem unlessCancelled {action : Execution ρ α} {value : α} (completes : Completes action value)
    : Completes
        (do
          if (← get).cancelled then throw .cancelled
          action)
        value := by
  intro progress active
  obtain ⟨after, ran, activeAfter⟩ := completes progress active
  refine ⟨after, ?_, activeAfter⟩
  rw [run_get, if_neg (by simp [active])]
  exact ran

end Completes

variable {respond : Respond ρ} {coalesce : Bool} {request : Request}
  {registration : Registration ρ}

/-- A call of a runner completes with as many row sets as it was called for, if these are its
answer.
-/
theorem invoke_completes {part : Part} {params : List ParamRow} {sets : List RowSet}
    (answers
      : ∀ calls, respond calls (callOf coalesce request part registration params)
          = ⟨.sets sets, false⟩)
    (counted : sets.length = max 1 params.length)
    : Completes (invoke respond coalesce request part registration params) sets := by
  intro progress active
  refine ⟨⟨false, progress.calls ++ [callOf coalesce request part registration params]⟩, ?_, rfl⟩
  have expected : sets.length
      = (callOf coalesce request part registration params).request.expectedSets := counted
  simp only [invoke, run_get, active, Bool.false_eq_true, ↓reduceIte, answers, run_set, expected]
  rfl

/-- Groups of parameter rows are run one after the other, if each can be run. -/
theorem runGroups_completes (sets : Nat → RowSet) (groups : List (Part × List Nat))
    (each
      : ∀ group ∈ groups,
          Completes
            (runRows respond coalesce request group.1 registration group.2)
            (group.2.map sets))
    : Completes (runGroups respond coalesce request registration groups)
        (groups.flatMap fun group => group.2.map fun place => (place, sets place)) := by
  induction groups with
  | nil => exact .pure []
  | cons group rest ih =>
      obtain ⟨part, places⟩ := group
      apply (each (part, places) (by simp)).bind
      refine (ih fun other inside => each other (by simp [inside])).bind ?_
      rw [← List.map_prod_left_eq_zip]
      exact .pure _

end Execution

end FederatedQuery
