import FederatedQuery.Proofs.Execution.History

/-! Executions over runners of which nothing is known. Once a runner may have been called, an
execution of a compiled plan ends with an error of a runner, with the cancellation of the
execution, or with one row set for each parameter row.
-/

namespace FederatedQuery

variable {ρ : Type}

/-- The error does not come from the query or from its plan, but from a runner or from the
cancellation of the execution.
-/
def ExecutionError.isExternal : ExecutionError → Bool
  | .backend _ _ _ | .cancelled => true
  | .structural _ | .unresolvedScope _ _ _ | .request _ => false

namespace Execution

/-- A value has the property, or there is none for a reason outside of the plan. -/
def Tolerable {α : Type} (P : α → Prop) : Except ExecutionError α → Prop
  | .ok value => P value
  | .error error => error.isExternal = true

variable {respond : Respond ρ} {coalesce : Bool} {catalog : Catalog ρ} {tree : RuleTree}
  {plan : Plan} {request : Request}

/-- A plan comes to one row set for each parameter row, or a single one without any, or fails with
an external error.
-/
theorem Concludes.tolerable {before : Progress ρ} {history : History ρ}
    {result : Except ExecutionError (List RowSet)}
    (concludes : Concludes catalog plan request respond before history result)
    : Tolerable (fun sets => sets.length = max 1 request.params.length) result := by
  cases concludes with
  | finished ran => simp [Tolerable]
  | cancelled | silent | faulty => rfl

/-- A plan that is refused for want of parameter rows makes no progress. Once it runs, it comes to
what is tolerable, however far the execution has come before.
-/
theorem runPlan_refused_or_ensures (wellFormed : plan.WellFormed catalog tree)
    : (∀ progress : Progress ρ,
        (runPlan catalog respond coalesce plan request).run.run progress
        = (.error (.structural (.missingParams plan.bucket)), progress))
      ∨ ∀ progress : Progress ρ,
          Tolerable (fun sets => sets.length = max 1 request.params.length)
            ((runPlan catalog respond coalesce plan request).run.run progress).1 := by
  by_cases missing : plan.readsParams = true ∧ request.params = []
  · exact .inl (runPlan_of_missing missing.1 missing.2)
  · refine .inr fun progress => ?_
    have given : plan.readsParams = true → request.params ≠ [] := fun reads none =>
      missing ⟨reads, none⟩
    obtain ⟨history, -, -, concludes⟩ := runPlan_history respond coalesce wellFormed given progress
    exact concludes.tolerable

end Execution

end FederatedQuery
