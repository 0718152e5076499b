import FederatedQuery.Engine
import FederatedQuery.Proofs.Execution.Completion

/-! Runners that stay silent. An execution is cancelled when a runner does not answer, and comes
otherwise to what it comes to with runners that would answer these calls, too.
-/

namespace FederatedQuery

variable {ρ : Type}

/-- The first runners answer what the others do, unless they stay silent. -/
def Respond.Refines (respond other : Respond ρ) : Prop :=
  ∀ calls call, (respond calls call).reply = .silence ∨ respond calls call = other calls call

namespace Execution

/-- The first action comes to what the second does, unless it is cancelled. -/
def Refines {α : Type} (action action' : Execution ρ α) : Prop :=
  ∀ progress,
    (action.run.run progress).1 = .error .cancelled
    ∨ action.run.run progress = action'.run.run progress

namespace Refines

variable {α β : Type}

theorem refl (action : Execution ρ α)
    : action.Refines action :=
  fun _ => Or.inr rfl

theorem bind {action action' : Execution ρ α} {next next' : α → Execution ρ β}
    (first : action.Refines action') (second : ∀ value, (next value).Refines (next' value))
    : (action >>= next).Refines (action' >>= next') := by
  intro progress
  simp only [ExceptT.run_bind, StateT.run_bind]
  rcases first progress with stopped | same
  · left
    cases ran : action.run.run progress with
    | mk result after =>
        obtain rfl : result = .error .cancelled := by simpa [ran] using stopped
        rfl
  · rw [← same]
    cases action.run.run progress with
    | mk result after =>
        cases result with
        | error => exact Or.inr rfl
        | ok value => exact second value after

theorem unlessCancelled {action action' : Execution ρ α} (refines : action.Refines action')
    : Refines
        (do
          if (← get).cancelled then throw .cancelled
          action)
        (do
          if (← get).cancelled then throw .cancelled
          action') := by
  intro progress
  rw [run_get, run_get]
  split
  · exact Or.inl rfl
  · exact refines progress

end Refines

-----------------------------------------------------------------------------------------
-- The steps of an execution
-----------------------------------------------------------------------------------------

variable {respond other : Respond ρ} (refines : respond.Refines other)
variable (coalesce : Bool) (request : Request)

include refines

/-- A call without an answer cancels the execution. -/
theorem refines_invoke (part : Part) (registration : Registration ρ) (params : List ParamRow)
    : (invoke respond coalesce request part registration params).Refines
        (invoke other coalesce request part registration params) := by
  intro progress
  simp only [invoke, run_get]
  split
  · exact Or.inl rfl
  · rcases refines progress.calls (callOf coalesce request part registration params) with
      silent | same
    · left
      rw [silent]
      rfl
    · right
      rw [same]

theorem refines_runRows (part : Part) (registration : Registration ρ) (places : List Nat)
    : (runRows respond coalesce request part registration places).Refines
        (runRows other coalesce request part registration places) := by
  unfold runRows
  split
  · exact refines_invoke refines _ _ _ _ _
  · split
    · exact refines_invoke refines _ _ _ _ _
    · exact (refines_invoke refines _ _ _ _ _).bind fun _ => .refl _

/-- Groups of parameter rows are run one after the other, by induction on them. -/
theorem refines_runGroups (registration : Registration ρ) (groups : List (Part × List Nat))
    : (runGroups respond coalesce request registration groups).Refines
        (runGroups other coalesce request registration groups) := by
  induction groups with
  | nil => exact .refl _
  | cons group rest ih =>
      exact (refines_runRows refines _ _ _ _ _).bind fun _ => ih.bind fun _ => .refl _

theorem refines_runPart (part : Part) (registration : Registration ρ) (outputs : Outputs)
    : (runPart respond coalesce request part registration outputs).Refines
        (runPart other coalesce request part registration outputs) := by
  unfold runPart
  split
  · exact refines_runRows refines _ _ _ _ _
  · refine (Refines.refl _).bind fun resolved => ?_
    simp only
    split
    · split
      · exact .refl _
      · exact refines_runRows refines _ _ _ _ _
    · exact (refines_runGroups refines _ _ _ _).bind fun _ => .refl _

/-- Parts are run one after the other, by induction on them. -/
theorem refines_runParts (catalog : Catalog ρ) (plan : Plan) (order : List Nat)
    (outputs : Outputs)
    : (runParts catalog respond coalesce plan request order outputs).Refines
        (runParts catalog other coalesce plan request order outputs) := by
  induction order generalizing outputs with
  | nil => exact .refl _
  | cons id rest ih =>
      refine .unlessCancelled ?_
      cases plan.part? id with
      | none => exact .refl _
      | some part =>
          simp only
          cases catalog.get? part.bucket with
          | none => exact .refl _
          | some registration =>
              exact (Refines.refl _).bind fun _ =>
                (refines_runPart refines _ _ _ _ _).bind fun _ => ih _

theorem refines_runPlan (catalog : Catalog ρ) (plan : Plan)
    : (runPlan catalog respond coalesce plan request).Refines
        (runPlan catalog other coalesce plan request) := by
  unfold runPlan
  split
  · exact .refl (throw (.structural (.missingParams plan.bucket)))
  · exact (refines_runParts refines _ _ _ _ _ _).bind fun _ => .refl _

end Execution

/-- A request comes to what it does with runners that answer all calls, unless it is cancelled. -/
theorem Engine.execute_refines (engine : Engine) (catalog : Catalog ρ) {respond other : Respond ρ}
    (refines : respond.Refines other) (request : Request) (progress : Progress ρ)
    : (engine.execute catalog respond request progress).result = .error .cancelled
      ∨ engine.execute catalog respond request progress
        = engine.execute catalog other request progress := by
  simp only [execute]
  split
  · exact Or.inr rfl
  · split
    · exact Or.inr rfl
    · next issued engine compiled =>
      rcases Execution.refines_runPlan refines engine.settings.coalesceParams request catalog
        issued.plan progress with stopped | same
      · exact Or.inl stopped
      · right
        simp only [executePlan, same]

end FederatedQuery
