import FederatedQuery.Plan
import FederatedQuery.Query
import FederatedQuery.RowSet

/-! Runners: what the engine hands to the backend of a bucket, and what may come back. -/

namespace FederatedQuery

/-- One part for a runner to evaluate. -/
structure RunRequest where
  part : Part
  /-- The parameter rows. Without any, the part is evaluated once. -/
  params : List ParamRow
  templates : List Template
  sort : List SortKey
  pagination : Option Pagination
  coalesce : Bool

/-- How many row sets the runner has to return. -/
def RunRequest.expectedSets (request : RunRequest) : Nat := max 1 request.params.length

/-- What a runner gives back. -/
inductive Reply where
  | sets (sets : List RowSet)
  | failure (source : String)
  /-- No answer came before the execution was cancelled. -/
  | silence

/-- A reply, and whether the execution was cancelled while the runner was at work. -/
structure Answer where
  reply : Reply
  cancels : Bool

/-- A call that the engine makes to a runner of some kind. -/
structure Call (ρ : Type) where
  runner : ρ
  scope : String
  request : RunRequest

/-- How runners behave: the answer to a call may depend on all calls made before it. -/
abbrev Respond (ρ : Type) := List (Call ρ) → Call ρ → Answer

end FederatedQuery
