import FederatedQuery.Catalog
import FederatedQuery.Grouping
import FederatedQuery.Runner

/-! Running a plan. The parts run in the plan's order; before a part runs, its references to
other parts become the values that these have found for each parameter row, and parameter
rows that see the same values share a call. The first failure ends the execution.
-/

namespace FederatedQuery

/-- How far an execution has come: whether it was cancelled, and the calls made so far. -/
structure Progress (ρ : Type) where
  cancelled : Bool
  calls : List (Call ρ)

/-- A step of an execution: it makes progress, and ends in a value or an error. -/
abbrev Execution (ρ : Type) (α : Type) := ExceptT ExecutionError (StateM (Progress ρ)) α

/-- The row sets that parts have returned, by the parts' ids. -/
abbrev Outputs := Table Nat (List RowSet)

/-- The distinct values that a part has found for one parameter row. -/
def Outputs.values? (outputs : Outputs) (place id : Nat) (field : String)
    : Option (List Value) :=
  (Table.get? outputs id).bind fun sets =>
    sets[place]?.map fun set => distinctColumn set.rows field

/-- A part as one parameter row sees it: with its references replaced by values. -/
structure ResolvedPart where
  place : Nat
  part : Part
  values : List (List Value)

namespace Execution

/-- The operand with a reference to a part replaced by the values found. -/
def resolveOperand (outputs : Outputs) (place : Nat) : Operand → Operand
  | .part id field =>
      match outputs.values? place id field with
      | some values => .values values
      | none => .part id field
  | operand => operand

/-- The values found for a reference to a part, where there are any. -/
def operandValues? (outputs : Outputs) (place : Nat) : Operand → Option (List Value)
  | .part id field => outputs.values? place id field
  | _ => none

/-- The part to which a reference points without output for the parameter row. -/
def missing? (outputs : Outputs) (place : Nat) : Operand → Option Nat
  | .part id field => if (outputs.values? place id field).isNone then some id else none
  | _ => none

/-- A part as a parameter row sees it. All its references need an output. -/
def resolvePart (part : Part) (outputs : Outputs) (place : Nat)
    : Except ExecutionError ResolvedPart :=
  let operands := part.tree.operands
  match (operands.filterMap (missing? outputs place)).getLast? with
  | some id =>
      .error (.unresolvedScope part.id part.bucket
        ("part " ++ Nat.repr id ++ " has not produced output"))
  | none =>
      .ok
        {
          place
          part := { part with tree := part.tree.mapOperands (resolveOperand outputs place) }
          values := operands.filterMap (operandValues? outputs place)
        }

/-- A part as each of the first `count` parameter rows sees it. -/
def resolveAll (part : Part) (outputs : Outputs) (count : Nat)
    : Except ExecutionError (List ResolvedPart) :=
  (List.range count).mapM (resolvePart part outputs)

variable {ρ : Type}

/-- The error of a runner, with the bucket and the scope in which it arose. -/
def backendError (part : Part) (registration : Registration ρ) (source : String)
    : ExecutionError :=
  .backend part.bucket registration.scope source

/-- The call that has a bucket's runner evaluate a part. Only the root part is sorted and
paginated, so that no value that other parts need is left out.
-/
def callOf (coalesce : Bool) (request : Request) (part : Part)
    (registration : Registration ρ) (params : List ParamRow) : Call ρ :=
  {
    runner := registration.runner
    scope := registration.scope
    request :=
      {
        part
        params
        templates := request.templates
        sort := if part.id = 0 then request.sort else []
        pagination := if part.id = 0 then request.pagination else none
        coalesce
      }
  }

/-- Calls a runner, unless the execution is cancelled already. A reply with the wrong number
of row sets is a failure of the runner.
-/
def invoke (respond : Respond ρ) (coalesce : Bool) (request : Request) (part : Part)
    (registration : Registration ρ) (params : List ParamRow) : Execution ρ (List RowSet) := do
  let progress ← get
  if progress.cancelled then throw .cancelled
  let call := callOf coalesce request part registration params
  let answer := respond progress.calls call
  let calls := progress.calls ++ [call]
  match answer.reply with
  | .silence =>
      set ({ cancelled := true, calls } : Progress ρ)
      throw .cancelled
  | .failure source =>
      set ({ cancelled := answer.cancels, calls } : Progress ρ)
      throw (backendError part registration source)
  | .sets sets =>
      set ({ cancelled := answer.cancels, calls } : Progress ρ)
      let expected := call.request.expectedSets
      if sets.length = expected then return sets
      else
        throw (backendError part registration
          ("runner returned " ++ Nat.repr sets.length ++ " row sets, expected "
            ++ Nat.repr expected))

/-- Runs a part for some parameter rows and returns a row set for each of them, or a single
one without parameter rows. A part that does not read them runs once for all.
-/
def runRows (respond : Respond ρ) (coalesce : Bool) (request : Request) (part : Part)
    (registration : Registration ρ) (places : List Nat) : Execution ρ (List RowSet) := do
  if request.params.isEmpty then
    invoke respond coalesce request part registration []
  else if part.readsParams then
    invoke respond coalesce request part registration
      (places.filterMap fun place => request.params[place]?)
  else
    let sets ← invoke respond coalesce request part registration []
    return List.replicate places.length (sets.headD RowSet.empty)

/-- Runs a part for groups of parameter rows one after the other, and returns the row set of
each parameter row with its place.
-/
def runGroups (respond : Respond ρ) (coalesce : Bool) (request : Request)
    (registration : Registration ρ)
    : List (Part × List Nat) → Execution ρ (List (Nat × RowSet))
  | [] => return []
  | (part, places) :: rest => do
      let sets ← runRows respond coalesce request part registration places
      let others ← runGroups respond coalesce request registration rest
      return places.zip sets ++ others

/-- The groups of parameter rows that see the same values, with the part as they see it. -/
def groupsOf (resolved : List ResolvedPart) : List (Part × List Nat) :=
  (classes ResolvedPart.values resolved).filterMap fun (_, members) =>
    members.head?.map fun first => (first.part, members.map ResolvedPart.place)

/-- Runs a part for all parameter rows. -/
def runPart (respond : Respond ρ) (coalesce : Bool) (request : Request) (part : Part)
    (registration : Registration ρ) (outputs : Outputs) : Execution ρ (List RowSet) := do
  let count := request.params.length
  if part.dependsOn.isEmpty then
    runRows respond coalesce request part registration (List.range count)
  else
    let resolved ← resolveAll part outputs (max 1 count)
    let groups := groupsOf resolved
    if request.params.isEmpty then
      match groups with
      | [] => return [RowSet.empty]
      | (part, _) :: _ => runRows respond coalesce request part registration []
    else
      let sets ← runGroups respond coalesce request registration groups
      return (List.range count).map fun place => (Table.get? sets place).getD RowSet.empty

/-- Runs the parts of a plan one after the other and gathers their outputs. A part runs on
the runner registered for its bucket, if it was compiled for that runner's scope.
-/
def runParts (catalog : Catalog ρ) (respond : Respond ρ) (coalesce : Bool) (plan : Plan)
    (request : Request) : List Nat → Outputs → Execution ρ Outputs
  | [], outputs => return outputs
  | id :: rest, outputs => do
      if (← get).cancelled then throw .cancelled
      match plan.part? id with
      | none => throw (.unresolvedScope id plan.bucket "no such part")
      | some part =>
          match catalog.get? part.bucket with
          | none => throw (.structural (.unknownBucket part.bucket))
          | some registration =>
              plan.checkPart id registration.scope
              let sets ← runPart respond coalesce request part registration outputs
              runParts catalog respond coalesce plan request rest (Table.put outputs id sets)

/-- Runs a plan and returns the row sets of its root part. A plan that reads parameter rows
needs at least one.
-/
def runPlan (catalog : Catalog ρ) (respond : Respond ρ) (coalesce : Bool) (plan : Plan)
    (request : Request) : Execution ρ (List RowSet) := do
  if plan.readsParams && request.params.isEmpty then
    throw (.structural (.missingParams plan.bucket))
  let outputs ← runParts catalog respond coalesce plan request plan.order []
  match Table.get? outputs 0 with
  | some sets => return sets
  | none => throw (.unresolvedScope 0 plan.bucket "root part produced no output")

end Execution

end FederatedQuery
