import FederatedQuery.Execution
import FederatedQuery.Plan.Partition
import FederatedQuery.PlanCache
import FederatedQuery.Settings

/-! The engine: compiles queries, keeps their plans, and executes requests. -/

namespace FederatedQuery

/-- A compiled plan. Its serial number tells it from every plan compiled before it. -/
structure IssuedPlan where
  serial : Nat
  plan : Plan

/-- The settings, the plans kept, and how many plans were compiled so far. -/
structure Engine where
  settings : Settings
  cache : PlanCache IssuedPlan
  issued : Nat

/-- What a request came to, how far its execution went, and the engine afterwards. -/
structure Outcome (ρ : Type) (α : Type) where
  result : Except ExecutionError α
  progress : Progress ρ
  engine : Engine

/-- The outcome with its result replaced by a function of it. -/
def Outcome.map {ρ α β : Type} (f : α → β) (outcome : Outcome ρ α) : Outcome ρ β :=
  ⟨outcome.result.map f, outcome.progress, outcome.engine⟩

namespace Engine

variable {ρ : Type}

/-- An engine that has done nothing yet. -/
def new (settings : Settings) (order : PlanOrder IssuedPlan) : Engine :=
  ⟨settings, PlanCache.new settings.planCacheCapacity order, 0⟩

/-- The plan of a query, from the cache if it was compiled for this version of the catalog.
Plans that have to be compiled are put into the cache; errors are not.
-/
def compile (engine : Engine) (catalog : Catalog ρ) (bucket : String) (query : Query)
    : Except StructuralError IssuedPlan × Engine :=
  let fingerprint : Fingerprint := ⟨bucket, query⟩
  match engine.cache.get fingerprint catalog.version with
  | (some issued, cache) => (.ok issued, { engine with cache })
  | (none, cache) =>
      match Plan.compile catalog engine.settings.limits bucket query with
      | .error error => (.error error, { engine with cache })
      | .ok plan =>
          let issued : IssuedPlan := ⟨engine.issued, plan⟩
          (.ok issued,
            {
              engine with
              cache := cache.insert fingerprint issued catalog.version
              issued := engine.issued + 1
            })

/-- Describes how a query would be executed. -/
def explain (engine : Engine) (catalog : Catalog ρ) (bucket : String) (query : Query)
    : Except StructuralError String × Engine :=
  let (issued, engine) := engine.compile catalog bucket query
  (issued.map fun issued => issued.plan.explain, engine)

/-- Executes a plan that was compiled before. -/
def executePlan (engine : Engine) (catalog : Catalog ρ) (respond : Respond ρ) (plan : Plan)
    (request : Request) (progress : Progress ρ) : Outcome ρ (List RowSet) :=
  let (result, progress) :=
    (Execution.runPlan catalog respond engine.settings.coalesceParams plan request).run.run
      progress
  ⟨result, progress, engine⟩

/-- Executes a request: one row set for each parameter row, or a single one without any. -/
def execute (engine : Engine) (catalog : Catalog ρ) (respond : Respond ρ) (request : Request)
    (progress : Progress ρ) : Outcome ρ (List RowSet) :=
  match (request.pagination.map Pagination.validate).getD (.ok ()) with
  | .error error => ⟨.error (.request error), progress, engine⟩
  | .ok () =>
      match engine.compile catalog request.bucket request.query with
      | (.error error, engine) => ⟨.error (.structural error), progress, engine⟩
      | (.ok issued, engine) => engine.executePlan catalog respond issued.plan request progress

/-- Executes a request and returns the rows of all its row sets in one list. -/
def all (engine : Engine) (catalog : Catalog ρ) (respond : Respond ρ) (request : Request)
    (progress : Progress ρ) : Outcome ρ (List Row) :=
  (engine.execute catalog respond request progress).map fun sets => sets.flatMap RowSet.rows

/-- Executes a request and returns a page. The rows of all row sets stand on it one after the
other, and their totals are added up.
-/
def page (engine : Engine) (catalog : Catalog ρ) (respond : Respond ρ) (request : Request)
    (progress : Progress ρ) : Outcome ρ Page :=
  (engine.execute catalog respond request progress).map fun sets =>
    Page.ofRowSet (RowSet.concat sets) (request.pagination.getD Pagination.all)

end Engine

end FederatedQuery
