import FederatedQuery.Proofs.Engine.Exclusion

/-! Engines over stores that hold every registered bucket. No store is asked for anything that it
cannot evaluate: for a rule that is still unbound, or for a bucket that it does not hold.
-/

namespace FederatedQuery.Session

variable {ρ : Type} {settings : Settings} {session : Session ρ}

/-- Stores that hold every registered bucket serve each query that compiles. -/
theorem exists_served (reached : session.Reached settings) {stores : ρ → Store}
    (populated : session.catalog.Populated stores) {bucket : String} {query : Query} {plan : Plan}
    (compiled : Plan.compile session.catalog settings.limits bucket query = .ok plan)
    : ∃ tree,
        session.catalog.Serves stores tree
        ∧ plan.WellFormed session.catalog tree
        ∧ plan.bucket = bucket := by
  obtain ⟨tree, read, same, wellFormed⟩ :=
    (Plan.yields_compile reached.reachable _ _ _).of_eq_ok compiled
  have served := populated.serves (Plan.contains_of_compile reached.reachable read compiled)
  exact ⟨tree, served, wellFormed, wellFormed.bucket.trans same⟩

/-- Over stores that hold every registered bucket, no execution ends with the error of a store,
however the query is split and whatever rows its templates exclude. Unless the request itself is at
fault, each parameter row gets a row set, if the sort keys tell the objects of the bucket apart by
an order.
-/
theorem execute_populated (reached : session.Reached settings) (sorter : StableSort Row)
    {stores : ρ → Store} (populated : session.catalog.Populated stores) (request : Request)
    (progress : Progress ρ) (active : progress.cancelled = false)
    : let outcome :=
        session.engine.execute session.catalog (Store.respond sorter stores) request progress
      (∀ bucket scope source, outcome.result ≠ .error (.backend bucket scope source))
      ∧ ∀ plan,
          Plan.compile session.catalog settings.limits request.bucket request.query = .ok plan
          → (plan.readsParams = true → request.params ≠ [])
          → (∀ pagination ∈ request.pagination, pagination.validate = .ok ())
          → request.Ordered session.catalog stores
          → ∃ sets,
              outcome.result = .ok sets
              ∧ sets.length = max 1 request.params.length := by
  intro outcome
  refine ⟨fun bucket scope source failed => ?_, fun plan compiled given valid ordered => ?_⟩
  · have same := Store.execute_completed session.engine session.catalog
      fun stopped => by cases stopped.symm.trans failed
    simp only [outcome, ← same] at failed
    rcases reached.execute_cases (Store.respond sorter.completed stores) request progress with
      ⟨error, -, refused, -⟩ | ⟨-, ⟨error, -, refused, -⟩ | ⟨plan, compiled, ran⟩⟩
    · cases refused.symm.trans failed
    · cases refused.symm.trans failed
    · by_cases missing : plan.readsParams = true ∧ request.params = []
      · rw [Execution.runPlan_of_missing missing.1 missing.2, Prod.mk.injEq] at ran
        cases ran.1.symm.trans failed
      · obtain ⟨tree, served, wellFormed, -⟩ := exists_served reached populated compiled
        obtain ⟨after, ranAs, -⟩ := Execution.runPlan_completes_respond wellFormed served
          (Execution.sorted_completed sorter wellFormed served settings.coalesceParams request)
          (fun reads none => missing ⟨reads, none⟩) progress active
        rw [ranAs, Prod.mk.injEq] at ran
        cases ran.1.symm.trans failed
  · obtain ⟨tree, served, wellFormed, bucket⟩ := exists_served reached populated compiled
    have answered := reached.execute_eq_answer wellFormed served compiled
      (Execution.sorted_of_ordered sorter wellFormed served settings.coalesceParams bucket ordered)
      given valid active
    exact ⟨_, answered, by simp [Request.slots]⟩

set_option maxRecDepth 100000 in
/-- The template leads nowhere, so that the part with the reference is not even evaluated, and every
shape is found.
-/
theorem execute_populated_shapesOfOtherColors
    : ∃ plan sets,
        Plan.compile shapesAndColorsSession.catalog Limits.default "shape"
            shapesOfOtherColors.query = .ok plan
        ∧ shapesAndColorsSession.catalog.Populated shapesAndColors
        ∧ (shapesAndColorsSession.engine.execute shapesAndColorsSession.catalog
            (Store.respond .insertion shapesAndColors) shapesOfOtherColors ⟨false, []⟩).result
          = .ok sets
        ∧ sets.map RowSet.total = [2] := by
  have orders : (Plan.compile shapesAndColorsSession.catalog Limits.default "shape"
      shapesOfOtherColors.query).toOption.map Plan.order = some [1, 0] := by
    decide +kernel
  have returns : (shapesAndColorsSession.engine.execute shapesAndColorsSession.catalog
      (Store.respond .insertion shapesAndColors) shapesOfOtherColors
        ⟨false, []⟩).result.toOption.map (List.map RowSet.total) = some [2] := by
    decide +kernel
  have reached : shapesAndColorsSession.Reached Settings.default := ⟨_, _, rfl⟩
  obtain ⟨plan, compiled, -⟩ := toOption_map_eq_some_iff.mp orders
  have ordered : shapesOfOtherColors.Ordered shapesAndColorsSession.catalog shapesAndColors :=
    orders_compareRows fun _ none => by cases none
  obtain ⟨-, succeeds⟩ := execute_populated reached .insertion populated_shapesAndColors
    shapesOfOtherColors ⟨false, []⟩ rfl
  obtain ⟨sets, executed, -⟩ :=
    succeeds plan compiled (fun _ => List.cons_ne_nil _ _) (fun _ none => by cases none) ordered
  rw [executed] at returns
  exact ⟨plan, sets, compiled, populated_shapesAndColors, executed, Option.some.inj returns⟩

end FederatedQuery.Session
