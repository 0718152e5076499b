import FederatedQuery.Proofs.Execution.History
import FederatedQuery.Proofs.Plan.Scopes
import FederatedQuery.Proofs.Table

/-! Plans that are run on another catalog than that for which they were compiled. Whether a part is
run, and where, depends on how the part's bucket is registered now; sub-queries inside it are not
looked up again.
-/

namespace FederatedQuery

variable {ρ : Type}

namespace Catalog

/-- The catalog with the buckets of the names as they are registered in the other one. -/
def refreshed (catalog current : Catalog ρ) (names : List String) : Catalog ρ where
  buckets := (current.buckets.filter fun entry => entry.1 ∈ names) ++ catalog.buckets
  version := current.version

theorem get?_refreshed (catalog current : Catalog ρ) (names : List String) (bucket : String)
    : (catalog.refreshed current names).get? bucket
      = if bucket ∈ names then (current.get? bucket).or (catalog.get? bucket)
        else catalog.get? bucket := by
  have filtered := Table.get?_filter_keys current.buckets (fun name => decide (name ∈ names)) bucket
  simp only [get?, refreshed, Table.get?_append, filtered, decide_eq_true_eq]
  split <;> rfl

end Catalog

namespace Execution

variable {respond : Respond ρ} {coalesce : Bool} {plan : Plan} {request : Request}

-----------------------------------------------------------------------------------------
-- What a plan that is run to its end says of the catalog
-----------------------------------------------------------------------------------------

/-- Two steps end in a value when the first does, and then the second. -/
theorem run_bind_eq_ok {α β : Type} {action : Execution ρ α} {next : α → Execution ρ β}
    {progress after : Progress ρ} {value : β}
    (ran : (action >>= next).run.run progress = (.ok value, after))
    : ∃ first middle,
        action.run.run progress = (.ok first, middle)
        ∧ (next first).run.run middle = (.ok value, after) := by
  simp only [ExceptT.run_bind, StateT.run_bind] at ran
  cases started : action.run.run progress with
  | mk result middle =>
      rw [started] at ran
      cases result with
      | error error => cases ran
      | ok first => exact ⟨first, middle, rfl, ran⟩

/-- The part in the place is registered, with a runner that may run it. -/
def Runnable (catalog : Catalog ρ) (plan : Plan) (id : Nat) : Prop :=
  ∃ part registration,
    plan.part? id = some part
    ∧ catalog.get? part.bucket = some registration
    ∧ plan.checkPart id registration.scope = .ok ()

/-- Every part that was run was runnable, by induction on the parts. -/
theorem runnable_of_runParts {catalog : Catalog ρ} {ids : List Nat} {outputs final : Outputs}
    {progress after : Progress ρ}
    (ran
      : (runParts catalog respond coalesce plan request ids outputs).run.run progress
        = (.ok final, after))
    : ∀ id ∈ ids, Runnable catalog plan id := by
  induction ids generalizing outputs progress with
  | nil => intro id inside; cases inside
  | cons id rest ih =>
      simp only [runParts, run_get] at ran
      cases halted : progress.cancelled with
      | true => rw [if_pos halted] at ran; cases ran
      | false =>
          rw [if_neg (by simp [halted])] at ran
          cases here : plan.part? id with
          | none => simp only [here] at ran; cases ran
          | some part =>
              cases registered : catalog.get? part.bucket with
              | none => simp only [here, registered] at ran; cases ran
              | some registration =>
                  simp only [here, registered] at ran
                  obtain ⟨_, _, checked, further⟩ := run_bind_eq_ok ran
                  obtain ⟨_, _, _, others⟩ := run_bind_eq_ok further
                  have runnable : plan.checkPart id registration.scope = .ok () := by
                    cases result : plan.checkPart id registration.scope with
                    | ok => rfl
                    | error error => rw [result] at checked; cases checked
                  intro other inside
                  rcases List.mem_cons.mp inside with rfl | later
                  · exact ⟨part, registration, here, registered, runnable⟩
                  · exact ih others other later

/-- A part can be run in no other scope than its own. -/
theorem scope_of_checkPart {id : Nat} {part : Part} {scope : String}
    (here : plan.part? id = some part) (checked : plan.checkPart id scope = .ok ())
    : part.scope = scope := by
  simp only [Plan.checkPart, here] at checked
  split at checked
  · cases checked
  · next matching => exact not_not.mp matching

-----------------------------------------------------------------------------------------
-- What a run depends on
-----------------------------------------------------------------------------------------

/-- A run looks up the buckets of its parts and no others, by induction on the parts. -/
theorem runParts_congr {first second : Catalog ρ}
    (same : ∀ part ∈ plan.parts, first.get? part.bucket = second.get? part.bucket)
    (ids : List Nat) (outputs : Outputs)
    : runParts first respond coalesce plan request ids outputs
      = runParts second respond coalesce plan request ids outputs := by
  induction ids generalizing outputs with
  | nil => rfl
  | cons id rest ih =>
      simp only [runParts, ih]
      cases here : plan.part? id with
      | none => rfl
      | some part => simp only [same part (List.mem_of_getElem? here)]

theorem runPlan_congr {first second : Catalog ρ}
    (same : ∀ part ∈ plan.parts, first.get? part.bucket = second.get? part.bucket)
    : runPlan first respond coalesce plan request
      = runPlan second respond coalesce plan request := by
  simp only [runPlan, runParts_congr same]

-----------------------------------------------------------------------------------------
-- Stale plans
-----------------------------------------------------------------------------------------

/-- The service ran a part of the plan on the runner that is registered now for the part's bucket,
in the scope for which the part was compiled.
-/
def RunsPart (current : Catalog ρ) (service : Service ρ) (part : Part) : Prop :=
  service.part.tree.bucketsRead = part.tree.bucketsRead
  ∧ ∃ registration,
      current.get? part.bucket = some registration
      ∧ registration.scope = part.scope
      ∧ service.call.runner = registration.runner

/-- The buckets of all parts are registered in the scopes for which the parts were compiled. -/
def InPlace (current : Catalog ρ) (plan : Plan) : Prop :=
  ∀ part ∈ plan.parts, ∃ registration,
    current.get? part.bucket = some registration ∧ registration.scope = part.scope

variable {compiledFor current : Catalog ρ} {tree : RuleTree}

/-- A plan that is run to its end is in place. -/
theorem inPlace_of_runPlan (wellFormed : plan.WellFormed compiledFor tree)
    (given : plan.readsParams = true → request.params ≠ []) {sets : List RowSet}
    {progress after : Progress ρ}
    (ran : (runPlan current respond coalesce plan request).run.run progress = (.ok sets, after))
    : InPlace current plan := by
  rw [runPlan_of_given given] at ran
  obtain ⟨_, _, through, _⟩ := run_bind_eq_ok ran
  intro part inside
  have known := wellFormed.part?_id inside
  have ordered : part.id ∈ plan.order :=
    wellFormed.order.mem_iff.mpr (List.mem_range.mpr (List.getElem?_eq_some_iff.mp known).1)
  obtain ⟨other, registration, here, registered, checked⟩ :=
    runnable_of_runParts through part.id ordered
  obtain rfl := Option.some.inj (known.symm.trans here)
  exact ⟨registration, registered, (scope_of_checkPart here checked).symm⟩

/-- The catalog for which a plan was compiled, with the buckets of its parts as they are registered
now.
-/
def renewed (compiledFor current : Catalog ρ) (plan : Plan) : Catalog ρ :=
  compiledFor.refreshed current (plan.parts.map Part.bucket)

theorem get?_renewed (compiledFor : Catalog ρ) (inPlace : InPlace current plan)
    : ∀ part ∈ plan.parts,
        (renewed compiledFor current plan).get? part.bucket = current.get? part.bucket := by
  intro part inside
  obtain ⟨registration, known, _⟩ := inPlace part inside
  rw [renewed, Catalog.get?_refreshed, if_pos (List.mem_map_of_mem inside), known,
    Option.some_or]

/-- A plan in place is well formed for the renewed catalog, which gives all buckets the scopes that
they had.
-/
theorem wellFormed_renewed (wellFormed : plan.WellFormed compiledFor tree)
    (inPlace : InPlace current plan)
    : plan.WellFormed (renewed compiledFor current plan) tree := by
  refine wellFormed.congr fun bucket => ?_
  by_cases root : bucket ∈ plan.parts.map Part.bucket
  · obtain ⟨part, inside, rfl⟩ := List.mem_map.mp root
    obtain ⟨registration, known, scope⟩ := inPlace part inside
    rw [(wellFormed.placed part inside).bucket, Catalog.scopeOf?,
      get?_renewed compiledFor inPlace part inside, known, Option.map_some, scope]
  · rw [Catalog.scopeOf?, Catalog.scopeOf?, renewed, Catalog.get?_refreshed, if_neg root]

/-- A stale plan that is run to its end has run all its parts, each on the runner that is registered
now for the part's bucket. It runs as on the renewed catalog, for which it is well formed.
-/
theorem runPlan_stale (wellFormed : plan.WellFormed compiledFor tree) {sets : List RowSet}
    {progress after : Progress ρ}
    (ran : (runPlan current respond coalesce plan request).run.run progress = (.ok sets, after))
    : ∃ services,
        (⟨services, none⟩ : History ρ).Records respond progress after
        ∧ RanThrough plan request services
        ∧ ∀ service ∈ services, ∀ part ∈ plan.parts,
            service.part.id = part.id → RunsPart current service part := by
  have given : plan.readsParams = true → request.params ≠ [] := by
    intro reads none
    rw [runPlan_of_missing reads none] at ran
    cases ran
  have inPlace := inPlace_of_runPlan wellFormed given ran
  have renewed := get?_renewed compiledFor inPlace
  rw [runPlan_congr fun part inside => (renewed part inside).symm] at ran
  obtain ⟨history, records, honoured, concludes⟩ :=
    runPlan_history respond coalesce (wellFormed_renewed wellFormed inPlace) given progress
  rw [ran] at records concludes
  cases concludes with
  | @finished services ranThrough =>
      refine ⟨services, records, ranThrough, fun service among part inside same => ?_⟩
      obtain ⟨index, here⟩ := List.getElem?_of_mem among
      have contract := honoured index service here
      obtain ⟨other, found, seen⟩ := contract.part
      obtain rfl : part = other := by
        have known := wellFormed.part?_id inside
        rw [← same] at known
        exact Option.some.inj (known.symm.trans found)
      obtain ⟨place, of⟩ := List.exists_mem_of_ne_nil _ contract.fresh.1
      obtain ⟨registration, routed, runner, -, -⟩ := contract.runner
      -- the contract is with the renewed catalog, which has this bucket as it is now
      rw [seen place of, Part.bucket_withValues, renewed part inside] at routed
      obtain ⟨current, known, scope⟩ := inPlace part inside
      obtain rfl := Option.some.inj (known.symm.trans routed)
      refine ⟨?_, current, known, scope, runner⟩
      rw [Service.part, seen place of, Part.withValues, RuleTree.bucketsRead_mapOperands]

end Execution

end FederatedQuery
