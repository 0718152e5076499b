import FederatedQuery.Proofs.Execution.RowWise
import FederatedQuery.Proofs.Execution.Silence
import FederatedQuery.Proofs.Plan.Rejoining
import FederatedQuery.Proofs.Store.Answering
import FederatedQuery.Proofs.Store.Reachable

/-! Catalogs whose runners are stores. A store answers parameter rows one by one, whatever a part
reads from them, once the references of the part to other parts have been replaced.
-/

namespace FederatedQuery

variable {ρ : Type}

/-- Runners that answer from their stores. There is no answer where the sort of a store gives up:
the execution then ends without row sets, as one that is cancelled does.
-/
def Store.respond (sorter : StableSort Row) (stores : ρ → Store) : Respond ρ := fun _ call =>
  ⟨((stores call.runner).reply? sorter call.request).getD .silence, false⟩

/-- The row sets of an answer are those to which the store evaluates the part. -/
theorem Store.evaluate_of_respond {sorter : StableSort Row} {stores : ρ → Store}
    {calls : List (Call ρ)} {call : Call ρ} {sets : List RowSet} {cancels : Bool}
    (answer : Store.respond sorter stores calls call = ⟨.sets sets, cancels⟩)
    : (stores call.runner).evaluate sorter call.request = .ok (some sets) := by
  have replied := congrArg Answer.reply answer
  simp only [respond, reply?] at replied
  cases evaluated : (stores call.runner).evaluate sorter call.request with
  | error error =>
      rw [evaluated] at replied
      cases replied
  | ok found =>
      rw [evaluated] at replied
      cases found with
      | none => cases replied
      | some found => rw [show found = sets from Reply.sets.inj replied]

/-- Stores whose sort never gives up answer all calls, and an execution that is not cancelled cannot
tell.
-/
theorem Store.execute_completed (engine : Engine) (catalog : Catalog ρ) {sorter : StableSort Row}
    {stores : ρ → Store} {request : Request} {progress : Progress ρ}
    (ends
      : (engine.execute catalog (Store.respond sorter stores) request progress).result
        ≠ .error .cancelled)
    : engine.execute catalog (Store.respond sorter.completed stores) request progress
      = engine.execute catalog (Store.respond sorter stores) request progress := by
  have refines : (Store.respond sorter stores).Refines (Store.respond sorter.completed stores) := by
    intro calls call
    cases replied : (stores call.runner).reply? sorter call.request with
    | none => exact Or.inl (by rw [Store.respond, replied, Option.getD_none])
    | some reply =>
        right
        simp only [Store.respond, replied, Store.reply?_completed replied]
  exact ((engine.execute_refines catalog refines request progress).resolve_left ends).symm

/-- Buckets in one scope are served by one runner. -/
def Catalog.Shared (catalog : Catalog ρ) : Prop :=
  ∀ first second left right,
    catalog.get? first = some left
    → catalog.get? second = some right
    → left.scope = right.scope
    → left.runner = right.runner

/-- The bucket is registered, and held by the store of its runner. -/
def Catalog.Keeps (catalog : Catalog ρ) (stores : ρ → Store) (bucket : String) : Prop :=
  ∃ registration,
    catalog.get? bucket = some registration ∧ (stores registration.runner).Holds bucket

/-- The catalog's runners are stores that can answer the tree: one for each scope, and everything
that the tree reads is held.
-/
structure Catalog.Serves (catalog : Catalog ρ) (stores : ρ → Store) (tree : RuleTree)
    : Prop where
  shared : catalog.Shared
  reachable : ∀ runner, (stores runner).Reachable
  kept : ∀ bucket ∈ tree.bucketsRead, catalog.Keeps stores bucket

/-- The catalog's runners are stores, one for each scope, and hold all buckets that are registered.
-/
structure Catalog.Populated (catalog : Catalog ρ) (stores : ρ → Store) : Prop where
  shared : catalog.Shared
  reachable : ∀ runner, (stores runner).Reachable
  held
    : ∀ bucket registration,
        catalog.get? bucket = some registration → (stores registration.runner).Holds bucket

theorem Catalog.Populated.serves {catalog : Catalog ρ} {stores : ρ → Store} {tree : RuleTree}
    (populated : catalog.Populated stores)
    (registered : ∀ bucket ∈ tree.bucketsRead, catalog.contains bucket = true)
    : catalog.Serves stores tree where
  shared := populated.shared
  reachable := populated.reachable
  kept bucket read := by
    obtain ⟨registration, known⟩ := Option.isSome_iff_exists.mp (registered bucket read)
    exact ⟨registration, known, populated.held bucket registration known⟩

/-- The objects that the runners of the buckets keep in them, and a parameter row. -/
def Catalog.reading (catalog : Catalog ρ) (stores : ρ → Store) (params : ParamRow) : Reading where
  objects bucket :=
    ((catalog.get? bucket).map fun registration =>
      (stores registration.runner).objectsByIdentity bucket).getD []
  params := params

/-- The request's sort keys tell all objects of its bucket apart by an order. -/
def Request.Ordered (request : Request) (catalog : Catalog ρ) (stores : ρ → Store) : Prop :=
  IsOrderOn (compareRows request.sort) ((catalog.reading stores .null).objects request.bucket)

/-- What the store of a part's bucket returns for the part and a parameter row, or without any. -/
def Catalog.storeSet? (catalog : Catalog ρ) (sorter : StableSort Row) (stores : ρ → Store)
    (coalesce : Bool) (request : Request) (part : Part) (row : Option ParamRow) : Option RowSet :=
  (catalog.get? part.bucket).bind fun registration =>
    (stores registration.runner).setOf? sorter
      (Execution.callOf coalesce request part registration []).request row

/-- What the store returns, or an empty row set if it returns nothing. -/
def Catalog.storeSet (catalog : Catalog ρ) (sorter : StableSort Row) (stores : ρ → Store)
    (coalesce : Bool) (request : Request) (part : Part) (row : Option ParamRow) : RowSet :=
  (catalog.storeSet? sorter stores coalesce request part row).getD RowSet.empty

/-- The stores return something for every part of the plan as each parameter row sees it. -/
def Plan.Sorted (plan : Plan) (catalog : Catalog ρ) (sorter : StableSort Row) (stores : ρ → Store)
    (coalesce : Bool) (request : Request) : Prop :=
  plan.Admits (catalog.storeSet sorter stores coalesce request)
    (fun part row => (catalog.storeSet? sorter stores coalesce request part row).isSome) request

namespace Execution

variable {catalog : Catalog ρ} {stores : ρ → Store} {tree : RuleTree} {plan : Plan} {part : Part}
  {registration : Registration ρ} {coalesce : Bool} {request : Request}

/-- The store of a part's runner keeps every bucket that the part reads: all of them are in the
part's scope and read by the tree.
-/
theorem keeps (wellFormed : plan.WellFormed catalog tree) (served : catalog.Serves stores tree)
    (inside : part ∈ plan.parts) (registered : catalog.get? part.bucket = some registration)
    (params : ParamRow)
    : ∀ bucket ∈ part.tree.bucketsRead,
        (stores registration.runner).Keeps (catalog.reading stores params) bucket := by
  intro bucket read
  obtain ⟨place, here⟩ := List.getElem?_of_mem inside
  have placed := wellFormed.placed part inside
  have known := List.mem_of_getElem? (wellFormed.preorder place part here)
  have named := RuleTree.mem_bucketsRead_of_mem_pieces catalog known
    (RuleTree.mem_bucketsRead_rejoin _ read)
  obtain ⟨own, found, holds⟩ := served.kept bucket named
  obtain ⟨other, foundOther, scopeOther⟩ :=
    Catalog.scopeOf?_eq_some (placed.scopeOf?_eq bucket read)
  obtain ⟨root, foundRoot, scopeRoot⟩ := Catalog.scopeOf?_eq_some placed.bucket
  obtain rfl := Option.some.inj (found.symm.trans foundOther)
  obtain rfl := Option.some.inj (registered.symm.trans foundRoot)
  have same : own.runner = registration.runner :=
    served.shared _ _ _ _ found registered (scopeOther.trans scopeRoot.symm)
  refine ⟨same ▸ holds, ?_⟩
  simp only [Catalog.reading, found, Option.map_some, Option.getD_some, same]
  exact ((served.reachable registration.runner).objectsByIdentity_eq bucket).symm

/-- Values that stand for other parts ask for no further bucket. -/
theorem keeps_withValues (wellFormed : plan.WellFormed catalog tree)
    (served : catalog.Serves stores tree) (inside : part ∈ plan.parts)
    (registered : catalog.get? part.bucket = some registration)
    (values : Nat → String → List Value) (params : ParamRow)
    : ∀ bucket ∈ (part.withValues values).tree.bucketsRead,
        (stores registration.runner).Keeps (catalog.reading stores params) bucket := by
  simpa only [Part.withValues, RuleTree.bucketsRead_mapOperands]
    using keeps wellFormed served inside registered params

/-- A store returns for a part whose references to other parts have been replaced what it returns
for each of the parameter rows, if it returns something for all of them.
-/
theorem rowWise_respond (wellFormed : plan.WellFormed catalog tree)
    (served : catalog.Serves stores tree) (inside : part ∈ plan.parts)
    (registered : catalog.get? part.bucket = some registration) (sorter : StableSort Row)
    (values : Nat → String → List Value)
    : RowWise (Store.respond sorter stores) coalesce request registration (part.withValues values)
        (catalog.storeSet sorter stores coalesce request (part.withValues values))
        (fun row =>
          (catalog.storeSet? sorter stores coalesce request (part.withValues values) row).isSome)
    := by
  have registeredHere : catalog.get? (part.withValues values).bucket = some registration := by
    simpa using registered
  have kept := keeps_withValues wellFormed served inside registered values .null
  have answers {params : List ParamRow} {sets : List RowSet}
      (evaluated
        : (stores registration.runner).evaluate sorter
            (callOf coalesce request (part.withValues values) registration params).request
          = .ok (some sets))
      : ∀ calls, Store.respond sorter stores calls
          (callOf coalesce request (part.withValues values) registration params)
        = ⟨.sets sets, false⟩ := by
    intro calls
    simp only [Store.respond, Store.reply?]
    rw [show (callOf coalesce request (part.withValues values) registration params).runner
      = registration.runner from rfl, evaluated]
    rfl
  constructor
  · intro admitted
    obtain ⟨set, returned⟩ := Option.isSome_iff_exists.mp admitted
    have once : (stores registration.runner).evaluate sorter
        (callOf coalesce request (part.withValues values) registration []).request = _ :=
      Store.evaluate_eq_setOf?_none (fun _ => part.part?_of_mem_withValues) kept sorter rfl
    rw [Catalog.storeSet, returned]
    simp only [Catalog.storeSet?, registeredHere, Option.bind_some] at returned
    rw [returned] at once
    exact invoke_completes (answers once) rfl
  · intro rows given admitted
    have each : (stores registration.runner).evaluate sorter
        (callOf coalesce request (part.withValues values) registration rows).request = _ :=
      Store.evaluate_eq_setOf? (fun _ => part.part?_of_mem_withValues) kept sorter given
    have returned : rows.mapM (fun row =>
          catalog.storeSet? sorter stores coalesce request (part.withValues values) (some row))
        = some
            (rows.map fun row =>
              catalog.storeSet sorter stores coalesce request (part.withValues values)
                (some row)) := by
      rw [mapM_eq_some_iff, List.forall₂_map_right_iff, List.forall₂_same]
      intro row among
      obtain ⟨set, found⟩ := Option.isSome_iff_exists.mp (admitted row among)
      rw [Catalog.storeSet, found, Option.getD_some]
    simp only [Catalog.storeSet?, registeredHere, Option.bind_some] at returned
    have some : 0 < rows.length := List.length_pos_iff.mpr given
    exact invoke_completes (answers (each.trans (congrArg Except.ok returned))) (by simp; omega)

/-- A plan over stores comes, for each parameter row, to what it comes to for that row alone. -/
theorem runPlan_completes_respond {sorter : StableSort Row}
    (wellFormed : plan.WellFormed catalog tree) (served : catalog.Serves stores tree)
    (sorted : plan.Sorted catalog sorter stores coalesce request)
    (given : plan.readsParams = true → request.params ≠ [])
    : Completes (runPlan catalog (Store.respond sorter stores) coalesce plan request)
        (request.slots.map fun row =>
          plan.answer (catalog.storeSet sorter stores coalesce request) row 0) :=
  runPlan_completes wellFormed
    (fun _ inside _ registered values =>
      rowWise_respond wellFormed served inside registered sorter values)
    sorted given

/-- The stores return something for all parts if whatever they find in the request's bucket can be
sorted: nothing else is.
-/
theorem sorted_of_finishes {sorter : StableSort Row} (wellFormed : plan.WellFormed catalog tree)
    (served : catalog.Serves stores tree) (coalesce : Bool) {request : Request}
    (finishes
      : ∀ rows ⊆ (catalog.reading stores .null).objects plan.bucket,
          (finishRows sorter request.sort request.pagination rows).isSome)
    : plan.Sorted catalog sorter stores coalesce request := by
  intro id part here row _
  have inside : part ∈ plan.parts := List.mem_of_getElem? here
  obtain ⟨registration, registered, -⟩ :=
    Catalog.scopeOf?_eq_some (wellFormed.placed part inside).bucket
  rw [Catalog.storeSet?, Part.bucket_withValues, registered, Option.bind_some]
  generalize plan.values (catalog.storeSet sorter stores coalesce request) row = values
  have kept := keeps_withValues wellFormed served inside registered values .null
  refine Store.isSome_setOf? (fun _ => part.part?_of_mem_withValues) kept (fun rows found => ?_) _
  by_cases root : (part.withValues values).id = 0
  · have bucket : (part.withValues values).tree.bucket = plan.bucket := by
      obtain ⟨first, same, bucket⟩ := wellFormed.root
      rw [← wellFormed.ids id part here, show part.id = 0 from root] at here
      obtain rfl : first = part := Option.some.inj (same.symm.trans here)
      rw [wellFormed.bucket, ← bucket]
      exact first.bucket_withValues values
    simp only [callOf, root, ↓reduceIte]
    exact finishes rows (bucket ▸ found)
  · simp only [callOf, root, ↓reduceIte]
    rfl

/-- A sort that never gives up sorts everything. -/
theorem sorted_completed (sorter : StableSort Row) (wellFormed : plan.WellFormed catalog tree)
    (served : catalog.Serves stores tree) (coalesce : Bool) (request : Request)
    : plan.Sorted catalog sorter.completed stores coalesce request :=
  sorted_of_finishes wellFormed served coalesce fun rows _ =>
    isSome_finishRows_completed sorter request.sort request.pagination rows

/-- Objects are sorted that the request's sort keys tell apart. -/
theorem sorted_of_ordered (sorter : StableSort Row) (wellFormed : plan.WellFormed catalog tree)
    (served : catalog.Serves stores tree) (coalesce : Bool) (bucket : plan.bucket = request.bucket)
    (ordered : request.Ordered catalog stores)
    : plan.Sorted catalog sorter stores coalesce request := by
  refine sorted_of_finishes wellFormed served coalesce fun rows inside => ?_
  obtain ⟨sorted, same, -⟩ := exists_sortRows sorter (ordered.subset (bucket ▸ inside))
  rw [finishRows, same]
  rfl

end Execution

end FederatedQuery
