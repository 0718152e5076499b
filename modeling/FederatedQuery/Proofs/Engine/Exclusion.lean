import FederatedQuery.Proofs.Engine.Federation

/-! Parameter rows that no template reaches. A row gets no objects if no template leads all the
template references of the root part to values, in nested trees and inline sub-queries, too. A
sub-query that has become a part of its own only finds nothing for the row.
-/

namespace FederatedQuery

/-- A part excludes a parameter row no matter which values stand for other parts. -/
@[simp]
theorem Part.excludes_withValues (part : Part) (values : Nat → String → List Value)
    (templates : List Template) (row : ParamRow)
    : (part.withValues values).tree.excludes templates row
      = part.tree.excludes templates row := by
  have templated : Operand.isTemplate ∘ Operand.fillPart values = Operand.isTemplate := by
    funext operand
    cases operand <;> rfl
  have paths : (part.withValues values).tree.templatePaths = part.tree.templatePaths := by
    rw [RuleTree.templatePaths, withValues, RuleTree.operands_mapOperands, List.filterMap_map]
    refine List.filterMap_congr fun operand _ => ?_
    cases operand <;> rfl
  have reads : (part.withValues values).tree.readsTemplates = part.tree.readsTemplates := by
    simp [withValues, RuleTree.readsTemplates, RuleTree.operands_mapOperands, templated]
  simp only [RuleTree.excludes, RuleTree.templateFor?, RuleTree.reachedBy, paths, reads]

/-- A tree with template references reads the parameter row. -/
theorem RuleTree.readsParams_of_excludes {tree : RuleTree} {templates : List Template}
    {row : ParamRow} (excluded : tree.excludes templates row = true)
    : tree.readsParams = true := by
  have templated : tree.readsTemplates = true := by
    simp only [excludes, Bool.and_eq_true] at excluded
    exact excluded.1
  obtain ⟨operand, read, isTemplate⟩ := List.any_eq_true.mp templated
  refine List.any_eq_true.mpr ⟨operand, read, ?_⟩
  cases operand with
  | template => rfl
  | literal | param | part | values => cases isTemplate

variable {ρ : Type}

/-- A part comes to nothing for a parameter row that it excludes. -/
theorem Execution.answer_eq_empty_of_excludes {catalog : Catalog ρ} {stores : ρ → Store}
    {tree : RuleTree} {plan : Plan} (wellFormed : plan.WellFormed catalog tree)
    (sorter : StableSort Row) (coalesce : Bool) {request : Request} {id : Nat} {part : Part}
    (here : plan.part? id = some part) {row : ParamRow}
    (excluded : part.tree.excludes request.templates row = true)
    : plan.answer (catalog.storeSet sorter stores coalesce request) (some row) id
      = RowSet.empty := by
  have reads : part.readsParams = true := RuleTree.readsParams_of_excludes excluded
  rw [plan.answer_eq wellFormed here, reads]
  simp only [↓reduceIte, Catalog.storeSet, Catalog.storeSet?, Part.bucket_withValues]
  cases catalog.get? part.bucket with
  | none => rfl
  | some registration =>
      rw [Option.bind_some,
        Store.setOf?_of_excludes sorter ((part.excludes_withValues _ _ _).trans excluded)]
      rfl

namespace Session

variable {settings : Settings} {session : Session ρ}

/-- A parameter row that the root part excludes has an empty row set: it gets nothing if no template
leads all the template references of the root part to values that are not null. Every request of
valid pagination that compiles and has parameter rows succeeds over stores that hold what it reads,
if its sort keys tell the objects of its bucket apart by an order.
-/
theorem execute_excludes (reached : session.Reached settings) (sorter : StableSort Row)
    (stores : ρ → Store) (request : Request) (progress : Progress ρ) {tree : RuleTree}
    {plan : Plan} {root : Part}
    (read
      : RuleTree.ofQuery session.catalog settings.limits request.bucket request.query
        = .ok tree)
    (compiled
      : Plan.compile session.catalog settings.limits request.bucket request.query = .ok plan)
    (first : plan.part? 0 = some root)
    (served : session.catalog.Serves stores tree)
    (given : request.params ≠ [])
    (valid : ∀ pagination ∈ request.pagination, pagination.validate = .ok ())
    (active : progress.cancelled = false)
    : let outcome :=
        session.engine.execute session.catalog (Store.respond sorter stores) request progress
      (∀ sets,
        outcome.result = .ok sets
        → sets.length = request.params.length
          ∧ ∀ (place : Nat) row,
              request.params[place]? = some row
              → root.tree.excludes request.templates row = true
              → sets[place]? = some RowSet.empty)
      ∧ (request.Ordered session.catalog stores → ∃ sets, outcome.result = .ok sets) := by
  intro outcome
  obtain ⟨known, readAs, bucket, wellFormed⟩ :=
    (Plan.yields_compile reached.reachable _ _ _).of_eq_ok compiled
  obtain rfl : known = tree := Except.ok.inj (readAs.symm.trans read)
  refine ⟨fun sets executed => ?_, fun ordered => ?_⟩
  · have same := Store.execute_completed session.engine session.catalog
      fun stopped => by cases stopped.symm.trans executed
    have answered := reached.execute_eq_answer wellFormed served compiled
      (Execution.sorted_completed sorter wellFormed served settings.coalesceParams request)
      (fun _ => given) valid active
    rw [same, executed] at answered
    obtain rfl := Except.ok.inj answered
    refine ⟨by rw [List.length_map, request.length_slots given], fun place row here excluded => ?_⟩
    rw [List.getElem?_map, request.getElem?_slots here, Option.map_some,
      Execution.answer_eq_empty_of_excludes wellFormed _ _ first excluded]
  · exact ⟨_, reached.execute_eq_answer wellFormed served compiled
      (Execution.sorted_of_ordered sorter wellFormed served settings.coalesceParams
        (wellFormed.bucket.trans bucket) ordered)
      (fun _ => given) valid active⟩

/-- The shapes of a tint that each parameter row names under one of two paths. -/
def shapesOfTint : Request where
  bucket := "shape"
  query := ⟨[("tint", .object [("$", .string "$0")])]⟩
  params := [.object [("code", .string "r")], .object [("shade", .string "g")]]
  templates := [["name"], ["code"]]
  sort := []
  pagination := none

set_option maxRecDepth 100000 in
/-- The second template reaches the first row, and no template the second row. -/
theorem execute_excludes_shapesOfTint
    : ∃ sets,
        (shapesAndColorsSession.engine.execute shapesAndColorsSession.catalog
          (Store.respond .insertion shapesAndColors) shapesOfTint ⟨false, []⟩).result = .ok sets
        ∧ sets.map (fun set => column set.rows "id") = [[.string "a"], []]
        ∧ sets[1]? = some RowSet.empty := by
  have reads : (RuleTree.ofQuery shapesAndColorsSession.catalog Limits.default "shape"
      shapesOfTint.query).toOption.map RuleTree.bucketsRead = some ["shape"] := by
    decide +kernel
  have excludes : (Plan.compile shapesAndColorsSession.catalog Limits.default "shape"
      shapesOfTint.query).toOption.map (fun plan => (plan.part? 0).map fun root =>
        root.tree.excludes shapesOfTint.templates (.object [("shade", .string "g")]))
      = some (some true) := by
    decide +kernel
  have returns : (shapesAndColorsSession.engine.execute shapesAndColorsSession.catalog
      (Store.respond .insertion shapesAndColors) shapesOfTint ⟨false, []⟩).result.toOption.map
        (List.map fun set => column set.rows "id") = some [[.string "a"], []] := by
    decide +kernel
  have reached : shapesAndColorsSession.Reached Settings.default := ⟨_, _, rfl⟩
  obtain ⟨tree, read, buckets⟩ := toOption_map_eq_some_iff.mp reads
  obtain ⟨plan, compiled, seen⟩ := toOption_map_eq_some_iff.mp excludes
  obtain ⟨root, first, excluded⟩ := Option.map_eq_some_iff.mp seen
  have served : shapesAndColorsSession.catalog.Serves shapesAndColors tree :=
    serves_of_subset (by simp [buckets])
  obtain ⟨empty, succeeds⟩ :=
    execute_excludes reached .insertion shapesAndColors shapesOfTint ⟨false, []⟩ read compiled first
      served (List.cons_ne_nil _ _) (fun _ none => by cases none) rfl
  obtain ⟨sets, executed⟩ := succeeds (orders_compareRows fun _ none => by cases none)
  rw [executed] at returns
  exact ⟨sets, executed, Option.some.inj returns, (empty sets executed).2 1 _ rfl excluded⟩

/-- The shapes whose color does not have the name in the parameter row, which has none. -/
def shapesOfOtherColors : Request where
  bucket := "shape"
  query := ⟨[("tint not in", .object [("@color.id", .object [("name",
    .object [("$", .string "$0")])])])]⟩
  params := [.object []]
  templates := [["name"]]
  sort := []
  pagination := none

set_option maxRecDepth 100000 in
/-- No template reaches the only reference of the query, which is in a sub-query on another store.
The sub-query finds nothing then, and its negation holds for every shape.
-/
theorem execute_shapesOfOtherColors
    : ∃ tree plan sets,
        RuleTree.ofQuery shapesAndColorsSession.catalog Limits.default "shape"
            shapesOfOtherColors.query = .ok tree
        ∧ Plan.compile shapesAndColorsSession.catalog Limits.default "shape"
            shapesOfOtherColors.query = .ok plan
        ∧ shapesAndColorsSession.catalog.Serves shapesAndColors tree
        ∧ tree.excludes shapesOfOtherColors.templates (.object []) = true
        ∧ shapesOfOtherColors.params[0]? = some (.object [])
        ∧ (shapesAndColorsSession.engine.execute shapesAndColorsSession.catalog
            (Store.respond .insertion shapesAndColors) shapesOfOtherColors ⟨false, []⟩).result
          = .ok sets
        ∧ sets.map RowSet.total = [2]
        ∧ sets[0]? ≠ some RowSet.empty := by
  have reads : (RuleTree.ofQuery shapesAndColorsSession.catalog Limits.default "shape"
      shapesOfOtherColors.query).toOption.map (fun tree =>
        (tree.bucketsRead, tree.excludes shapesOfOtherColors.templates (.object [])))
      = some (["shape", "color"], true) := by
    decide +kernel
  have orders : (Plan.compile shapesAndColorsSession.catalog Limits.default "shape"
      shapesOfOtherColors.query).toOption.map Plan.order = some [1, 0] := by
    decide +kernel
  have returns : (shapesAndColorsSession.engine.execute shapesAndColorsSession.catalog
      (Store.respond .insertion shapesAndColors) shapesOfOtherColors
        ⟨false, []⟩).result.toOption.map (List.map RowSet.total) = some [2] := by
    decide +kernel
  obtain ⟨tree, read, seen⟩ := toOption_map_eq_some_iff.mp reads
  obtain ⟨buckets, excluded⟩ := Prod.mk.inj seen
  obtain ⟨plan, compiled, -⟩ := toOption_map_eq_some_iff.mp orders
  obtain ⟨sets, executed, totals⟩ := toOption_map_eq_some_iff.mp returns
  refine ⟨tree, plan, sets, read, compiled, serves_shapesAndColors buckets, excluded, rfl,
    executed, totals, fun first => ?_⟩
  have none := congrArg (fun totals : List Nat => totals[0]?) totals
  rw [List.getElem?_map, first] at none
  cases none

end Session

end FederatedQuery
