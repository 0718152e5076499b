import FederatedQuery.Proofs.Engine.Session
import FederatedQuery.Proofs.Execution.Federation

/-! Federation is transparent. An engine over stores answers a request as if all buckets were in
one place and the query's tree had never been split: with the objects of the root bucket that meet
the tree, for every parameter row.
-/

namespace FederatedQuery.Session

variable {ρ : Type}

/-- The session comes from a new one on the empty catalog by operations, in whatever order the cache
goes through its plans.
-/
def Reached (settings : Settings) (session : Session ρ) : Prop :=
  ∃ order operations, session = (start Catalog.empty settings order).run operations

/-- Operations take a catalog where changes take it, by induction on them. -/
theorem reachable_run {session : Session ρ} (reachable : session.catalog.Reachable)
    (operations : List (Operation ρ))
    : (session.run operations).catalog.Reachable := by
  induction operations generalizing session with
  | nil => exact reachable
  | cons operation rest ih =>
      have after : (session.step operation).catalog.Reachable := by
        cases operation with
        | register registration => exact reachable.register registration
        | unregister bucket => exact reachable.unregister bucket
        | compile bucket query => exact reachable
      exact ih after

variable {settings : Settings} {session : Session ρ}

theorem Reached.reachable (reached : session.Reached settings) : session.catalog.Reachable := by
  obtain ⟨order, operations, rfl⟩ := reached
  exact reachable_run .empty operations

theorem Reached.coherent (reached : session.Reached settings) : session.Coherent settings := by
  obtain ⟨order, operations, rfl⟩ := reached
  exact (coherent_start Catalog.empty settings order).run operations

/-- A request of invalid pagination is refused as it is, and one whose query does not compile
with the error of the compiler. Any other runs the plan that the compiler makes of the query, be it
cached or not.
-/
theorem Reached.execute_cases (reached : session.Reached settings) (respond : Respond ρ)
    (request : Request) (progress : Progress ρ)
    : let outcome := session.engine.execute session.catalog respond request progress
      (∃ error,
        (request.pagination.map Pagination.validate).getD (.ok ()) = .error error
        ∧ outcome.result = .error (.request error)
        ∧ outcome.progress = progress)
      ∨ (request.pagination.map Pagination.validate).getD (.ok ()) = .ok ()
        ∧ ((∃ error,
            Plan.compile session.catalog settings.limits request.bucket request.query
              = .error error
            ∧ outcome.result = .error (.structural error)
            ∧ outcome.progress = progress)
          ∨ ∃ plan,
            Plan.compile session.catalog settings.limits request.bucket request.query = .ok plan
            ∧ (outcome.result, outcome.progress)
              = (Execution.runPlan session.catalog respond settings.coalesceParams plan
                  request).run.run progress) := by
  obtain ⟨after, returned, -⟩ := reached.coherent.compile request.bucket request.query
  have configured := after.configured
  simp only [step] at configured
  simp only [Engine.execute]
  cases accepted : (request.pagination.map Pagination.validate).getD (.ok ()) with
  | error error => exact .inl ⟨error, rfl, rfl, rfl⟩
  | ok =>
      refine .inr ⟨rfl, ?_⟩
      cases answer : session.engine.compile session.catalog request.bucket request.query with
      | mk result engine =>
          simp only [answer] at returned configured
          rw [← returned]
          cases result with
          | error error => exact .inl ⟨error, rfl, rfl, rfl⟩
          | ok issued =>
              refine .inr ⟨issued.plan, rfl, ?_⟩
              simp only [Engine.executePlan, configured]
              rfl

/-- Executing a request whose query compiles is running the plan. -/
theorem Reached.execute_eq (reached : session.Reached settings) {request : Request} {plan : Plan}
    (respond : Respond ρ) (progress : Progress ρ)
    (compiled
      : Plan.compile session.catalog settings.limits request.bucket request.query = .ok plan)
    (valid : ∀ pagination ∈ request.pagination, pagination.validate = .ok ())
    : (session.engine.execute session.catalog respond request progress).result
      = ((Execution.runPlan session.catalog respond settings.coalesceParams plan request).run.run
          progress).1 := by
  have accepted : (request.pagination.map Pagination.validate).getD (.ok ()) = .ok () := by
    cases pagination : request.pagination with
    | none => rfl
    | some page => exact valid page pagination
  rcases reached.execute_cases respond request progress with
    ⟨_, refused, -⟩ | ⟨-, ⟨_, failed, -⟩ | ⟨other, compiledAs, ran⟩⟩
  · cases accepted.symm.trans refused
  · cases compiled.symm.trans failed
  · obtain rfl := Except.ok.inj (compiledAs.symm.trans compiled)
    exact congrArg Prod.fst ran

/-- An execution over stores that can sort what they find comes to what the plan comes to. -/
theorem Reached.execute_eq_answer (reached : session.Reached settings) {sorter : StableSort Row}
    {stores : ρ → Store} {request : Request} {progress : Progress ρ} {tree : RuleTree} {plan : Plan}
    (wellFormed : plan.WellFormed session.catalog tree)
    (served : session.catalog.Serves stores tree)
    (compiled
      : Plan.compile session.catalog settings.limits request.bucket request.query = .ok plan)
    (sorted : plan.Sorted session.catalog sorter stores settings.coalesceParams request)
    (given : plan.readsParams = true → request.params ≠ [])
    (valid : ∀ pagination ∈ request.pagination, pagination.validate = .ok ())
    (active : progress.cancelled = false)
    : (session.engine.execute session.catalog (Store.respond sorter stores) request progress).result
      = .ok
          (request.slots.map fun row =>
            plan.answer
              (session.catalog.storeSet sorter stores settings.coalesceParams request) row 0) := by
  obtain ⟨after, ran, -⟩ :=
    Execution.runPlan_completes_respond wellFormed served sorted given progress active
  rw [reached.execute_eq _ _ compiled valid, ran]

/-- Federation is transparent. Take a request of valid pagination whose query compiles to a plan
without template references, and which has parameter rows if the query reads them. It is answered
for each parameter row with the objects of the bucket that meet the query's tree, sorted and
paginated, no matter on which stores the buckets are kept and what was cached before, unless the
sort gives up for these objects. The sort arranges them if the sort keys tell them apart by an
order, as they do where the numbers at each key's path are all integers or all floats.
-/
theorem execute_eq_found (reached : session.Reached settings) (sorter : StableSort Row)
    (stores : ρ → Store) (request : Request) (progress : Progress ρ) {tree : RuleTree} {plan : Plan}
    (read
      : RuleTree.ofQuery session.catalog settings.limits request.bucket request.query
        = .ok tree)
    (compiled
      : Plan.compile session.catalog settings.limits request.bucket request.query = .ok plan)
    (served : session.catalog.Serves stores tree)
    (untemplated : tree.readsTemplates = false)
    (given : tree.readsParams = true → request.params ≠ [])
    (valid : ∀ pagination ∈ request.pagination, pagination.validate = .ok ())
    (active : progress.cancelled = false)
    : let outcome :=
        session.engine.execute session.catalog (Store.respond sorter stores) request progress
      let found := fun row => tree.found (session.catalog.reading stores row)
      (∀ sets,
        request.rows.mapM (fun row =>
            finishRows sorter request.sort request.pagination (found row))
          = some sets
        → outcome.result = .ok sets)
      ∧ ((∀ row ∈ request.rows, IsOrderOn (compareRows request.sort) (found row))
        → ∃ sets,
            outcome.result = .ok sets
            ∧ List.Forall₂
              (fun row set => ∃ sorted,
                ArrangesStably (compareRows request.sort) (found row) sorted
                ∧ set = RowSet.paginate sorted request.pagination)
              request.rows sets) := by
  intro outcome found
  obtain ⟨known, readAs, -, wellFormed⟩ :=
    (Plan.yields_compile reached.reachable _ _ _).of_eq_ok compiled
  obtain rfl : known = tree := Except.ok.inj (readAs.symm.trans read)
  have federated : Execution.Federated session.catalog stores known plan :=
    ⟨wellFormed, served, untemplated⟩
  have answers : ∀ sets,
      request.rows.mapM (fun row => finishRows sorter request.sort request.pagination (found row))
        = some sets
      → outcome.result = .ok sets := by
    intro sets finished
    obtain ⟨after, ran, -⟩ := federated.runPlan_completes sorter settings.coalesceParams request
      given finished progress active
    rw [reached.execute_eq _ _ compiled valid, ran]
  refine ⟨answers, fun orders => ?_⟩
  choose! sorted same arranges using fun row among => exists_sortRows sorter (orders row among)
  refine ⟨request.rows.map fun row => RowSet.paginate (sorted row) request.pagination,
    answers _ ?_, ?_⟩
  · rw [mapM_eq_some_iff, List.forall₂_map_right_iff, List.forall₂_same]
    intro row among
    rw [finishRows, same row among, Option.map_some]
  · rw [List.forall₂_map_right_iff, List.forall₂_same]
    exact fun row among => ⟨sorted row, arranges row among, rfl⟩

/-- Two shapes in one store and their colors in another. -/
def shapesAndColors : Bool → Store
  | true =>
      (Store.empty.extend "shape"
        [
          .object [("id", .string "a"), ("tint", .string "r")],
          .object [("id", .string "b"), ("tint", .string "g")]
        ]).1
  | false =>
      (Store.empty.extend "color"
        [
          .object [("id", .string "r"), ("name", .string "red")],
          .object [("id", .string "g"), ("name", .string "green")]
        ]).1

/-- The shapes whose color has the name in the parameter row. -/
def shapesOfColor : Query :=
  ⟨[("tint", .object [("@color.id", .object [("name", .object [(".", .string "name")])])])]⟩

/-- Both buckets are registered, and the query has been compiled before. -/
def shapesAndColorsSession : Session Bool :=
  (start Catalog.empty Settings.default .asStored).run
    [
      .register ⟨⟨"shape", "id", []⟩, "east", true⟩,
      .register ⟨⟨"color", "id", []⟩, "west", false⟩,
      .compile "shape" shapesOfColor
    ]

/-- The shapes of three colors, one of which does not exist. -/
def shapesOfColorRequest : Request where
  bucket := "shape"
  query := shapesOfColor
  params :=
    [
      .object [("name", .string "green")],
      .object [("name", .string "blue")],
      .object [("name", .string "red")]
    ]
  templates := []
  sort := []
  pagination := some ⟨-1, 0⟩

theorem get?_shapesAndColorsSession (bucket : String)
    : shapesAndColorsSession.catalog.get? bucket
      = if bucket = "color" then some ⟨⟨"color", "id", []⟩, "west", false⟩
        else if bucket = "shape" then some ⟨⟨"shape", "id", []⟩, "east", true⟩
        else none :=
  (Catalog.get?_register ..).trans (congrArg _ (Catalog.get?_register ..))

/-- The two stores hold the two buckets. -/
theorem populated_shapesAndColors : shapesAndColorsSession.catalog.Populated shapesAndColors := by
  refine ⟨fun first second left right here there same => ?_, fun runner => ?_,
    fun bucket registration known => ?_⟩
  · rw [get?_shapesAndColorsSession] at here there
    grind
  · cases runner with
    | true => exact Store.Reachable.empty.extend _ _
    | false => exact Store.Reachable.empty.extend _ _
  · rw [get?_shapesAndColorsSession] at known
    split at known
    · next same =>
      obtain rfl := Option.some.inj known
      subst same
      decide +kernel
    · split at known
      · next same =>
        obtain rfl := Option.some.inj known
        subst same
        decide +kernel
      · cases known

/-- The two stores serve a tree that reads no other buckets. -/
theorem serves_of_subset {tree : RuleTree} (reads : tree.bucketsRead ⊆ ["shape", "color"])
    : shapesAndColorsSession.catalog.Serves shapesAndColors tree := by
  refine populated_shapesAndColors.serves fun bucket read => ?_
  rcases List.mem_pair.mp (reads read) with rfl | rfl
  · simp [Catalog.contains, get?_shapesAndColorsSession]
  · simp [Catalog.contains, get?_shapesAndColorsSession]

/-- The two stores serve a tree that reads both buckets. -/
theorem serves_shapesAndColors {tree : RuleTree} (reads : tree.bucketsRead = ["shape", "color"])
    : shapesAndColorsSession.catalog.Serves shapesAndColors tree :=
  serves_of_subset (reads ▸ List.Subset.refl _)

/-- The shapes are read from the store that keeps them. -/
theorem reading_shapes (row : ParamRow)
    : (shapesAndColorsSession.catalog.reading shapesAndColors row).objects "shape"
      = (shapesAndColors true).objects "shape" := by
  simp only [Catalog.reading, get?_shapesAndColorsSession, String.reduceEq, ↓reduceIte,
    Option.map_some, Option.getD_some]
  exact (populated_shapesAndColors.reachable true).objectsByIdentity_eq "shape"

/-- The shapes of other colors than the one in the parameter row, sorted in descending order. -/
def shapesOfOtherColorsSorted : Request where
  bucket := "shape"
  query :=
    ⟨[("tint", .object [("@color.id", .object [("name not ==",
      .object [(".", .string "name")])])])]⟩
  params := [.object [("name", .string "green")], .object [("name", .string "blue")]]
  templates := []
  sort := [⟨"id", .desc⟩]
  pagination := some ⟨-1, 0⟩

set_option maxRecDepth 100000 in
/-- Run as two parts on two stores, the query finds for every parameter row the shapes that meet
its tree. They are sorted by texts, which every key tells apart by an order.
-/
theorem execute_eq_found_shapesOfOtherColors
    : ∃ tree plan sets,
        RuleTree.ofQuery shapesAndColorsSession.catalog Limits.default "shape"
            shapesOfOtherColorsSorted.query
          = .ok tree
        ∧ Plan.compile shapesAndColorsSession.catalog Limits.default "shape"
            shapesOfOtherColorsSorted.query
          = .ok plan
        ∧ plan.order = [1, 0]
        ∧ (shapesAndColorsSession.engine.execute shapesAndColorsSession.catalog
            (Store.respond .insertion shapesAndColors) shapesOfOtherColorsSorted
            ⟨false, []⟩).result
          = .ok sets
        ∧ List.Forall₂
          (fun row set => ∃ sorted,
            ArrangesStably (compareRows [⟨"id", .desc⟩])
              (tree.found (shapesAndColorsSession.catalog.reading shapesAndColors row)) sorted
            ∧ set = RowSet.paginate sorted (some ⟨-1, 0⟩))
          shapesOfOtherColorsSorted.rows sets
        ∧ sets.map (fun set => column set.rows "id")
          = [[.string "a"], [.string "b", .string "a"]] := by
  have reads : (RuleTree.ofQuery shapesAndColorsSession.catalog Limits.default "shape"
      shapesOfOtherColorsSorted.query).toOption.map (fun tree =>
        (tree.bucket, tree.bucketsRead, tree.readsTemplates))
      = some ("shape", ["shape", "color"], false) := by
    decide +kernel
  have orders : (Plan.compile shapesAndColorsSession.catalog Limits.default "shape"
      shapesOfOtherColorsSorted.query).toOption.map Plan.order
      = some [1, 0] := by
    decide +kernel
  have returns : (shapesAndColorsSession.engine.execute shapesAndColorsSession.catalog
      (Store.respond .insertion shapesAndColors) shapesOfOtherColorsSorted
      ⟨false, []⟩).result.toOption.map (List.map fun set => column set.rows "id")
      = some [[.string "a"], [.string "b", .string "a"]] := by
    decide +kernel
  have texts : ∀ object ∈ (shapesAndColors true).objects "shape",
      Value.isFloat? (object.at? "id") = none := by
    decide +kernel
  obtain ⟨tree, read, seen⟩ := toOption_map_eq_some_iff.mp reads
  obtain ⟨plan, compiled, order⟩ := toOption_map_eq_some_iff.mp orders
  simp only [Prod.mk.injEq] at seen
  obtain ⟨bucket, buckets, untemplated⟩ := seen
  have reached : shapesAndColorsSession.Reached Settings.default := ⟨_, _, rfl⟩
  have valid : ∀ pagination ∈ shapesOfOtherColorsSorted.pagination,
      pagination.validate = .ok () := by
    rintro pagination ⟨⟩
    rfl
  have alike (row : ParamRow) : ∀ key ∈ shapesOfOtherColorsSorted.sort, key.NumbersAlike
      (tree.found (shapesAndColorsSession.catalog.reading shapesAndColors row)) := by
    intro key sorts
    obtain rfl := List.mem_singleton.mp sorts
    refine ⟨false, fun object found kind there => ?_⟩
    have among := List.mem_of_mem_filter found
    rw [bucket, reading_shapes] at among
    cases (texts object among).symm.trans there
  obtain ⟨sets, executed, arranged⟩ :=
    (execute_eq_found reached .insertion shapesAndColors shapesOfOtherColorsSorted ⟨false, []⟩ read
      compiled (serves_shapesAndColors buckets) untemplated (fun _ => List.cons_ne_nil _ _) valid
      rfl).2 fun row _ => orders_compareRows (alike row)
  rw [executed] at returns
  exact ⟨tree, plan, sets, read, compiled, order, executed, arranged, Option.some.inj returns⟩

/-- Three shapes with the sizes 2⁵³ + 1, 2⁵³ as a float and 2⁵³ as an integer. -/
def shapesAroundLimit : Unit → Store := fun _ =>
  (Store.empty.extend "shape"
    [
      .object [("id", .string "a"), ("size", Value.aboveLimit)],
      .object [("id", .string "b"), ("size", Value.floatLimit)],
      .object [("id", .string "c"), ("size", Value.intLimit)]
    ]).1

/-- The shapes are registered. -/
def shapesAroundLimitSession : Session Unit :=
  (start Catalog.empty Settings.default .asStored).run
    [.register ⟨⟨"shape", "id", []⟩, "east", ()⟩]

/-- All shapes by size. -/
def shapesBySize : Request where
  bucket := "shape"
  query := ⟨[]⟩
  params := []
  templates := []
  sort := [⟨"size", .asc⟩]
  pagination := none

set_option maxRecDepth 100000 in
/-- Sorted by insertion, as short lists are, the shapes stay as they are: the first and the second
are not told apart, nor are the second and the third. The first is greater than the third.
-/
theorem execute_shapesBySize
    : ∃ tree plan rows,
        shapesAroundLimitSession.Reached Settings.default
        ∧ RuleTree.ofQuery shapesAroundLimitSession.catalog Limits.default "shape"
            shapesBySize.query
          = .ok tree
        ∧ Plan.compile shapesAroundLimitSession.catalog Limits.default "shape" shapesBySize.query
          = .ok plan
        ∧ shapesAroundLimitSession.catalog.Serves shapesAroundLimit tree
        ∧ tree.readsTemplates = false
        ∧ tree.readsParams = false
        ∧ (shapesAroundLimitSession.engine.execute shapesAroundLimitSession.catalog
            (Store.respond .insertion shapesAroundLimit) shapesBySize ⟨false, []⟩).result
          = .ok [⟨rows, 3⟩]
        ∧ column rows "id" = [.string "a", .string "b", .string "c"]
        ∧ ¬rows.Pairwise fun a b => (compareRows shapesBySize.sort a b).isLE := by
  have reads : (RuleTree.ofQuery shapesAroundLimitSession.catalog Limits.default "shape"
      shapesBySize.query).toOption.map (fun tree =>
        (tree.bucketsRead, tree.readsTemplates, tree.readsParams))
      = some (["shape"], false, false) := by
    decide +kernel
  have orders : (Plan.compile shapesAroundLimitSession.catalog Limits.default "shape"
      shapesBySize.query).toOption.map Plan.order
      = some [0] := by
    decide +kernel
  have returns : (shapesAroundLimitSession.engine.execute shapesAroundLimitSession.catalog
      (Store.respond .insertion shapesAroundLimit) shapesBySize ⟨false, []⟩).result.toOption
      = some [⟨(shapesAroundLimit ()).objects "shape", 3⟩] := by
    decide +kernel
  obtain ⟨tree, read, seen⟩ := toOption_map_eq_some_iff.mp reads
  obtain ⟨plan, compiled, -⟩ := toOption_map_eq_some_iff.mp orders
  obtain ⟨sets, executed, same⟩ := toOption_map_eq_some_iff.mp
    ((Option.map_id_apply ..).trans returns)
  simp only [Prod.mk.injEq] at seen
  obtain ⟨buckets, untemplated, unread⟩ := seen
  have known (bucket : String) : shapesAroundLimitSession.catalog.get? bucket
      = if bucket = "shape" then some ⟨⟨"shape", "id", []⟩, "east", ()⟩ else none :=
    Catalog.get?_register ..
  have served : shapesAroundLimitSession.catalog.Serves shapesAroundLimit tree := by
    refine ⟨fun _ _ _ _ _ _ _ => rfl, fun _ => Store.Reachable.empty.extend _ _,
      fun bucket asked => ?_⟩
    obtain rfl : bucket = "shape" := List.mem_singleton.mp (buckets ▸ asked)
    exact ⟨_, (known "shape").trans (if_pos rfl), by decide +kernel⟩
  refine ⟨tree, plan, _, ⟨_, _, rfl⟩, read, compiled, served, untemplated, unread,
    executed.trans (congrArg Except.ok same), by decide +kernel, by decide +kernel⟩

end FederatedQuery.Session
