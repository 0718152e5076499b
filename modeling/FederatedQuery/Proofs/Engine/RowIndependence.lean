import FederatedQuery.Proofs.Engine.Federation
import FederatedQuery.Proofs.Execution.RowWise

/-! Parameter rows do not influence each other. Over runners that answer a row as if it were alone,
an engine does so, too.
-/

namespace FederatedQuery

variable {ρ : Type}

/-- Runners that always return what a function makes of their request. -/
def Respond.ofAnswer (answer : ρ → RunRequest → List RowSet) : Respond ρ := fun _ call =>
  ⟨.sets (answer call.runner call.request), false⟩

/-- A runner that returns as many row sets as it has to, and for each parameter row what it returns
for that row alone.
-/
structure AnswersRowByRow (answer : RunRequest → List RowSet) : Prop where
  counted : ∀ request, (answer request).length = request.expectedSets
  alone
    : ∀ request (place : Nat) row,
        request.params[place]? = some row
        → (answer request)[place]? = (answer { request with params := [row] }).head?

/-- What the runner of a part's bucket returns for the part and a parameter row, or without any. -/
def Catalog.setOf (catalog : Catalog ρ) (answer : ρ → RunRequest → List RowSet) (coalesce : Bool)
    (request : Request) (part : Part) (row : Option ParamRow) : RowSet :=
  match catalog.get? part.bucket with
  | none => RowSet.empty
  | some registration =>
      (answer registration.runner
        (Execution.callOf coalesce request part registration row.toList).request).headD
          RowSet.empty

section

variable {answer : ρ → RunRequest → List RowSet} {coalesce : Bool} {request : Request}
  {catalog : Catalog ρ} {registration : Registration ρ} {part : Part}
  (registered : catalog.get? part.bucket = some registration)
  (rowByRow : AnswersRowByRow (answer registration.runner))

include registered rowByRow

/-- Called for a single parameter row or for none, such a runner returns a single set. -/
theorem Catalog.answer_eq_setOf (row : Option ParamRow)
    : answer registration.runner
        (Execution.callOf coalesce request part registration row.toList).request
      = [catalog.setOf answer coalesce request part row] := by
  have counted := rowByRow.counted
    (Execution.callOf coalesce request part registration row.toList).request
  have one : (answer registration.runner
      (Execution.callOf coalesce request part registration row.toList).request).length = 1 := by
    rw [counted]
    cases row <;> rfl
  obtain ⟨set, only⟩ := List.length_eq_one_iff.mp one
  simp [setOf, registered, only]

/-- Such a runner returns for each parameter row what it returns for that row alone. -/
theorem Execution.rowWise_ofAnswer
    : RowWise (.ofAnswer answer) coalesce request registration part
        (catalog.setOf answer coalesce request part) fun _ => True where
  once _ :=
    invoke_completes
      (fun _ => congrArg (fun sets => Answer.mk (.sets sets) false)
        (catalog.answer_eq_setOf registered rowByRow none))
      rfl
  each rows given _ := by
    have some : 0 < rows.length := List.length_pos_iff.mpr given
    have sets : answer registration.runner (callOf coalesce request part registration rows).request
        = rows.map fun row => catalog.setOf answer coalesce request part (.some row) := by
      refine List.ext_getElem? fun place => ?_
      rw [List.getElem?_map]
      cases here : rows[place]? with
      | none =>
          have outside : rows.length ≤ place := List.getElem?_eq_none_iff.mp here
          have counted := rowByRow.counted (callOf coalesce request part registration rows).request
          have most : max 1 rows.length ≤ place := Nat.max_le.mpr ⟨by omega, outside⟩
          exact List.getElem?_eq_none (by rw [counted]; exact most)
      | some row =>
          have alone : (answer registration.runner
                (callOf coalesce request part registration rows).request)[place]?
              = (answer registration.runner
                (callOf coalesce request part registration (Option.some row).toList).request).head?
              := rowByRow.alone (callOf coalesce request part registration rows).request place row
                here
          rw [catalog.answer_eq_setOf registered rowByRow] at alone
          exact alone
    refine invoke_completes
      (fun _ => congrArg (fun sets => Answer.mk (.sets sets) false) sets) ?_
    simp only [List.length_map]
    omega

end

namespace Session

variable {settings : Settings} {session : Session ρ}

/-- What an engine over such runners returns is what the plan comes to for each parameter row. -/
theorem Reached.execute_eq_answers (reached : session.Reached settings)
    (answer : ρ → RunRequest → List RowSet)
    (rowByRow
      : ∀ bucket registration,
          session.catalog.get? bucket = some registration
          → AnswersRowByRow (answer registration.runner))
    (request : Request) (progress : Progress ρ) {plan : Plan}
    (compiled
      : Plan.compile session.catalog settings.limits request.bucket request.query = .ok plan)
    (given : request.params ≠ [])
    (valid : ∀ pagination ∈ request.pagination, pagination.validate = .ok ())
    (active : progress.cancelled = false)
    : (session.engine.execute session.catalog (.ofAnswer answer) request progress).result
      = .ok
          (request.slots.map fun row =>
            plan.answer (session.catalog.setOf answer settings.coalesceParams request) row 0) := by
  obtain ⟨tree, -, -, wellFormed⟩ :=
    (Plan.yields_compile reached.reachable _ _ _).of_eq_ok compiled
  have ran : Execution.Completes
      (Execution.runPlan session.catalog (.ofAnswer answer) settings.coalesceParams plan request)
      (request.slots.map fun row =>
        plan.answer (session.catalog.setOf answer settings.coalesceParams request) row 0) := by
    have admitted : plan.Admits (session.catalog.setOf answer settings.coalesceParams request)
        (fun _ _ => True) request :=
      fun _ _ _ _ _ => trivial
    refine Execution.runPlan_completes wellFormed (fun part _ registration registered values => ?_)
      admitted fun _ => given
    exact Execution.rowWise_ofAnswer (by simpa using registered) (rowByRow _ _ registered)
  obtain ⟨after, ends, -⟩ := ran progress active
  rw [reached.execute_eq _ _ compiled valid, ends]

/-- Parameter rows do not influence each other. Over runners that answer every row as if it were
alone, a request of valid pagination that compiles and has parameter rows succeeds with one set for
each of them, which is the only set when the request is made for that row alone. Which rows share
the values that other parts have found for them makes no difference.
-/
theorem execute_row_by_row (reached : session.Reached settings)
    (answer : ρ → RunRequest → List RowSet)
    (rowByRow
      : ∀ bucket registration,
          session.catalog.get? bucket = some registration
          → AnswersRowByRow (answer registration.runner))
    (request : Request) (progress : Progress ρ) {plan : Plan}
    (compiled
      : Plan.compile session.catalog settings.limits request.bucket request.query = .ok plan)
    (given : request.params ≠ [])
    (valid : ∀ pagination ∈ request.pagination, pagination.validate = .ok ())
    (active : progress.cancelled = false)
    : ∃ sets,
        (session.engine.execute session.catalog (.ofAnswer answer) request progress).result
          = .ok sets
        ∧ sets.length = request.params.length
        ∧ ∀ (place : Nat) row,
            request.params[place]? = some row
            → ∃ set,
                sets[place]? = some set
                ∧ ∀ other : Progress ρ,
                    other.cancelled = false
                    → (session.engine.execute session.catalog (.ofAnswer answer)
                        { request with params := [row] } other).result
                      = .ok [set] := by
  have together :=
    reached.execute_eq_answers answer rowByRow request progress compiled given valid active
  refine ⟨_, together, by rw [List.length_map, request.length_slots given],
    fun place row here => ?_⟩
  refine ⟨_, by rw [List.getElem?_map, request.getElem?_slots here]; rfl, fun other awake => ?_⟩
  exact reached.execute_eq_answers answer rowByRow { request with params := [row] } other compiled
    (List.cons_ne_nil _ _) valid awake

/-- A runner that returns the parameter row and the values that other parts have found. -/
def echo (request : RunRequest) : List RowSet :=
  let found := request.part.tree.operands.flatMap fun operand =>
    match operand with
    | .values values => values
    | _ => []
  match request.params with
  | [] => [RowSet.ofRows found]
  | rows => rows.map fun row => RowSet.ofRows (row :: found)

theorem answersRowByRow_echo : AnswersRowByRow echo where
  counted request := by
    cases params : request.params with
    | nil => simp [echo, params, RunRequest.expectedSets]
    | cons => simp [echo, params, RunRequest.expectedSets]
  alone request place row here := by
    cases params : request.params with
    | nil => simp [params] at here
    | cons first rest =>
        rw [params] at here
        simp [echo, params, -List.map_cons, here]

/-- Colors by which two of three rows are to be told from the other. -/
def repeatedColors : Request where
  bucket := "shape"
  query := shapesOfColor
  params :=
    [
      .object [("id", .string "r")],
      .object [("id", .string "g")],
      .object [("id", .string "r")]
    ]
  templates := []
  sort := []
  pagination := some ⟨-1, 0⟩

theorem exists_plan_shapesOfColor
    : ∃ plan,
        Plan.compile shapesAndColorsSession.catalog Limits.default "shape" shapesOfColor
        = .ok plan := by
  have orders : (Plan.compile shapesAndColorsSession.catalog Limits.default "shape"
      shapesOfColor).toOption.map Plan.order = some [1, 0] := by
    decide +kernel
  obtain ⟨plan, compiled, -⟩ := toOption_map_eq_some_iff.mp orders
  exact ⟨plan, compiled⟩

set_option maxRecDepth 100000 in
/-- The first and the last row share a call of the root part, every row gets its own color, and
the second row gets it on its own, too.
-/
theorem execute_row_by_row_repeatedColors
    : ∃ sets set,
        (shapesAndColorsSession.engine.execute shapesAndColorsSession.catalog
          (.ofAnswer fun _ => echo) repeatedColors ⟨false, []⟩).result = .ok sets
        ∧ sets.map RowSet.rows = [[.string "r"], [.string "g"], [.string "r"]]
        ∧ sets[1]? = some set
        ∧ (shapesAndColorsSession.engine.execute shapesAndColorsSession.catalog
            (.ofAnswer fun _ => echo)
            { repeatedColors with params := [.object [("id", .string "g")]] }
            ⟨false, []⟩).result = .ok [set] := by
  have returns : (shapesAndColorsSession.engine.execute shapesAndColorsSession.catalog
      (.ofAnswer fun _ => echo) repeatedColors ⟨false, []⟩).result.toOption.map
        (List.map RowSet.rows)
      = some [[.string "r"], [.string "g"], [.string "r"]] := by
    decide +kernel
  have reached : shapesAndColorsSession.Reached Settings.default := ⟨_, _, rfl⟩
  have valid : ∀ pagination ∈ repeatedColors.pagination, pagination.validate = .ok () := by
    rintro pagination ⟨⟩
    rfl
  obtain ⟨plan, compiled⟩ := exists_plan_shapesOfColor
  obtain ⟨sets, executed, -, alone⟩ :=
    execute_row_by_row reached (fun _ => echo) (fun _ _ _ => answersRowByRow_echo)
      repeatedColors ⟨false, []⟩ compiled (List.cons_ne_nil _ _) valid rfl
  obtain ⟨set, here, single⟩ := alone 1 (.object [("id", .string "g")]) rfl
  rw [executed] at returns
  exact ⟨sets, set, executed, Option.some.inj returns, here, single ⟨false, []⟩ rfl⟩

/-- A request for pages of a negative size is refused, though its query compiles and its parameter
rows could be answered.
-/
theorem execute_negativePage
    : (∃ plan,
        Plan.compile shapesAndColorsSession.catalog Limits.default "shape" shapesOfColor
        = .ok plan)
      ∧ AnswersRowByRow echo
      ∧ repeatedColors.params ≠ []
      ∧ ¬∃ sets,
          (shapesAndColorsSession.engine.execute shapesAndColorsSession.catalog
            (.ofAnswer fun _ => echo) { repeatedColors with pagination := some ⟨-2, 0⟩ }
            ⟨false, []⟩).result = .ok sets := by
  refine ⟨exists_plan_shapesOfColor, answersRowByRow_echo, List.cons_ne_nil _ _, ?_⟩
  rintro ⟨sets, executed⟩
  cases executed

end Session

end FederatedQuery
