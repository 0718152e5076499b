import FederatedQuery.Proofs.Binding
import FederatedQuery.Proofs.Sorting
import FederatedQuery.Sorting.Insertion

/-! Evaluating a part for all parameter rows at once gives each of them what evaluating it for
that row alone gives. Each call of the bind plan serves its rows: it fails when one of them
would fail alone, and each row's share of what it finds is what the row would find alone.
-/

namespace FederatedQuery

namespace Fanout

/-- A fanout that classes rows by their values sends what is found to the rows whose value
is that of the field.
-/
theorem mem_matching_iff (field : String) (value : Nat → Value) (rows : List Nat) (row : Row)
    (place : Nat)
    : place ∈ matching ⟨field, classes value rows⟩ row
      ↔ place ∈ rows ∧ Value.equal false (row.read field) (value place) = true := by
  simp only [matching, List.mem_flatMap, List.mem_filter]
  constructor
  · rintro ⟨⟨target, members⟩, ⟨known, equal⟩, inside⟩
    obtain ⟨_, rfl⟩ := (mem_classes_iff ..).mp known
    obtain ⟨among, same⟩ := List.mem_filter.mp inside
    exact ⟨among, by rwa [of_decide_eq_true same]⟩
  · rintro ⟨among, equal⟩
    refine ⟨(value place, rows.filter fun other => value other = value place), ⟨?_, equal⟩, ?_⟩
    · exact (mem_classes_iff ..).mpr ⟨⟨place, among, rfl⟩, rfl⟩
    · exact List.mem_filter.mpr ⟨among, by simp⟩

end Fanout

/-- The call gives each of its rows what a scan of the tree bound to that row alone gives,
and nothing to other rows.
-/
structure BoundCall.Serves (store : Store) (bound : Nat → RuleTree) (call : BoundCall)
    : Prop where
  fails : Fails (store.scan call.tree) ↔ ∃ place ∈ call.rows, Fails (store.scan (bound place))
  share
    : ∀ found,
        store.scan call.tree = .ok found
        → ∀ place ∈ call.rows, store.scan (bound place) = .ok (call.share found place)
  others : ∀ found, ∀ place ∉ call.rows, call.share found place = []

namespace RuleTree

variable {tree : RuleTree} {params : List ParamRow} {bound : Nat → RuleTree}

/-- A coalesced call serves the rows of its group: it scans for all their values at once, and
a row's share is what is found with its value.
-/
theorem coalescedCall_serves (store : Store) {template : Option Template} {rows : List Nat}
    {field : String} {reference : Operand} (lone : tree.loneEquality? = some (field, reference))
    (some : rows ≠ [])
    (same : ∀ place ∈ rows, tree.bind (params.getD place .null) template = bound place)
    : (tree.coalescedCall params template rows field reference).Serves store bound := by
  obtain ⟨context, rfl, plain, reads, filled⟩ := exists_context_of_loneEquality? lone
  let value := fun place => (reference.boundValue? (params.getD place .null) template).getD .null
  let values := (classes value rows).map Prod.fst
  have mem_values (found : Value) : found ∈ values ↔ ∃ place ∈ rows, value place = found := by
    constructor
    · intro inside
      obtain ⟨⟨key, members⟩, known, rfl⟩ := List.mem_map.mp inside
      exact ((mem_classes_iff ..).mp known).1
    · rintro ⟨place, among, rfl⟩
      exact List.mem_map.mpr ⟨_, (mem_classes_iff ..).mpr ⟨⟨place, among, rfl⟩, rfl⟩, rfl⟩
  have treeEq : (tree.coalescedCall params template rows context.test.field reference).tree
      = context.fill (.values values) := by
    rw [coalescedCall, filled _ fun operand unread => by simp [unread]]
    simp [reads, values, value]
  have boundEq : ∀ place ∈ rows, bound place = context.fill (.literal (value place)) := by
    intro place among
    rw [← same place among, bind,
      filled _ fun operand unread => Operand.bind_of_not_readsParams unread _ _,
      Operand.bind_of_readsParams reads]
  obtain ⟨first, among⟩ := List.exists_mem_of_ne_nil rows some
  have valuesSome : values ≠ [] :=
    List.ne_nil_of_mem ((mem_values (value first)).mpr ⟨first, among, rfl⟩)
  refine ⟨?_, ?_, ?_⟩
  · rw [treeEq, RuleContext.fails_scan_values_iff store plain valuesSome]
    constructor
    · rintro ⟨found, inside, failed⟩
      obtain ⟨place, among, rfl⟩ := (mem_values found).mp inside
      exact ⟨place, among, (boundEq place among) ▸ failed⟩
    · rintro ⟨place, among, failed⟩
      exact ⟨value place, (mem_values _).mpr ⟨place, among, rfl⟩, (boundEq place among) ▸ failed⟩
  · intro found scanned place among
    rw [treeEq] at scanned
    rw [boundEq place among, RuleContext.scan_literal plain
      ((mem_values _).mpr ⟨place, among, rfl⟩) scanned]
    congr 1
    refine List.filter_congr fun row _ => ?_
    rw [Bool.eq_iff_iff, List.contains_iff_mem]
    exact (((Fanout.mem_matching_iff ..).trans (and_iff_right among))).symm
  · intro found place outside
    refine List.filter_eq_nil_iff.mpr fun row _ inside => outside ?_
    exact ((Fanout.mem_matching_iff ..).mp (List.contains_iff_mem.mp inside)).1

/-- Separate calls serve the rows of their group: the rows of one call bind the same values
and so the same tree.
-/
theorem separateCalls_serves (store : Store) {template : Option Template} {rows : List Nat}
    (same : ∀ place ∈ rows, tree.bind (params.getD place .null) template = bound place)
    : ∀ call ∈ tree.separateCalls params template rows, call.Serves store bound := by
  intro call inside
  obtain ⟨founder, among, rfl⟩ := exists_of_mem_separateCalls inside
  have boundEq (place : Nat)
      (inside : place ∈ rows.filter fun place =>
        tree.boundValues (params.getD place .null) template
        = tree.boundValues (params.getD founder .null) template)
      : tree.bind (params.getD founder .null) template = bound place := by
    obtain ⟨here, alike⟩ := List.mem_filter.mp inside
    rw [← same place here]
    exact bind_eq_of_boundValues_eq (of_decide_eq_true alike).symm
  refine ⟨⟨?_, ?_⟩, ?_, ?_⟩
  · intro failed
    exact ⟨founder, List.mem_filter.mpr ⟨among, by simp⟩, same founder among ▸ failed⟩
  · rintro ⟨place, inside, failed⟩
    rw [← boundEq place inside] at failed
    exact failed
  · intro found scanned place inside
    rw [← boundEq place inside]
    exact scanned.trans (congrArg Except.ok (if_pos (List.contains_iff_mem.mpr inside)).symm)
  · intro found place outside
    exact if_neg fun inside => outside (List.contains_iff_mem.mp inside)

/-- Every call of a bind plan serves its rows. -/
theorem bindPlan_serves (store : Store) (tree : RuleTree) {params : List ParamRow}
    (templates : List Template) (coalesce : Bool) (given : params ≠ [])
    : ∀ call ∈ (tree.bindPlan params templates coalesce).calls,
        call.Serves store (tree.boundAt params templates) := by
  intro call inside
  obtain ⟨group, member, separate | ⟨_, field, reference, lone, rfl⟩⟩ := bindPlan_cases inside
  · exact separateCalls_serves store (fun place => bind_of_mem_templateGroups member) call separate
  · exact coalescedCall_serves store lone (rows_ne_nil_of_mem_templateGroups given member)
      fun place => bind_of_mem_templateGroups member

end RuleTree

namespace Store

/-- Scanning for calls that serve their rows fails when the scan for one of the rows does, by
induction on the calls.
-/
theorem fails_scanCalls_iff (store : Store) {bound : Nat → RuleTree} (calls : List BoundCall)
    (serving : ∀ call ∈ calls, call.Serves store bound)
    : Fails (calls.mapM fun call => store.scan call.tree)
      ↔ ∃ place ∈ calls.flatMap BoundCall.rows, Fails (store.scan (bound place)) := by
  induction calls with
  | nil => simp [pure, Except.pure]
  | cons call rest ih =>
      have serves := serving call (by simp)
      have restFails := ih fun other inside => serving other (by simp [inside])
      rw [List.mapM_cons, Fails.bind_iff, serves.fails]
      simp only [Fails.bind_iff, restFails, List.flatMap_cons, List.mem_append]
      constructor
      · intro either
        rcases either with
          ⟨place, inside, failed⟩ | ⟨rows, _, ⟨place, inside, failed⟩ | ⟨_, _, none⟩⟩
        · exact ⟨place, Or.inl inside, failed⟩
        · exact ⟨place, Or.inr inside, failed⟩
        · exact absurd none (Fails.not_ok _)
      · rintro ⟨place, inside | inside, failed⟩
        · exact Or.inl ⟨place, inside, failed⟩
        · by_cases first : Fails (store.scan call.tree)
          · exact Or.inl (serves.fails.mp first)
          · obtain ⟨rows, scanned⟩ := (Fails.not_iff _).mp first
            exact Or.inr ⟨rows, scanned, Or.inl ⟨place, inside, failed⟩⟩

/-- When calls serve different rows, all of a row's shares together are what its own scan finds,
and a row that no call serves has no share, by induction on the calls.
-/
theorem scanCalls_shares (store : Store) {bound : Nat → RuleTree} (calls : List BoundCall)
    (serving : ∀ call ∈ calls, call.Serves store bound)
    (unique : (calls.flatMap BoundCall.rows).Nodup) {found : List (List Row)}
    (scanned : calls.mapM (fun call => store.scan call.tree) = .ok found) (place : Nat)
    : (place ∈ calls.flatMap BoundCall.rows
        → store.scan (bound place)
          = .ok ((calls.zip found).flatMap fun (call, rows) => call.share rows place))
      ∧ (place ∉ calls.flatMap BoundCall.rows
        → ((calls.zip found).flatMap fun (call, rows) => call.share rows place) = []) := by
  induction calls generalizing found with
  | nil => simp
  | cons call rest ih =>
      have serves := serving call (by simp)
      simp only [List.flatMap_cons, List.nodup_append] at unique
      obtain ⟨_, restUnique, disjoint⟩ := unique
      rw [List.mapM_cons] at scanned
      cases first : store.scan call.tree with
      | error error => simp [first, bind, Except.bind] at scanned
      | ok rows =>
          cases others : rest.mapM fun call => store.scan call.tree with
          | error error => simp [first, others, bind, Except.bind] at scanned
          | ok more =>
              have shape : rows :: more = found := by
                simpa [first, others, bind, Except.bind, pure, Except.pure] using scanned
              subst shape
              obtain ⟨inRest, notInRest⟩ :=
                ih (fun other inside => serving other (by simp [inside])) restUnique others
              simp only [List.zip_cons_cons, List.flatMap_cons, List.mem_append]
              constructor
              · intro either
                rcases either with inside | inside
                · have outside : place ∉ rest.flatMap BoundCall.rows := fun other =>
                    disjoint place inside place other rfl
                  rw [notInRest outside, List.append_nil]
                  exact serves.share rows first place inside
                · have outside : place ∉ call.rows := fun other =>
                    disjoint place other place inside rfl
                  rw [serves.others rows place outside, List.nil_append]
                  exact inRest inside
              · intro outside
                simp only [not_or] at outside
                rw [serves.others rows place outside.1, notInRest outside.2, List.append_nil]

/-- What a part finds for one parameter row, if it is evaluated for that row alone: nothing
if no template reaches the row's references, and otherwise what the tree bound to the row finds,
sorted and paginated.
-/
def evaluateRow (store : Store) (sorter : StableSort Row) (request : RunRequest) (row : ParamRow)
    : Except StoreError (Option RowSet) :=
  let tree := request.part.tree
  if tree.excludes request.templates row then .ok (some RowSet.empty)
  else do
    let rows ← store.scan (tree.bind row (tree.templateFor? request.templates row))
    return finishRows sorter request.sort request.pagination rows

theorem fails_evaluateRow_iff (store : Store) (sorter : StableSort Row) (request : RunRequest)
    (row : ParamRow)
    : Fails (store.evaluateRow sorter request row)
      ↔ request.part.tree.excludes request.templates row = false
        ∧ Fails (store.scan
            (request.part.tree.bind row
              (request.part.tree.templateFor? request.templates row))) := by
  simp only [evaluateRow]
  split
  · next excluded => simp [excluded]
  · next included => simp [Fails.bind_iff, included, pure, Except.pure]

/-- A batched evaluation scans for all calls of the bind plan and shares what they find. -/
theorem evaluate_eq (store : Store) (sorter : StableSort Row) (request : RunRequest)
    (given : request.params ≠ [])
    : let calls :=
        (request.part.tree.bindPlan request.params request.templates request.coalesce).calls
      store.evaluate sorter request
        = (calls.mapM fun call => store.scan call.tree).map fun found =>
            (List.range request.params.length).mapM fun place =>
              finishRows sorter request.sort request.pagination
                ((calls.zip found).flatMap fun (call, rows) => call.share rows place) := by
  have some : request.params.isEmpty = false := by simpa using given
  simp only [evaluate, some, Bool.false_eq_true, ↓reduceIte]
  generalize (request.part.tree.bindPlan ..).calls = calls
  cases calls.mapM fun call => store.scan call.tree <;> rfl

/-- All row sets that a store returns are sorted and paginated as the request wants it. -/
theorem exists_finishRows_of_evaluate {store : Store} {sorter : StableSort Row}
    {request : RunRequest} {sets : List RowSet}
    (evaluated : store.evaluate sorter request = .ok (some sets))
    : ∀ set ∈ sets,
        ∃ rows, finishRows sorter request.sort request.pagination rows = some set := by
  intro set inside
  by_cases none : request.params = []
  · simp only [evaluate, none, List.isEmpty_nil, ↓reduceIte] at evaluated
    obtain ⟨rows, -, same⟩ := bind_eq_ok_iff.mp evaluated
    obtain ⟨only, finished, rfl⟩ := Option.map_eq_some_iff.mp (Except.ok.inj same)
    exact ⟨rows, List.mem_singleton.mp inside ▸ finished⟩
  · rw [evaluate_eq store sorter request none] at evaluated
    obtain ⟨found, -, same⟩ := map_eq_ok_iff.mp evaluated
    obtain ⟨place, -, finished⟩ := exists_of_forall₂ (mapM_eq_some_iff.mp same) set inside
    exact ⟨_, finished⟩

/-- A batched evaluation fails exactly when the evaluation for one of the rows does. -/
theorem fails_evaluate_iff (store : Store) (sorter : StableSort Row) (request : RunRequest)
    (given : request.params ≠ [])
    : Fails (store.evaluate sorter request)
      ↔ ∃ row ∈ request.params, Fails (store.evaluateRow sorter request row) := by
  have serving := RuleTree.bindPlan_serves store request.part.tree request.templates
    request.coalesce given
  have failsMap (scanned : Except StoreError (List (List Row)))
      (f : List (List Row) → Option (List RowSet))
      : Fails (scanned.map f) ↔ Fails scanned := by
    cases scanned <;> simp [Except.map]
  rw [evaluate_eq store sorter request given, failsMap, fails_scanCalls_iff store _ serving]
  constructor
  · rintro ⟨place, inside, failed⟩
    obtain ⟨below, included⟩ := (RuleTree.mem_rows_bindPlan_iff ..).mp inside
    refine ⟨request.params.getD place .null, ?_, ?_⟩
    · simp [below]
    · exact (fails_evaluateRow_iff ..).mpr ⟨included, failed⟩
  · rintro ⟨row, inside, failed⟩
    obtain ⟨place, below, rfl⟩ := List.mem_iff_getElem.mp inside
    obtain ⟨included, failed⟩ := (fails_evaluateRow_iff ..).mp failed
    have here : request.params.getD place .null = request.params[place] := by simp [below]
    refine ⟨place, (RuleTree.mem_rows_bindPlan_iff ..).mpr ⟨below, here ▸ included⟩, ?_⟩
    simpa only [RuleTree.boundAt, here] using failed

/-- The row sets of a batched evaluation are those of the evaluations for the single rows, row by
row and in order, and there are none if one of these comes to nothing.
-/
theorem exists_finished_of_evaluate (store : Store) (sorter : StableSort Row)
    (request : RunRequest) (given : request.params ≠ []) {answer : Option (List RowSet)}
    (evaluated : store.evaluate sorter request = .ok answer)
    : ∃ finished : List (Option RowSet),
        answer = finished.mapM id
        ∧ request.params.map (store.evaluateRow sorter request) = finished.map .ok := by
  let tree := request.part.tree
  let calls := (tree.bindPlan request.params request.templates request.coalesce).calls
  rw [evaluate_eq store sorter request given] at evaluated
  obtain ⟨found, scanned, rfl⟩ := map_eq_ok_iff.mp evaluated
  refine ⟨(List.range request.params.length).map fun place =>
    finishRows sorter request.sort request.pagination
      ((calls.zip found).flatMap fun (call, rows) => call.share rows place), ?_, ?_⟩
  · rw [List.mapM_map]
    rfl
  · refine List.ext_getElem (by simp) fun place left right => ?_
    have below : place < request.params.length := by simpa using left
    have here : request.params.getD place .null = request.params[place] := by simp [below]
    obtain ⟨served, unserved⟩ := scanCalls_shares store calls
      (RuleTree.bindPlan_serves store tree request.templates request.coalesce given)
      (RuleTree.nodup_rows_bindPlan ..) scanned place
    simp only [List.getElem_map, List.getElem_range]
    cases excluded : tree.excludes request.templates request.params[place] with
    | true =>
        have outside : place ∉ calls.flatMap BoundCall.rows := fun inside => by
          have included := ((RuleTree.mem_rows_bindPlan_iff ..).mp inside).2
          rw [here, excluded] at included
          cases included
        simp [evaluateRow, tree, excluded, unserved outside, finishRows_nil]
    | false =>
        have inside : place ∈ calls.flatMap BoundCall.rows :=
          (RuleTree.mem_rows_bindPlan_iff ..).mpr ⟨below, here ▸ excluded⟩
        have alone := served inside
        simp only [RuleTree.boundAt, here] at alone
        simp [evaluateRow, tree, excluded, alone, bind, Except.bind, pure, Except.pure]

/-- Batching is transparent. An evaluation for several parameter rows fails exactly when, for
one that is not excluded, the scan of the tree bound to that row alone fails. Otherwise every
row has one row set, in its own place: an empty one if the row is excluded, and what its own
scan finds, sorted and paginated, if it is not. The sort may give up for the rows that a scan
finds, and if it does so for one of the parameter rows, no row sets are returned at all.
-/
theorem evaluate_batched (store : Store) (sorter : StableSort Row) (request : RunRequest)
    (given : request.params ≠ [])
    : let tree := request.part.tree
      let scanFor := fun row =>
        store.scan (tree.bind row (tree.templateFor? request.templates row))
      (Fails (store.evaluate sorter request)
        ↔ ∃ row ∈ request.params,
            tree.excludes request.templates row = false ∧ Fails (scanFor row))
      ∧ ∀ answer,
          store.evaluate sorter request = .ok answer
          → ∃ finished : List (Option RowSet),
              (∀ sets, answer = some sets ↔ finished = sets.map some)
              ∧ finished.length = request.params.length
              ∧ ∀ (place : Nat) (row : ParamRow),
                  request.params[place]? = some row
                  → (tree.excludes request.templates row = true
                      → finished[place]? = some (some RowSet.empty))
                    ∧ (tree.excludes request.templates row = false
                      → ∃ rows,
                          scanFor row = .ok rows
                          ∧ finished[place]?
                            = some (finishRows sorter request.sort request.pagination rows)) := by
  refine ⟨?_, fun answer evaluated => ?_⟩
  · simpa only [fails_evaluateRow_iff] using fails_evaluate_iff store sorter request given
  · obtain ⟨finished, rfl, same⟩ := exists_finished_of_evaluate store sorter request given evaluated
    refine ⟨finished, fun sets => mapM_id_eq_some_iff, ?_, fun place row here => ?_⟩
    · simpa using (congrArg List.length same).symm
    have alone : some (store.evaluateRow sorter request row)
        = (finished[place]? : Option (Option RowSet)).map .ok := by
      simpa [here] using
        congrArg (fun results : List (Except StoreError (Option RowSet)) => results[place]?) same
    obtain ⟨set, found, found'⟩ := Option.map_eq_some_iff.mp alone.symm
    rw [found]
    refine ⟨fun excluded => ?_, fun included => ?_⟩
    · simpa [evaluateRow, excluded] using found'
    · simp only [evaluateRow, included, Bool.false_eq_true, ↓reduceIte] at found'
      obtain ⟨rows, scanned, same⟩ := bind_eq_ok_iff.mp found'.symm
      exact ⟨rows, scanned, congrArg some (Except.ok.inj same).symm⟩

/-- Three objects with an integer, the float of the same value, and nothing in their field. -/
def ofMixedNumbers : Store :=
  let one : Value := .number (.int 1 (by decide))
  let float : Value :=
    .number (.float ⟨false, Binary64.leastNormal, 1022, by decide, by decide, by decide⟩)
  ⟨[("shape", ⟨"id",
    [("a", .object [("id", .string "a"), ("size", one)]),
      ("b", .object [("id", .string "b"), ("size", float)]),
      ("c", .object [("id", .string "c")])]⟩)]⟩

/-- A lone equality on that field, for the integer, the float, another integer and a row
without a value.
-/
def mixedNumbersRequest : RunRequest where
  part := ⟨0, .anyOf "shape" none [[.rule ⟨"size", .eq, false, false⟩ (.param "size")]], []⟩
  params :=
    [
      .object [("size", .number (.int 1 (by decide)))],
      .object [("size",
        .number (.float ⟨false, Binary64.leastNormal, 1022, by decide, by decide, by decide⟩))],
      .object [("size", .number (.int 2 (by decide)))],
      .null
    ]
  templates := []
  sort := []
  pagination := none
  coalesce := true

set_option maxRecDepth 100000 in
/-- One coalesced call answers numbers that are equal in different representations and a
missing value, each with its own rows.
-/
theorem evaluate_batched_mixedNumbers
    : mixedNumbersRequest.params ≠ []
      ∧ ∃ sets,
          ofMixedNumbers.evaluate .insertion mixedNumbersRequest = .ok (some sets)
          ∧ sets.map RowSet.total = [2, 2, 0, 1]
          ∧ sets.length = mixedNumbersRequest.params.length := by
  have given : mixedNumbersRequest.params ≠ [] := by simp [mixedNumbersRequest]
  have totals : (ofMixedNumbers.evaluate .insertion mixedNumbersRequest).toOption.map
      (Option.map (List.map RowSet.total)) = some (some [2, 2, 0, 1]) := by
    decide +kernel
  obtain ⟨answer, evaluated, seen⟩ := toOption_map_eq_some_iff.mp totals
  obtain ⟨sets, rfl, counted⟩ := Option.map_eq_some_iff.mp seen
  obtain ⟨finished, returned, length, -⟩ :=
    (evaluate_batched ofMixedNumbers .insertion _ given).2 _ evaluated
  rw [(returned sets).mp rfl, List.length_map] at length
  exact ⟨given, sets, evaluated, counted, length⟩

end Store

end FederatedQuery
