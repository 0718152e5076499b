import FederatedQuery.Proofs.Engine.Contract
import FederatedQuery.Proofs.RowSet

/-! Pages of requests to stores. Every parameter row has its own page of what is found for it, and
the page of the request puts these together.
-/

namespace FederatedQuery.Session

variable {ρ : Type} {settings : Settings} {session : Session ρ}

/-- A request that succeeds gets a row set for each parameter row, or a single one without any. What
holds of no rows and of every row set that a runner returns when it is asked to paginate as the
request wants it holds of these row sets.
-/
theorem Reached.execute_sets (reached : session.Reached settings) {respond : Respond ρ}
    {request : Request} {progress : Progress ρ} {P : RowSet → Prop} (empty : P RowSet.empty)
    (answers
      : ∀ calls call sets cancels,
          respond calls call = ⟨.sets sets, cancels⟩
          → call.request.pagination = request.pagination
          → ∀ set ∈ sets, P set)
    {sets : List RowSet}
    (executed
      : (session.engine.execute session.catalog respond request progress).result = .ok sets)
    : sets.length = max 1 request.params.length ∧ ∀ set ∈ sets, P set := by
  obtain ⟨history, records, keeps, ended⟩ := reached.execute_history respond request progress
  rcases ended with ⟨-, error, failed⟩ | ⟨plan, -, concludes⟩
  · cases failed.symm.trans executed
  · rw [executed] at concludes
    cases concludes with
    | @finished services ran =>
        refine ⟨by simp, fun set inside => ?_⟩
        obtain ⟨place, -, rfl⟩ := List.mem_map.mp inside
        refine setFor_of_forall empty (fun service among root => ?_) place
        obtain ⟨_, _, -, contract⟩ := keeps.of_mem among
        obtain ⟨earlier, later, split⟩ := List.append_of_mem among
        obtain ⟨cancels, answer, -⟩ := records.answered earlier service later split
        have shaped := contract.shaped
        rw [show service.call.request.part.id = 0 from root, if_pos rfl] at shaped
        exact answers _ _ _ _ answer (Prod.mk.inj shaped).2

/-- Every row set of a request to stores is a page of what was found. -/
theorem Reached.paged_of_execute (reached : session.Reached settings) {sorter : StableSort Row}
    {stores : ρ → Store} {request : Request} {progress : Progress ρ} {sets : List RowSet}
    (executed
      : (session.engine.execute session.catalog (Store.respond sorter stores) request
          progress).result
        = .ok sets)
    : sets.length = max 1 request.params.length
      ∧ ∀ set ∈ sets, set.Paged (request.pagination.getD Pagination.all).offset := by
  refine reached.execute_sets (RowSet.paged_empty _) (fun calls call sets cancels answer same => ?_)
    executed
  intro set inside
  obtain ⟨rows, finished⟩ :=
    Store.exists_finishRows_of_evaluate (Store.evaluate_of_respond answer) set inside
  obtain ⟨sorted, -, rfl⟩ := Option.map_eq_some_iff.mp finished
  rw [← same]
  exact RowSet.paged_paginate _ _

/-- A page of a request to stores has more if something comes after the rows that it shows for one
of the parameter rows, and there is no other reason if there are not two parameter rows or nothing
is skipped. In a batch, it also has more if all that is skipped for the parameter rows together is
more than the offset.
-/
theorem page_hasMore_iff (reached : session.Reached settings) (sorter : StableSort Row)
    (stores : ρ → Store) (request : Request) (progress : Progress ρ) {page : Page}
    (succeeds
      : (session.engine.page session.catalog (Store.respond sorter stores) request progress).result
        = .ok page)
    : let offset := (request.pagination.getD Pagination.all).offset
      ∃ sets,
        (session.engine.execute session.catalog (Store.respond sorter stores) request
            progress).result
          = .ok sets
        ∧ sets.length = max 1 request.params.length
        ∧ page.data = sets.flatMap RowSet.rows
        ∧ page.total = (sets.map RowSet.total).sum
        ∧ (page.hasMore = true
          ↔ (∃ set ∈ sets, set.Continues offset)
            ∨ offset < (sets.map (RowSet.skipped offset)).sum)
        ∧ (request.params.length ≤ 1 ∨ offset = 0
          → (page.hasMore = true ↔ ∃ set ∈ sets, set.Continues offset)) := by
  intro offset
  obtain ⟨sets, executed, rfl⟩ := map_eq_ok_iff.mp succeeds
  obtain ⟨counted, paged⟩ := reached.paged_of_execute executed
  have more := Page.hasMore_concat_iff paged
  refine ⟨sets, executed, counted, RowSet.rows_concat sets, RowSet.total_concat sets, more,
    fun few => ?_⟩
  have none : ¬offset < (sets.map (RowSet.skipped offset)).sum :=
    Nat.not_lt.mpr (RowSet.sum_skipped_le (few.imp (fun one => by omega) id))
  rw [more]
  exact or_iff_left none

/-- The first shape of another tint than each of two. One of these is no shape's tint. -/
def firstShapes : Request where
  bucket := "shape"
  query := ⟨[("tint not ==", .object [(".", .string "tint")])]⟩
  params := [.object [("tint", .string "r")], .object [("tint", .string "b")]]
  templates := []
  sort := []
  pagination := some ⟨1, 0⟩

set_option maxRecDepth 100000 in
/-- The page has more. Nothing comes after the shape that it shows for the first parameter row, but
for the second one something does.
-/
theorem page_hasMore_firstShapes
    : ∃ page sets,
        (shapesAndColorsSession.engine.page shapesAndColorsSession.catalog
          (Store.respond .insertion shapesAndColors) firstShapes ⟨false, []⟩).result = .ok page
        ∧ (shapesAndColorsSession.engine.execute shapesAndColorsSession.catalog
            (Store.respond .insertion shapesAndColors) firstShapes ⟨false, []⟩).result = .ok sets
        ∧ sets.map (fun set => (column set.rows "id", set.total))
          = [([.string "b"], 1), ([.string "a"], 2)]
        ∧ page.total = 3
        ∧ page.hasMore = true
        ∧ ∃ set ∈ sets, set.Continues 0 := by
  have returns : (shapesAndColorsSession.engine.page shapesAndColorsSession.catalog
      (Store.respond .insertion shapesAndColors) firstShapes ⟨false, []⟩).result.toOption.map
        (fun page => (page.total, page.hasMore))
      = some (3, true) := by
    decide +kernel
  have sliced : (shapesAndColorsSession.engine.execute shapesAndColorsSession.catalog
      (Store.respond .insertion shapesAndColors) firstShapes ⟨false, []⟩).result.toOption.map
        (List.map fun set => (column set.rows "id", set.total))
      = some [([.string "b"], 1), ([.string "a"], 2)] := by
    decide +kernel
  have reached : shapesAndColorsSession.Reached Settings.default := ⟨_, _, rfl⟩
  obtain ⟨page, succeeds, shown⟩ := toOption_map_eq_some_iff.mp returns
  obtain ⟨total, more⟩ := Prod.mk.inj shown
  obtain ⟨sets, executed, -, -, -, -, tells⟩ :=
    page_hasMore_iff reached .insertion shapesAndColors firstShapes ⟨false, []⟩ succeeds
  rw [executed] at sliced
  exact ⟨page, sets, succeeds, executed, Option.some.inj sliced, total, more,
    (tells (.inr rfl)).mp more⟩

/-- The second shapes of two tints, each of which has only one. -/
def secondShapes : Request where
  bucket := "shape"
  query := ⟨[("tint", .object [(".", .string "tint")])]⟩
  params := [.object [("tint", .string "r")], .object [("tint", .string "g")]]
  templates := []
  sort := []
  pagination := some ⟨1, 1⟩

set_option maxRecDepth 100000 in
/-- The page claims to have more, since two shapes are skipped to get to the offset of one. There is
nothing after it for either of the parameter rows.
-/
theorem page_secondShapes
    : ∃ page sets,
        (shapesAndColorsSession.engine.page shapesAndColorsSession.catalog
          (Store.respond .insertion shapesAndColors) secondShapes ⟨false, []⟩).result = .ok page
        ∧ (shapesAndColorsSession.engine.execute shapesAndColorsSession.catalog
            (Store.respond .insertion shapesAndColors) secondShapes ⟨false, []⟩).result = .ok sets
        ∧ sets.map (fun set => (set.rows, set.total)) = [([], 1), ([], 1)]
        ∧ page.hasMore = true
        ∧ ¬∃ set ∈ sets, set.Continues 1 := by
  have returns : (shapesAndColorsSession.engine.execute shapesAndColorsSession.catalog
      (Store.respond .insertion shapesAndColors) secondShapes ⟨false, []⟩).result.toOption
      = some [⟨[], 1⟩, ⟨[], 1⟩] := by
    decide +kernel
  have shown : (shapesAndColorsSession.engine.page shapesAndColorsSession.catalog
      (Store.respond .insertion shapesAndColors) secondShapes ⟨false, []⟩).result.toOption.map
        Page.hasMore
      = some true := by
    decide +kernel
  obtain ⟨sets, executed, same⟩ := toOption_map_eq_some_iff.mp
    ((Option.map_id_apply ..).trans returns)
  obtain ⟨page, succeeds, more⟩ := toOption_map_eq_some_iff.mp shown
  obtain rfl : sets = [⟨[], 1⟩, ⟨[], 1⟩] := same
  exact ⟨page, _, succeeds, executed, rfl, more, by decide⟩

end FederatedQuery.Session
