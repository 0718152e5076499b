import FederatedQuery.Proofs.Value.Order
import FederatedQuery.Sorting

/-! When sorting rows comes to something. A sort has to arrange the rows if the keys tell them apart
by an order, and a key does so where it finds numbers of one kind.
-/

namespace FederatedQuery

-----------------------------------------------------------------------------------------
-- Rows and sort keys
-----------------------------------------------------------------------------------------

/-- Whether a value that may be missing is a float, if it is a number. -/
def Value.isFloat? : Option Value → Option Bool
  | some (.number n) => some n.isFloat
  | _ => none

/-- The numbers at the key's path are all integers or all floats. -/
def SortKey.NumbersAlike (key : SortKey) (rows : List Row) : Prop :=
  ∃ float, ∀ row ∈ rows, ∀ kind ∈ Value.isFloat? (row.at? key.path), kind = float

theorem SortKey.NumbersAlike.subset {key : SortKey} {rows others : List Row}
    (alike : key.NumbersAlike rows) (inside : others ⊆ rows)
    : key.NumbersAlike others := by
  obtain ⟨float, kind⟩ := alike
  exact ⟨float, fun row among => kind row (inside among)⟩

/-- Values at the key's path are told apart by an order: numbers of one kind are not conflated. -/
theorem SortKey.orders_compareRows {key : SortKey} {rows : List Row}
    (alike : key.NumbersAlike rows)
    : IsOrderOn key.compareRows rows := by
  have ascending : IsOrderOn
      (fun a b : Row => Value.sortCompareOptional (a.at? key.path) (b.at? key.path)) rows := by
    obtain ⟨float, kind⟩ := alike
    refine ⟨fun a b => Value.sortCompareOptional_swap .., ?_⟩
    intro a ha b hb c hc first second
    refine (Value.optional_isLE_trans first second).resolve_right fun conflated => ?_
    generalize atA : a.at? key.path = valueA, atB : b.at? key.path = valueB,
      atC : c.at? key.path = valueC at conflated
    obtain ⟨conflates⟩ := conflated
    have first := kind a ha _ (congrArg Value.isFloat? atA)
    have between := kind b hb _ (congrArg Value.isFloat? atB)
    rw [← between, conflates.first, conflates.float] at first
    cases first
  obtain ⟨path, direction⟩ := key
  cases direction with
  | asc => exact ascending
  | desc => exact ascending.reverse

/-- Rows are told apart by several keys, by induction on them. -/
theorem orders_compareRows {keys : List SortKey} {rows : List Row}
    (alike : ∀ key ∈ keys, key.NumbersAlike rows)
    : IsOrderOn (compareRows keys) rows := by
  induction keys with
  | nil => exact ⟨fun _ _ => rfl, fun _ _ _ _ _ _ _ _ => rfl⟩
  | cons key rest ih =>
      have first := SortKey.orders_compareRows (alike key List.mem_cons_self)
      exact first.andThen (ih fun key inside => alike key (List.mem_cons_of_mem _ inside))

-----------------------------------------------------------------------------------------
-- Sorting and finishing rows
-----------------------------------------------------------------------------------------

variable {keys : List SortKey} {rows : List Row}

/-- Rows that the keys tell apart by an order are arranged by it. -/
theorem exists_sortRows (sorter : StableSort Row) (orders : IsOrderOn (compareRows keys) rows)
    : ∃ sorted,
        sortRows sorter keys rows = some sorted
        ∧ ArrangesStably (compareRows keys) rows sorted := by
  cases keys with
  | nil => exact ⟨rows, rfl, .refl _, List.pairwise_of_forall fun _ _ => rfl, fun _ _ => rfl⟩
  | cons key rest => exact sorter.stable orders

/-- No rows make an empty row set, however they are sorted and paginated. -/
theorem finishRows_nil (sorter : StableSort Row) (keys : List SortKey)
    (pagination : Option Pagination)
    : finishRows sorter keys pagination [] = some RowSet.empty := by
  have orders : IsOrderOn (compareRows keys) [] :=
    orders_compareRows fun key _ => ⟨false, fun _ inside => by cases inside⟩
  obtain ⟨sorted, same, arranges⟩ := exists_sortRows sorter orders
  obtain rfl : sorted = [] := arranges.perm.eq_nil
  rw [finishRows, same, Option.map_some]
  cases pagination with
  | none => rfl
  | some pagination =>
      simp only [RowSet.paginate, List.drop_nil, List.length_nil]
      split <;> simp [RowSet.empty]

/-- Rows are all there if they are neither sorted nor paginated. -/
theorem finishRows_nil_none (sorter : StableSort Row) (rows : List Row)
    : finishRows sorter [] none rows = some (RowSet.ofRows rows) := rfl

-----------------------------------------------------------------------------------------
-- Sorts that never give up
-----------------------------------------------------------------------------------------

/-- The sort, leaving the elements as they are where it would give up. -/
def StableSort.completed {α : Type} (sorter : StableSort α) : StableSort α where
  sort? compare xs := some ((sorter.sort? compare xs).getD xs)
  perm {compare xs sorted} same := by
    obtain rfl := Option.some.inj same
    cases found : sorter.sort? compare xs with
    | none => exact .refl _
    | some sorted => exact sorter.perm found
  stable orders := by
    obtain ⟨sorted, found, arranges⟩ := sorter.stable orders
    exact ⟨sorted, by rw [found, Option.getD_some], arranges⟩

/-- The completed sort comes to what the sort comes to. -/
theorem finishRows_completed {sorter : StableSort Row} {pagination : Option Pagination}
    {set : RowSet} (finished : finishRows sorter keys pagination rows = some set)
    : finishRows sorter.completed keys pagination rows = some set := by
  cases keys with
  | nil => exact finished
  | cons key rest =>
      obtain ⟨sorted, found, rfl⟩ := Option.map_eq_some_iff.mp finished
      refine Option.map_eq_some_iff.mpr ⟨sorted, ?_, rfl⟩
      simp only [sortRows, List.isEmpty_cons, Bool.false_eq_true, ↓reduceIte] at found ⊢
      simp only [StableSort.completed, found, Option.getD_some]

/-- The completed sort always comes to something. -/
theorem isSome_finishRows_completed (sorter : StableSort Row) (keys : List SortKey)
    (pagination : Option Pagination) (rows : List Row)
    : (finishRows sorter.completed keys pagination rows).isSome := by
  cases keys <;> rfl

end FederatedQuery
