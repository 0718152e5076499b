import FederatedQuery.Proofs.Sorting
import FederatedQuery.Sorting.Insertion
import Mathlib.Data.List.Pairwise

/-! Sorting is stable, and sorting by several keys is sorting by one after the other, the least
significant first. A list has only one stable arrangement by a comparison, so it is enough that both
ways lead to one.
-/

namespace FederatedQuery

theorem sortRows_singleton (sorter : StableSort Row) (key : SortKey) (rows : List Row)
    : sortRows sorter [key] rows = sorter.sort? key.compareRows rows := by
  have alone : compareRows [key] = key.compareRows := by
    funext a b
    simp [compareRows]
  rw [sortRows, if_neg (by simp), alone]

/-- Sorting by one key after the other, the least significant first, arranges stably by all keys,
by induction on them.
-/
theorem exists_foldrM_sortRows (sorter : StableSort Row) {keys : List SortKey} {rows : List Row}
    (alike : ∀ key ∈ keys, key.NumbersAlike rows)
    : ∃ sorted,
        keys.foldrM (fun key sorted => sortRows sorter [key] sorted) rows = some sorted
        ∧ ArrangesStably (compareRows keys) rows sorted := by
  induction keys with
  | nil => exact ⟨rows, rfl, .refl _, List.pairwise_of_forall fun _ _ => rfl, fun _ _ => rfl⟩
  | cons key rest ih =>
      obtain ⟨sorted, found, inner⟩ :=
        ih fun key inside => alike key (List.mem_cons_of_mem _ inside)
      have kept := (alike key List.mem_cons_self).subset inner.perm.subset
      have orders := SortKey.orders_compareRows kept
      obtain ⟨again, foundAgain, outer⟩ := sorter.stable orders
      refine ⟨again, ?_, inner.andThen outer orders.self⟩
      rw [List.foldrM_cons, found]
      exact (sortRows_singleton sorter key sorted).trans foundAgain

/-- Sorting by several keys is stable, the first of them counting most. It makes what sorting by one
key after the other makes, the least significant first.
-/
theorem sortRows_stable (sorter : StableSort Row) {keys : List SortKey} {rows : List Row}
    (alike : ∀ key ∈ keys, key.NumbersAlike rows)
    : ∃ sorted,
        sortRows sorter keys rows = some sorted
        ∧ ArrangesStably (compareRows keys) rows sorted
        ∧ keys.foldrM (fun key sorted => sortRows sorter [key] sorted) rows = some sorted := by
  have orders := orders_compareRows alike
  obtain ⟨sorted, found, arranges⟩ := exists_sortRows sorter orders
  obtain ⟨again, foundAgain, arrangesAgain⟩ := exists_foldrM_sortRows sorter alike
  exact ⟨sorted, found, arranges,
    foundAgain.trans (congrArg some (arrangesAgain.unique orders arranges))⟩

/-- A row of a group with a size. -/
def sizedRow (name group : String) (size : Number) : Row :=
  .object [("name", .string name), ("group", .string group), ("size", .number size)]

/-- Rows that are equal under both keys stay in their order, and a row without a group comes first.
-/
theorem sortRows_stable_sizedRows
    : let keys : List SortKey := [⟨"group", .asc⟩, ⟨"size", .desc⟩]
      let one := Number.int 1 (by decide)
      let two := Number.int 2 (by decide)
      let rows :=
        [sizedRow "p" "b" two, sizedRow "q" "a" two, sizedRow "r" "b" one, sizedRow "s" "a" two,
          .object [("name", .string "t")]]
      let sorted :=
        [.object [("name", .string "t")], sizedRow "q" "a" two, sizedRow "s" "a" two,
          sizedRow "p" "b" two, sizedRow "r" "b" one]
      sortRows .insertion keys rows = some sorted
      ∧ ArrangesStably (compareRows keys) rows sorted
      ∧ (sortRows .insertion [⟨"size", .desc⟩] rows).bind (sortRows .insertion [⟨"group", .asc⟩])
        = some sorted := by
  intro keys one two rows sorted
  have alike : ∀ key ∈ keys, key.NumbersAlike rows := by
    intro key inside
    refine ⟨false, ?_⟩
    revert key
    decide +kernel
  have sorts : sortRows .insertion keys rows = some sorted := by decide +kernel
  obtain ⟨found, sortsToo, arranges, folded⟩ := sortRows_stable .insertion alike
  obtain rfl := Option.some.inj (sortsToo.symm.trans sorts)
  exact ⟨sorts, arranges, folded⟩

end FederatedQuery
