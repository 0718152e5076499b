import FederatedQuery.RowSet
import Mathlib.Data.List.Basic

/-! The pages of a list of rows. With the same size and consecutive numbers they lie next to each
other, and each tells whether there is another one after it.
-/

namespace FederatedQuery

namespace RowSet

variable {rows : List Row} {size : Nat}

theorem total_paginate (rows : List Row) (pagination : Option Pagination)
    : (paginate rows pagination).total = rows.length := by
  cases pagination with
  | none => rfl
  | some pagination =>
      simp only [paginate]
      split <;> rfl

theorem offset_page (positive : 0 < size) (number : Nat)
    : (Pagination.page number size).offset = min ((number - 1) * size) Word.greatest := by
  rw [Pagination.page, if_pos (Int.natCast_pos.mpr positive), Int.toNat_natCast]

theorem limit_page (positive : 0 < size) (number : Nat)
    : (Pagination.page number size).limit = some size := by
  rw [Pagination.page, if_pos (Int.natCast_pos.mpr positive), Pagination.limit]
  exact if_neg (Int.not_lt.mpr (Int.natCast_nonneg size))

/-- A page shows as many rows as it has room for, behind those of the pages before it. An offset
that stops at the greatest word makes no difference: there are no rows so far out.
-/
theorem rows_paginate_page (few : rows.length ≤ Word.greatest) (positive : 0 < size)
    (number : Nat)
    : (paginate rows (some (Pagination.page number size))).rows
      = (rows.drop ((number - 1) * size)).take size := by
  simp only [paginate, limit_page positive, offset_page positive]
  congr 1
  rcases Nat.le_total ((number - 1) * size) Word.greatest with within | beyond
  · rw [Nat.min_eq_left within]
  · rw [Nat.min_eq_right beyond, List.drop_eq_nil_of_le few,
      List.drop_eq_nil_of_le (Nat.le_trans few beyond)]

/-- The pages up to a number show the first rows of the list, as many as they have room for. By
induction on the number.
-/
theorem flatMap_rows_paginate_page (few : rows.length ≤ Word.greatest) (positive : 0 < size)
    (count : Nat)
    : ((List.range' 1 count).flatMap fun number =>
        (paginate rows (some (Pagination.page number size))).rows)
      = rows.take (count * size) := by
  induction count with
  | zero => simp
  | succ count ih =>
      have last : 1 + count - 1 = count := by omega
      rw [List.range'_1_concat, List.flatMap_append, ih, List.flatMap_singleton,
        rows_paginate_page few positive, last, Nat.succ_mul, List.take_add]

theorem rows_paginate_page_eq_nil_iff (few : rows.length ≤ Word.greatest) (positive : 0 < size)
    (number : Nat)
    : (paginate rows (some (Pagination.page number size))).rows = []
      ↔ rows.length ≤ (number - 1) * size := by
  rw [rows_paginate_page few positive, List.take_eq_nil_iff, List.drop_eq_nil_iff]
  exact or_iff_right (Nat.ne_of_gt positive)

/-- Adding the rows shown to the offset never leaves the words: behind the last row there are none
to add.
-/
theorem offset_add_length_le (few : rows.length ≤ Word.greatest) (positive : 0 < size)
    (number : Nat)
    : (Pagination.page number size).offset
        + (paginate rows (some (Pagination.page number size))).rows.length
      ≤ Word.greatest := by
  rw [rows_paginate_page few positive, offset_page positive, List.length_take, List.length_drop]
  omega

/-- There is more exactly when rows are left for the next page. -/
theorem hasMore_page_iff (few : rows.length ≤ Word.greatest) (positive : 0 < size)
    {number : Nat} (counted : 1 ≤ number)
    : (Page.ofRowSet (paginate rows (some (Pagination.page number size)))
        (Pagination.page number size)).hasMore = true
      ↔ number * size < rows.length := by
  have before : number * size = (number - 1) * size + size := by
    rw [← Nat.succ_mul, Nat.succ_eq_add_one, Nat.sub_add_cancel counted]
  simp only [Page.ofRowSet, decide_eq_true_eq, total_paginate, rows_paginate_page few positive,
    offset_page positive, List.length_take, List.length_drop, before]
  omega

/-- The pages of one size tile a list. Those up to a number that leaves no room over are the list
when they are put together, each of them knows how many rows there are, and none has rows behind the
end of the list, however far out it is. A page has more if and only if the next page has rows, and
to see this no sum beyond the words is formed.
-/
theorem pages_tile (few : rows.length ≤ Word.greatest) (positive : 0 < size)
    : let pagination := fun number => Pagination.page number size
      let set := fun number => paginate rows (some (pagination number))
      (∀ count,
          rows.length ≤ count * size
          → ((List.range' 1 count).flatMap fun number => (set number).rows) = rows)
      ∧ ∀ number,
          1 ≤ number
          → (set number).total = rows.length
            ∧ ((set number).rows = [] ↔ rows.length ≤ (number - 1) * size)
            ∧ ((Page.ofRowSet (set number) (pagination number)).hasMore = true
              ↔ (set (number + 1)).rows ≠ [])
            ∧ (pagination number).offset + (set number).rows.length ≤ Word.greatest := by
  intro pagination set
  refine ⟨fun count room => ?_, fun number counted => ⟨total_paginate rows _, ?_, ?_, ?_⟩⟩
  · rw [flatMap_rows_paginate_page few positive, List.take_of_length_le room]
  · exact rows_paginate_page_eq_nil_iff few positive number
  · rw [hasMore_page_iff few positive counted, Ne, rows_paginate_page_eq_nil_iff few positive,
      Nat.add_sub_cancel, Nat.not_le]
  · exact offset_add_length_le few positive number

/-- Five rows. -/
def fiveRows : List Row := [.null, .bool false, .bool true, .string "a", .string "b"]

/-- The third page of two rows is not full and the last one. The greatest page number leads to no
rows, with an offset that has stopped at the greatest word.
-/
theorem pages_tile_fiveRows
    : fiveRows.length ≤ Word.greatest
      ∧ ((List.range' 1 3).flatMap fun number =>
          (paginate fiveRows (some (Pagination.page number 2))).rows)
        = fiveRows
      ∧ (paginate fiveRows (some (Pagination.page 3 2))).rows = [.string "b"]
      ∧ (Page.ofRowSet (paginate fiveRows (some (Pagination.page 3 2)))
          (Pagination.page 3 2)).hasMore = false
      ∧ (Pagination.page Word.greatest 2).offset = Word.greatest
      ∧ (paginate fiveRows (some (Pagination.page Word.greatest 2))).rows = [] := by
  have few : fiveRows.length ≤ Word.greatest := by decide
  obtain ⟨tile, each⟩ := pages_tile few (show 0 < 2 by decide)
  have last := (each 3 (by decide)).2.2.1
  have far := (each Word.greatest (by decide)).2.1
  refine ⟨few, tile 3 (by decide), by decide, ?_, by decide, far.mpr (by decide)⟩
  exact Bool.eq_false_iff.mpr fun more => last.mp more (by decide)

end RowSet

end FederatedQuery
