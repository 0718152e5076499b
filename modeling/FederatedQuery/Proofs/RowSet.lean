import FederatedQuery.Sorting
import Mathlib.Algebra.GroupWithZero.Nat

/-! What a page tells of the row sets on it. Each set shows rows from the offset on, but the page
compares the rows on it with the sum of all totals.
-/

namespace FederatedQuery

namespace RowSet

/-- How many rows of the set come before the offset. -/
def skipped (offset : Nat) (set : RowSet) : Nat := min offset set.total

/-- There are rows after those that the set shows from the offset on. -/
def Continues (offset : Nat) (set : RowSet) : Prop := offset + set.rows.length < set.total

instance (offset : Nat) (set : RowSet) : Decidable (set.Continues offset) :=
  inferInstanceAs (Decidable (_ < _))

/-- The rows of the set are some of those after the offset. -/
def Paged (offset : Nat) (set : RowSet) : Prop := set.skipped offset + set.rows.length ≤ set.total

theorem paged_empty (offset : Nat) : empty.Paged offset := by simp [Paged, skipped, empty]

theorem paged_paginate (rows : List Row) (pagination : Option Pagination)
    : (paginate rows pagination).Paged (pagination.getD Pagination.all).offset := by
  cases pagination with
  | none => simp [Paged, skipped, paginate, ofRows, Pagination.all]
  | some pagination =>
      simp only [Paged, skipped, paginate, Option.getD_some]
      split <;> simp only [List.length_take, List.length_drop] <;> omega

theorem rows_foldl_append (sets : List RowSet) (first : RowSet)
    : (sets.foldl append first).rows = first.rows ++ sets.flatMap RowSet.rows := by
  induction sets generalizing first with
  | nil => simp
  | cons set rest ih => simp [ih, append]

theorem total_foldl_append (sets : List RowSet) (first : RowSet)
    : (sets.foldl append first).total = first.total + (sets.map RowSet.total).sum := by
  induction sets generalizing first with
  | nil => simp
  | cons set rest ih => simp [ih, append, Nat.add_assoc]

@[simp]
theorem rows_concat (sets : List RowSet) : (concat sets).rows = sets.flatMap RowSet.rows := by
  simp [concat, rows_foldl_append, empty]

@[simp]
theorem total_concat (sets : List RowSet) : (concat sets).total = (sets.map RowSet.total).sum := by
  simp [concat, total_foldl_append, empty]

section

variable {offset : Nat} {sets : List RowSet} (paged : ∀ set ∈ sets, set.Paged offset)

include paged

/-- No more rows are skipped and shown than there are, by induction on the sets. -/
theorem sum_skipped_add_sum_length_le
    : (sets.map (skipped offset)).sum + (sets.map fun set => set.rows.length).sum
      ≤ (sets.map RowSet.total).sum := by
  induction sets with
  | nil => simp
  | cons set rest ih =>
      have first : set.skipped offset + set.rows.length ≤ set.total := paged set List.mem_cons_self
      have others := ih fun other inside => paged other (List.mem_cons_of_mem _ inside)
      simp only [List.map_cons, List.sum_cons]
      omega

/-- All rows are skipped or shown if no set continues. -/
theorem sum_total_eq (ends : ∀ set ∈ sets, ¬set.Continues offset)
    : (sets.map RowSet.total).sum
      = (sets.map (skipped offset)).sum + (sets.map fun set => set.rows.length).sum := by
  induction sets with
  | nil => simp
  | cons set rest ih =>
      have first : set.total = set.skipped offset + set.rows.length := by
        have fits := paged set List.mem_cons_self
        have ended := ends set List.mem_cons_self
        simp only [Paged, Continues, skipped] at fits ended ⊢
        omega
      have others := ih (fun other inside => paged other (List.mem_cons_of_mem _ inside))
        fun other inside => ends other (List.mem_cons_of_mem _ inside)
      simp only [List.map_cons, List.sum_cons, first, others]
      omega

/-- A set that continues leaves rows over, even if the offset is taken from all sets at once. -/
theorem offset_add_sum_length_lt {set : RowSet} (inside : set ∈ sets)
    (continues : set.Continues offset)
    : offset + (sets.map fun set => set.rows.length).sum < (sets.map RowSet.total).sum := by
  obtain ⟨before, after, rfl⟩ := List.append_of_mem inside
  have earlier := sum_skipped_add_sum_length_le fun other among =>
    paged other (List.mem_append_left _ among)
  have later := sum_skipped_add_sum_length_le fun other among =>
    paged other (List.mem_append_right before (List.mem_cons_of_mem _ among))
  simp only [Continues] at continues
  simp only [List.map_append, List.map_cons, List.sum_append, List.sum_cons]
  omega

end

end RowSet

/-- A page of several sets has more if one of them continues, but also if the rows that are skipped
in all of them are more than the offset.
-/
theorem Page.hasMore_concat_iff {sets : List RowSet} {pagination : Pagination}
    (paged : ∀ set ∈ sets, set.Paged pagination.offset)
    : (Page.ofRowSet (RowSet.concat sets) pagination).hasMore = true
      ↔ (∃ set ∈ sets, set.Continues pagination.offset)
        ∨ pagination.offset < (sets.map (RowSet.skipped pagination.offset)).sum := by
  have shown : (Page.ofRowSet (RowSet.concat sets) pagination).hasMore = true
      ↔ pagination.offset + (sets.map fun set => set.rows.length).sum
        < (sets.map RowSet.total).sum := by
    simp [Page.ofRowSet, List.length_flatMap]
  rw [shown]
  by_cases continues : ∃ set ∈ sets, set.Continues pagination.offset
  · obtain ⟨set, inside, goesOn⟩ := continues
    exact iff_of_true (RowSet.offset_add_sum_length_lt paged inside goesOn)
      (.inl ⟨set, inside, goesOn⟩)
  · have ends : ∀ set ∈ sets, ¬set.Continues pagination.offset := fun set inside goesOn =>
      continues ⟨set, inside, goesOn⟩
    rw [RowSet.sum_total_eq paged ends, or_iff_right continues]
    omega

/-- A single set, or sets from their first row on, never skip more than the offset. -/
theorem RowSet.sum_skipped_le {sets : List RowSet} {offset : Nat}
    (few : sets.length ≤ 1 ∨ offset = 0)
    : (sets.map (skipped offset)).sum ≤ offset := by
  rcases few with one | rfl
  · match sets, one with
    | [], _ => simp
    | [set], _ => exact Nat.min_le_left offset set.total
  · have none : sets.map (skipped 0) = sets.map fun _ => 0 :=
      List.map_congr_left fun set _ => by simp [skipped]
    simp [none, List.map_const']

end FederatedQuery
