import FederatedQuery.Sorting.Stable

/-! Sorting by insertion: one element after the other is put behind all that it does not precede. -/

namespace FederatedQuery

variable {α : Type}

/-- Inserts an element into a list that is kept backwards, last element first. It passes the
elements that it precedes and stays behind all others.
-/
def insertBack (precedes : α → α → Bool) (x : α) : List α → List α
  | [] => [x]
  | y :: rest => if precedes x y then y :: insertBack precedes x rest else x :: y :: rest

/-- Inserts the elements in turn, each behind all that it does not precede. -/
def insertionSort (precedes : α → α → Bool) (xs : List α) : List α :=
  (xs.foldl (fun sorted x => insertBack precedes x sorted) []).reverse

/-- An element is put between those that it precedes and one that it does not, by induction on the
list.
-/
theorem exists_insertBack_eq (precedes : α → α → Bool) (x : α) (ys : List α)
    : ∃ passed kept,
        ys = passed ++ kept
        ∧ insertBack precedes x ys = passed ++ x :: kept
        ∧ (∀ y ∈ passed, precedes x y = true)
        ∧ ∀ y ∈ kept.head?, precedes x y = false := by
  induction ys with
  | nil => exact ⟨[], [], rfl, rfl, nofun, nofun⟩
  | cons y rest ih =>
      simp only [insertBack]
      split
      · next before =>
        obtain ⟨passed, kept, rfl, same, precede, stops⟩ := ih
        refine ⟨y :: passed, kept, rfl, by rw [same, List.cons_append], ?_, stops⟩
        simpa [before] using precede
      · next behind =>
        exact ⟨[], y :: rest, rfl, rfl, nofun, by simpa using behind⟩

/-- Sorting one more element puts it between one that it does not precede and those that it does.
-/
theorem exists_insertionSort_concat (precedes : α → α → Bool) (xs : List α) (x : α)
    : ∃ before after,
        insertionSort precedes xs = before ++ after
        ∧ insertionSort precedes (xs ++ [x]) = before ++ x :: after
        ∧ (∀ y ∈ before.getLast?, precedes x y = false)
        ∧ ∀ y ∈ after, precedes x y = true := by
  obtain ⟨passed, kept, split, inserted, precede, stops⟩ := exists_insertBack_eq precedes x
    (xs.foldl (fun sorted x => insertBack precedes x sorted) [])
  refine ⟨kept.reverse, passed.reverse, ?_, ?_, ?_, ?_⟩
  · rw [insertionSort, split, List.reverse_append]
  · simp [insertionSort, inserted]
  · simpa using stops
  · simpa using precede

/-- An element that is put between those before which it does not belong and those before which it
does extends a stable arrangement.
-/
theorem ArrangesStably.insert {compare : α → α → Ordering} {xs before after : List α} {x : α}
    (orders : IsOrderOn compare (xs ++ [x]))
    (arranged : ArrangesStably compare xs (before ++ after))
    (behind : ∀ y ∈ before.getLast?, compare x y ≠ .lt) (ahead : ∀ y ∈ after, compare x y = .lt)
    : ArrangesStably compare (xs ++ [x]) (before ++ x :: after) := by
  have inside : before ++ after ⊆ xs ++ [x] := fun y among =>
    List.mem_append_left [x] (arranged.perm.mem_iff.mp among)
  have new : x ∈ xs ++ [x] := List.mem_append_right xs List.mem_cons_self
  obtain ⟨orderedBefore, orderedAfter, across⟩ := List.pairwise_append.mp arranged.ordered
  have below : ∀ y ∈ before, (compare y x).isLE := by
    intro y among
    obtain ⟨last, ends⟩ : ∃ last, before.getLast? = some last :=
      ⟨_, List.getLast?_eq_some_getLast (List.ne_nil_of_mem among)⟩
    have lastBelow := orders.isLE_of_ne_lt (behind last ends)
    obtain ⟨front, rfl⟩ := List.getLast?_eq_some_iff.mp ends
    rcases List.mem_append.mp among with earlier | same
    · have ordered := (List.pairwise_append.mp orderedBefore).2.2 y earlier last (by simp)
      exact orders.trans y (inside (by simp [earlier])) last (inside (by simp)) x new ordered
        lastBelow
    · rwa [List.mem_singleton.mp same]
  refine ⟨?_, ?_, ?_⟩
  · have front := List.perm_middle.trans (arranged.perm.cons x)
    exact front.trans (List.perm_append_singleton x xs).symm
  · refine List.pairwise_append.mpr ⟨orderedBefore, List.pairwise_cons.mpr ⟨?_, orderedAfter⟩, ?_⟩
    · intro y among
      simp [ahead y among]
    · intro y among z later
      rcases List.mem_cons.mp later with rfl | later
      · exact below y among
      · exact across y among z later
  · intro y among
    have same := arranged.filter_eq orders (List.subset_append_left xs [x]) among
    simp only [List.filter_append, List.filter_cons, List.filter_nil] at same ⊢
    cases tie : compare y x == .eq with
    | false => simpa using same
    | true =>
        have none : (after.filter fun z => compare y z == .eq) = [] := by
          refine List.filter_eq_nil_iff.mpr fun z later tie' => ?_
          have tie'' := orders.eq_trans new among (inside (by simp [later]))
            (orders.eq_symm (eq_of_beq tie)) (eq_of_beq tie')
          simp [ahead z later] at tie''
        simpa [none] using same

/-- Sorting leaves out nothing, by induction on the elements. -/
theorem insertionSort_perm (precedes : α → α → Bool) (xs : List α)
    : (insertionSort precedes xs).Perm xs := by
  have gathered (sorted : List α)
      : (xs.foldl (fun sorted x => insertBack precedes x sorted) sorted).Perm (xs ++ sorted) := by
    induction xs generalizing sorted with
    | nil => exact .refl _
    | cons x rest ih =>
        obtain ⟨passed, kept, rfl, inserted, -⟩ := exists_insertBack_eq precedes x sorted
        rw [List.foldl_cons, inserted]
        exact (ih _).trans ((List.perm_middle.append_left rest).trans List.perm_middle)
  have all := gathered []
  rw [List.append_nil] at all
  exact (List.reverse_perm _).trans all

/-- The sort by a comparison arranges stably, by induction from the end of the list. -/
theorem arrangesStably_insertionSort {compare : α → α → Ordering} {xs : List α}
    (orders : IsOrderOn compare xs)
    : ArrangesStably compare xs (insertionSort (fun a b => compare a b == .lt) xs) := by
  obtain ⟨backwards, rfl⟩ : ∃ backwards, xs = backwards.reverse :=
    ⟨xs.reverse, xs.reverse_reverse.symm⟩
  induction backwards with
  | nil => exact ⟨.refl _, .nil, nofun⟩
  | cons x rest ih =>
      rw [List.reverse_cons] at orders ⊢
      obtain ⟨before, after, sorted, sortedMore, behind, ahead⟩ :=
        exists_insertionSort_concat (fun a b => compare a b == .lt) rest.reverse x
      rw [sortedMore]
      refine ArrangesStably.insert orders ?_ ?_ ?_
      · exact sorted ▸ ih (orders.subset (List.subset_append_left rest.reverse [x]))
      · simpa using behind
      · simpa using ahead

namespace StableSort

/-- Sorting by insertion, which never gives up. -/
def insertion : StableSort α where
  sort? compare xs := some (insertionSort (fun a b => compare a b == .lt) xs)
  perm same := Option.some.inj same ▸ insertionSort_perm _ _
  stable orders := ⟨_, rfl, arrangesStably_insertionSort orders⟩

end StableSort

end FederatedQuery
