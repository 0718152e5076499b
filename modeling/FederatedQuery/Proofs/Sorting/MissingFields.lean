import FederatedQuery.Proofs.Sorting.Stability
import Mathlib.Data.List.Sort

/-! Sorting where fields are missing. What sorting does to a list of rows is a permutation of their
places, and two lists are permuted alike if the same pairs of places are exchanged. A missing value
comes before an explicit null, so lists that differ only in where nulls are written out are permuted
alike unless a null and a missing value meet in one of them.
-/

namespace FederatedQuery

variable {α β : Type} {keys : List SortKey} {rows others : List Row}

-----------------------------------------------------------------------------------------
-- Sorting places
-----------------------------------------------------------------------------------------

/-- The row at a place. -/
def rowAt (rows : List Row) (place : Nat) : Row := rows.getD place .null

/-- The places of the rows in the order into which sorting brings them. -/
def sortedPlaces (keys : List SortKey) (rows : List Row) : List Nat :=
  insertionSort (fun i j => compareRows keys (rowAt rows i) (rowAt rows j) == .lt)
    (List.range rows.length)

theorem map_rowAt_range (rows : List Row) : (List.range rows.length).map (rowAt rows) = rows := by
  refine List.ext_getElem (by simp) fun place inside _ => ?_
  have within : place < rows.length := by simpa using inside
  simp [rowAt, within]

theorem insertBack_map (precedes : β → β → Bool) (f : α → β) (x : α) (sorted : List α)
    : insertBack precedes (f x) (sorted.map f)
      = (insertBack (fun a b => precedes (f a) (f b)) x sorted).map f := by
  induction sorted with
  | nil => rfl
  | cons y rest ih =>
      simp only [List.map_cons, insertBack, ih]
      split <;> rfl

/-- Sorting the images of elements sorts the elements by their images, by induction on the list from
its end.
-/
theorem insertionSort_map (precedes : β → β → Bool) (f : α → β) (xs : List α)
    : insertionSort precedes (xs.map f)
      = (insertionSort (fun a b => precedes (f a) (f b)) xs).map f := by
  have gathered (sorted : List α)
      : (xs.map f).foldl (fun sorted x => insertBack precedes x sorted) (sorted.map f)
        = (xs.foldl (fun sorted x => insertBack (fun a b => precedes (f a) (f b)) x sorted)
            sorted).map f := by
    induction xs generalizing sorted with
    | nil => rfl
    | cons x rest ih =>
        rw [List.map_cons, List.foldl_cons, List.foldl_cons, insertBack_map]
        exact ih _
  simp only [insertionSort, List.map_reverse]
  exact congrArg List.reverse (gathered [])

/-- Sorting lists the rows at the sorted places. -/
theorem sortRows_eq_map_sortedPlaces (sorter : StableSort Row)
    (alike : ∀ key ∈ keys, key.NumbersAlike rows)
    : sortRows sorter keys rows = some ((sortedPlaces keys rows).map (rowAt rows)) := by
  have orders := orders_compareRows alike
  obtain ⟨sorted, found, arranges⟩ := exists_sortRows sorter orders
  have places := insertionSort_map (fun a b => compareRows keys a b == .lt) (rowAt rows)
    (List.range rows.length)
  rw [map_rowAt_range] at places
  rw [found, arranges.unique orders (arrangesStably_insertionSort orders), places]
  rfl

-----------------------------------------------------------------------------------------
-- The order of places
-----------------------------------------------------------------------------------------

/-- The order of two places: that of their rows, and for rows that are not told apart that of the
places themselves.
-/
def comparePlaces (keys : List SortKey) (rows : List Row) (i j : Nat) : Ordering :=
  (compareRows keys (rowAt rows i) (rowAt rows j)).then (Ord.compare i j)

/-- Sorting exchanges the rows at two places, the first of which comes before the second. -/
def Exchanges (keys : List SortKey) (rows : List Row) (i j : Nat) : Prop :=
  compareRows keys (rowAt rows i) (rowAt rows j) = .gt

instance (keys : List SortKey) (rows : List Row) (i j : Nat)
    : Decidable (Exchanges keys rows i j) :=
  inferInstanceAs (Decidable (_ = _))

theorem IsOrderOn.comap {compare : β → β → Ordering} {f : α → β} {xs : List α}
    (orders : IsOrderOn compare (xs.map f))
    : IsOrderOn (fun a b => compare (f a) (f b)) xs where
  swap a b := orders.swap (f a) (f b)
  trans a ha b hb c hc :=
    orders.trans (f a) (List.mem_map_of_mem ha) (f b) (List.mem_map_of_mem hb) (f c)
      (List.mem_map_of_mem hc)

theorem comparePlaces_self (alike : ∀ key ∈ keys, key.NumbersAlike rows) (i : Nat)
    : comparePlaces keys rows i i = .eq := by
  simp [comparePlaces, (orders_compareRows alike).self]

theorem comparePlaces_swap (alike : ∀ key ∈ keys, key.NumbersAlike rows) (i j : Nat)
    : comparePlaces keys rows j i = (comparePlaces keys rows i j).swap := by
  simp only [comparePlaces, Ordering.swap_then]
  rw [(orders_compareRows alike).swap (rowAt rows i) (rowAt rows j), Nat.compare_swap i j]

/-- Different places are told apart. -/
theorem comparePlaces_ne_eq {i j : Nat} (different : i ≠ j)
    : comparePlaces keys rows i j ≠ .eq := by
  intro same
  simp only [comparePlaces, Ordering.then_eq_eq] at same
  exact different (Nat.compare_eq_eq.mp same.2)

theorem comparePlaces_eq_lt {i j : Nat} (different : i ≠ j)
    (ordered : (comparePlaces keys rows i j).isLE)
    : comparePlaces keys rows i j = .lt := by
  cases order : comparePlaces keys rows i j with
  | lt => rfl
  | eq => exact absurd order (comparePlaces_ne_eq different)
  | gt => simp [order] at ordered

/-- Two places of which neither comes behind the other one are the same. -/
theorem comparePlaces_antisymm (alike : ∀ key ∈ keys, key.NumbersAlike rows) {i j : Nat}
    (forth : (comparePlaces keys rows i j).isLE) (back : (comparePlaces keys rows j i).isLE)
    : i = j := by
  by_contra different
  rw [comparePlaces_swap alike i j, comparePlaces_eq_lt different forth] at back
  cases back

/-- Of two places the second comes first if their rows are exchanged. -/
theorem comparePlaces_of_lt {i j : Nat} (before : i < j)
    : comparePlaces keys rows i j = if Exchanges keys rows i j then .gt else .lt := by
  have places : Ord.compare i j = .lt := Nat.compare_eq_lt.mpr before
  rw [comparePlaces, places]
  split
  · next exchanged =>
    rw [Exchanges] at exchanged
    rw [exchanged]
    rfl
  · next kept =>
    cases order : compareRows keys (rowAt rows i) (rowAt rows j) with
    | lt | eq => rfl
    | gt => exact absurd order kept

theorem comparePlaces_eq_iff {i j : Nat} (before : i < j)
    : comparePlaces keys rows i j = comparePlaces keys others i j
      ↔ (Exchanges keys rows i j ↔ Exchanges keys others i j) := by
  rw [comparePlaces_of_lt before, comparePlaces_of_lt before]
  split_ifs <;> simp_all

/-- The sorted places are the places of the rows in their order. -/
theorem sortedPlaces_spec (alike : ∀ key ∈ keys, key.NumbersAlike rows)
    : (sortedPlaces keys rows).Perm (List.range rows.length)
      ∧ (sortedPlaces keys rows).Pairwise fun i j => (comparePlaces keys rows i j).isLE := by
  have orders : IsOrderOn
      (fun i j => compareRows keys (rowAt rows i) (rowAt rows j)) (List.range rows.length) := by
    refine IsOrderOn.comap ?_
    rw [map_rowAt_range]
    exact orders_compareRows alike
  have ascending
      : ArrangesStably (fun i j : Nat => Ord.compare i j) (List.range rows.length)
          (List.range rows.length) := by
    refine ⟨.refl _, List.pairwise_lt_range.imp fun before => ?_, fun _ _ => rfl⟩
    simp [Nat.compare_eq_lt.mpr before]
  have arranged := ascending.andThen (arrangesStably_insertionSort orders) orders.self
  exact ⟨arranged.perm, arranged.ordered⟩

theorem mem_sortedPlaces_iff (alike : ∀ key ∈ keys, key.NumbersAlike rows) {place : Nat}
    : place ∈ sortedPlaces keys rows ↔ place < rows.length :=
  (sortedPlaces_spec alike).1.mem_iff.trans List.mem_range

/-- If sorting lists the places alike, of two places both orders put the same one first: the one
that is listed first.
-/
theorem comparePlaces_eq_of_sortedPlaces_eq (alike : ∀ key ∈ keys, key.NumbersAlike rows)
    (alike' : ∀ key ∈ keys, key.NumbersAlike others)
    (same : sortedPlaces keys rows = sortedPlaces keys others) {i j : Nat}
    (inside : i < rows.length) (inside' : j < rows.length)
    : comparePlaces keys rows i j = comparePlaces keys others i j := by
  obtain ⟨perm, ordered⟩ := sortedPlaces_spec alike
  obtain ⟨_, ordered'⟩ := sortedPlaces_spec alike'
  rw [← same] at ordered'
  have distinct : (sortedPlaces keys rows).Nodup := perm.nodup_iff.mpr List.nodup_range
  have agree : (sortedPlaces keys rows).Pairwise fun i j =>
      comparePlaces keys rows i j = comparePlaces keys others i j := by
    refine ((ordered.and ordered').and distinct).imp fun {i j} facts => ?_
    obtain ⟨⟨first, second⟩, different⟩ := facts
    rw [comparePlaces_eq_lt different first, comparePlaces_eq_lt different second]
  have symmetric : Std.Symm fun i j =>
      comparePlaces keys rows i j = comparePlaces keys others i j :=
    ⟨fun i j same => by rw [comparePlaces_swap alike, comparePlaces_swap alike', same]⟩
  refine agree.forall_of_forall (fun i _ => ?_) ((mem_sortedPlaces_iff alike).mpr inside)
    ((mem_sortedPlaces_iff alike).mpr inside')
  rw [comparePlaces_self alike, comparePlaces_self alike']

/-- Rows are permuted alike if their places are in the same order. -/
theorem sortedPlaces_eq_iff_comparePlaces (length : rows.length = others.length)
    (alike : ∀ key ∈ keys, key.NumbersAlike rows)
    (alike' : ∀ key ∈ keys, key.NumbersAlike others)
    : sortedPlaces keys rows = sortedPlaces keys others
      ↔ ∀ i < rows.length, ∀ j < rows.length,
          comparePlaces keys rows i j = comparePlaces keys others i j := by
  constructor
  · intro same i inside j inside'
    exact comparePlaces_eq_of_sortedPlaces_eq alike alike' same inside inside'
  · intro agree
    obtain ⟨perm, ordered⟩ := sortedPlaces_spec alike
    obtain ⟨perm', ordered'⟩ := sortedPlaces_spec alike'
    have inside {place : Nat} (among : place ∈ sortedPlaces keys others) : place < rows.length :=
      length ▸ (mem_sortedPlaces_iff alike').mp among
    have ordered' : (sortedPlaces keys others).Pairwise fun i j =>
        (comparePlaces keys rows i j).isLE := by
      refine ordered'.imp_of_mem fun {i j} among among' below => ?_
      rwa [agree i (inside among) j (inside among')]
    rw [← length] at perm'
    refine (perm.trans perm'.symm).eq_of_pairwise ?_ ordered ordered'
    intro i j _ _ forth back
    exact comparePlaces_antisymm alike forth back

/-- Rows are permuted alike if the same rows are exchanged. -/
theorem sortedPlaces_eq_iff (length : rows.length = others.length)
    (alike : ∀ key ∈ keys, key.NumbersAlike rows)
    (alike' : ∀ key ∈ keys, key.NumbersAlike others)
    : sortedPlaces keys rows = sortedPlaces keys others
      ↔ ∀ i j,
          i < j
          → j < rows.length
          → (Exchanges keys rows i j ↔ Exchanges keys others i j) := by
  rw [sortedPlaces_eq_iff_comparePlaces length alike alike']
  constructor
  · intro agree i j before inside
    exact (comparePlaces_eq_iff before).mp (agree i (by omega) j inside)
  · intro agree i inside j inside'
    rcases Nat.lt_trichotomy i j with before | rfl | behind
    · exact (comparePlaces_eq_iff before).mpr (agree i j before inside')
    · rw [comparePlaces_self alike, comparePlaces_self alike']
    · rw [comparePlaces_swap alike j i, comparePlaces_swap alike' j i]
      exact congrArg Ordering.swap ((comparePlaces_eq_iff behind).mpr (agree j i behind inside))

-----------------------------------------------------------------------------------------
-- Missing values and nulls
-----------------------------------------------------------------------------------------

/-- The rows have the same values at the paths of the keys, if a missing value reads as null. -/
def ReadAlike (keys : List SortKey) (a b : Row) : Prop :=
  ∀ key ∈ keys, a.read key.path = b.read key.path

namespace SortKey

/-- The rows are equal under the key, if a missing value reads as null. -/
def Ties (key : SortKey) (a b : Row) : Prop :=
  Value.sortCompare (a.read key.path) (b.read key.path) = .eq

/-- At the key's path one of the rows has null and the other one nothing. -/
def Mixes (key : SortKey) (a b : Row) : Prop :=
  a.at? key.path = none ∧ b.at? key.path = some .null
  ∨ a.at? key.path = some .null ∧ b.at? key.path = none

end SortKey

/-- Values that may be missing are in the order of what they read as, unless one is missing and the
other one null: null comes before all other values, as a missing value does.
-/
theorem Value.sortCompareOptional_eq_or (a b : Option Value)
    : sortCompareOptional a b = sortCompare (a.getD .null) (b.getD .null)
      ∨ a = none ∧ b = some .null
      ∨ a = some .null ∧ b = none := by
  have rank_pos {value : Value} (notNull : value ≠ .null) : Value.null.rank < value.rank := by
    cases value <;> simp [rank] at notNull ⊢
  cases a with
  | none =>
      cases b with
      | none => exact Or.inl rfl
      | some value =>
          by_cases null : value = .null
          · exact Or.inr (Or.inl ⟨rfl, congrArg some null⟩)
          · exact Or.inl (sortCompare_of_rank_lt (rank_pos null)).symm
  | some value =>
      cases b with
      | none =>
          by_cases null : value = .null
          · exact Or.inr (Or.inr ⟨congrArg some null, rfl⟩)
          · left
            rw [Option.getD_some, Option.getD_none, sortCompare_swap,
              sortCompare_of_rank_lt (rank_pos null)]
            rfl
      | some other => exact Or.inl rfl

/-- Rows that read alike are compared alike by one key, unless it mixes null and nothing. -/
theorem SortKey.compareRows_eq_or_mixes (key : SortKey) {a b c d : Row}
    (first : a.read key.path = c.read key.path) (second : b.read key.path = d.read key.path)
    : key.compareRows a b = key.compareRows c d ∧ (key.compareRows a b = .eq → key.Ties a b)
      ∨ key.Mixes a b
      ∨ key.Mixes c d := by
  rcases Value.sortCompareOptional_eq_or (a.at? key.path) (b.at? key.path) with same | mixed
  · rcases Value.sortCompareOptional_eq_or (c.at? key.path) (d.at? key.path) with same' | mixed
    · left
      have reads : Value.sortCompareOptional (c.at? key.path) (d.at? key.path)
          = Value.sortCompareOptional (a.at? key.path) (b.at? key.path) := by
        rw [same, same']
        exact congrArg₂ Value.sortCompare first.symm second.symm
      constructor
      · simp only [SortKey.compareRows, reads]
      · intro tie
        rw [Ties, Value.read, Value.read, ← same]
        simp only [SortKey.compareRows] at tie
        cases direction : key.direction <;> simpa [direction] using tie
    · exact Or.inr (Or.inr mixed)
  · exact Or.inr (Or.inl mixed)

/-- Rows that read alike are compared alike by several keys, unless they are tied up to a key that
mixes null and nothing, by induction on the keys.
-/
theorem compareRows_eq_or_mixes {a b c d : Row} (first : ReadAlike keys a c)
    (second : ReadAlike keys b d)
    : compareRows keys a b = compareRows keys c d
      ∨ ∃ before key after,
          keys = before ++ key :: after
          ∧ (∀ earlier ∈ before, earlier.Ties a b)
          ∧ (key.Mixes a b ∨ key.Mixes c d) := by
  induction keys with
  | nil => exact Or.inl rfl
  | cons key rest ih =>
      obtain ⟨firstHere, firstRest⟩ := List.forall_mem_cons.mp first
      obtain ⟨secondHere, secondRest⟩ := List.forall_mem_cons.mp second
      rcases key.compareRows_eq_or_mixes firstHere secondHere with ⟨same, ties⟩ | mixes
      · by_cases tie : key.compareRows a b = .eq
        · rcases ih firstRest secondRest with later | ⟨before, other, after, rfl, tied, mixes⟩
          · exact Or.inl (by rw [compareRows, compareRows, same, later])
          · refine Or.inr ⟨key :: before, other, after, rfl, ?_, mixes⟩
            exact List.forall_mem_cons.mpr ⟨ties tie, tied⟩
        · left
          rw [compareRows, compareRows, ← same]
          cases order : key.compareRows a b with
          | eq => exact absurd order tie
          | lt | gt => rfl
      · exact Or.inr ⟨[], key, rest, rfl, List.forall_mem_nil _, mixes⟩

theorem rowAt_readAlike (agree : List.Forall₂ (ReadAlike keys) rows others) (place : Nat)
    : ReadAlike keys (rowAt rows place) (rowAt others place) := by
  induction agree generalizing place with
  | nil => exact fun key inside => rfl
  | cons first _ ih =>
      cases place with
      | zero => exact first
      | succ place => exact ih place

theorem Value.isFloat?_getD (value : Option Value)
    : isFloat? (some (value.getD .null)) = isFloat? value := by
  cases value <;> rfl

/-- Lists whose rows read alike have the same numbers, since a missing value reads as none. -/
theorem SortKey.NumbersAlike.of_readAlike {key : SortKey} (inside : key ∈ keys)
    (agree : List.Forall₂ (ReadAlike keys) rows others) (alike : key.NumbersAlike rows)
    : key.NumbersAlike others := by
  obtain ⟨float, kind⟩ := alike
  refine ⟨float, ?_⟩
  induction agree with
  | nil => nofun
  | @cons row other _ _ reads _ ih =>
      obtain ⟨kindHere, kindRest⟩ := List.forall_mem_cons.mp kind
      have same : Value.isFloat? (other.at? key.path) = Value.isFloat? (row.at? key.path) := by
        rw [← Value.isFloat?_getD, ← Value.isFloat?_getD (row.at? key.path)]
        exact congrArg (fun value => Value.isFloat? (some value)) (reads key inside).symm
      exact List.forall_mem_cons.mpr ⟨same ▸ kindHere, ih kindRest⟩

/-- Sorting permutes two lists of rows that read alike in the same way if and only if it exchanges
the same places in both. Places that it exchanges in one of them only are tied up to a key that, in
one of the lists, finds null at one place and nothing at the other.
-/
theorem sortedPlaces_readAlike (sorter : StableSort Row)
    (alike : ∀ key ∈ keys, key.NumbersAlike rows)
    (agree : List.Forall₂ (ReadAlike keys) rows others)
    : (sortRows sorter keys rows = some ((sortedPlaces keys rows).map (rowAt rows))
        ∧ sortRows sorter keys others = some ((sortedPlaces keys others).map (rowAt others)))
      ∧ (sortedPlaces keys rows = sortedPlaces keys others
        ↔ ∀ i j,
            i < j
            → j < rows.length
            → (Exchanges keys rows i j ↔ Exchanges keys others i j))
      ∧ ∀ i j,
          ¬(Exchanges keys rows i j ↔ Exchanges keys others i j)
          → ∃ before key after,
              keys = before ++ key :: after
              ∧ (∀ earlier ∈ before, earlier.Ties (rowAt rows i) (rowAt rows j))
              ∧ (key.Mixes (rowAt rows i) (rowAt rows j)
                  ∨ key.Mixes (rowAt others i) (rowAt others j)) := by
  have alike' : ∀ key ∈ keys, key.NumbersAlike others := fun key inside =>
    (alike key inside).of_readAlike inside agree
  refine ⟨⟨sortRows_eq_map_sortedPlaces sorter alike, sortRows_eq_map_sortedPlaces sorter alike'⟩,
    sortedPlaces_eq_iff agree.length_eq alike alike', ?_⟩
  intro i j differ
  have compared := compareRows_eq_or_mixes (rowAt_readAlike agree i) (rowAt_readAlike agree j)
  refine compared.resolve_left fun same => differ ?_
  rw [Exchanges, Exchanges, same]

/-- A row of a size, in a group or, where the group is missing, in none. -/
def groupedRow (group : Option Value) (size : Int) (fits : FitsWord size) : Row :=
  let rest := [("size", Value.number (.int size fits))]
  .object ((group.map fun group => ("group", group)).toList ++ rest)

/-- Rows whose groups are all null are permuted like rows without a group: by their sizes. -/
theorem sortedPlaces_readAlike_nullGroups
    : let keys : List SortKey := [⟨"group", .asc⟩, ⟨"size", .desc⟩]
      let rowsIn (group : Option Value) : List Row :=
        [groupedRow group 1 (by decide), groupedRow (some (.string "a")) 2 (by decide),
          groupedRow group 3 (by decide)]
      (∀ key ∈ keys, key.NumbersAlike (rowsIn (some .null)))
      ∧ List.Forall₂ (ReadAlike keys) (rowsIn (some .null)) (rowsIn none)
      ∧ sortedPlaces keys (rowsIn (some .null)) = sortedPlaces keys (rowsIn none)
      ∧ sortedPlaces keys (rowsIn none) = [2, 0, 1] := by
  intro keys rowsIn
  have alike : ∀ key ∈ keys, key.NumbersAlike (rowsIn (some .null)) := by
    intro key inside
    refine ⟨false, ?_⟩
    revert key
    decide +kernel
  have agree : List.Forall₂ (ReadAlike keys) (rowsIn (some .null)) (rowsIn none) := by
    refine .cons ?_ (.cons ?_ (.cons ?_ .nil))
    all_goals
      unfold ReadAlike
      decide +kernel
  refine ⟨alike, agree, (sortedPlaces_readAlike .insertion alike agree).2.1.mpr ?_,
    by decide +kernel⟩
  have exchanged : ∀ j < 3, ∀ i < j,
      Exchanges keys (rowsIn (some .null)) i j ↔ Exchanges keys (rowsIn none) i j := by
    decide +kernel
  exact fun i j before inside => exchanged j inside i before

/-- A row without a number passes a row in which the number is null, although neither of the rows
passes the other one when both have no number.
-/
theorem sortedPlaces_missingBeforeNull
    : let keys : List SortKey := [⟨"n", .asc⟩]
      let named (name : String) : Row := .object [("name", .string name)]
      let withNull : Row := .object [("name", .string "p"), ("n", .null)]
      (∀ key ∈ keys, key.NumbersAlike [withNull, named "q"])
      ∧ List.Forall₂ (ReadAlike keys) [withNull, named "q"] [named "p", named "q"]
      ∧ sortedPlaces keys [withNull, named "q"] = [1, 0]
      ∧ sortedPlaces keys [named "p", named "q"] = [0, 1]
      ∧ sortRows .insertion keys [withNull, named "q"] = some [named "q", withNull]
      ∧ sortRows .insertion keys [named "p", named "q"] = some [named "p", named "q"] := by
  intro keys named withNull
  refine ⟨?_, .cons ?_ (.cons ?_ .nil), ?_⟩
  · intro key inside
    refine ⟨false, ?_⟩
    revert key
    decide +kernel
  · unfold ReadAlike
    decide +kernel
  · exact fun key inside => rfl
  · decide +kernel

end FederatedQuery
