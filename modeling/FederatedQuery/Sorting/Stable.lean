/-! Stable sorting. A list has only one stable arrangement by a comparison that is an order on its
elements. A sort has to find it, and need not find anything by other comparisons.
-/

namespace FederatedQuery

variable {α : Type}

-----------------------------------------------------------------------------------------
-- Stable arrangements
-----------------------------------------------------------------------------------------

/-- The comparison is the same from both sides, and transitive on the elements. -/
structure IsOrderOn (compare : α → α → Ordering) (xs : List α) : Prop where
  swap : ∀ a b, compare b a = (compare a b).swap
  trans
    : ∀ a ∈ xs, ∀ b ∈ xs, ∀ c ∈ xs,
        (compare a b).isLE → (compare b c).isLE → (compare a c).isLE

/-- The elements are arranged by the comparison, those that it does not tell apart as they were. -/
structure ArrangesStably (compare : α → α → Ordering) (xs arranged : List α) : Prop where
  perm : arranged.Perm xs
  ordered : arranged.Pairwise fun a b => (compare a b).isLE
  stable
    : ∀ x ∈ xs,
        (arranged.filter fun y => compare x y == .eq) = xs.filter fun y => compare x y == .eq

namespace IsOrderOn

variable {compare : α → α → Ordering} {xs : List α}

theorem self (orders : IsOrderOn compare xs) (a : α) : compare a a = .eq := by
  have swap := orders.swap a a
  cases same : compare a a <;> simp [same] at swap ⊢

theorem isLE_of_ne_lt (orders : IsOrderOn compare xs) {a b : α} (behind : compare b a ≠ .lt)
    : (compare a b).isLE := by
  rw [orders.swap b a]
  cases order : compare b a <;> simp_all

theorem ne_lt_of_isLE (orders : IsOrderOn compare xs) {a b : α} (behind : (compare b a).isLE)
    : compare a b ≠ .lt := by
  intro less
  rw [orders.swap a b, less] at behind
  cases behind

theorem eq_of_isLE (orders : IsOrderOn compare xs) {a b : α} (forth : (compare a b).isLE)
    (back : (compare b a).isLE)
    : compare a b = .eq := by
  rw [orders.swap a b] at back
  cases order : compare a b <;> simp_all

theorem eq_symm (orders : IsOrderOn compare xs) {a b : α} (tie : compare a b = .eq)
    : compare b a = .eq := by
  rw [orders.swap, tie]
  rfl

theorem eq_trans (orders : IsOrderOn compare xs) {a b c : α} (ha : a ∈ xs) (hb : b ∈ xs)
    (hc : c ∈ xs) (first : compare a b = .eq) (second : compare b c = .eq)
    : compare a c = .eq := by
  have forth : (compare a c).isLE :=
    orders.trans a ha b hb c hc (by simp [first]) (by simp [second])
  have back : (compare c a).isLE :=
    orders.trans c hc b hb a ha (by simp [orders.eq_symm second]) (by simp [orders.eq_symm first])
  exact orders.eq_of_isLE forth back

theorem subset (orders : IsOrderOn compare xs) {ys : List α} (inside : ys ⊆ xs)
    : IsOrderOn compare ys where
  swap := orders.swap
  trans a ha b hb c hc := orders.trans a (inside ha) b (inside hb) c (inside hc)

/-- The reverse of a comparison. -/
theorem reverse (orders : IsOrderOn compare xs) : IsOrderOn (fun a b => (compare a b).swap) xs where
  swap a b := by rw [orders.swap a b]
  trans a ha b hb c hc first second := by
    rw [← orders.swap] at first second ⊢
    exact orders.trans c hc b hb a ha second first

/-- What the first comparison does not tell apart the second may. -/
theorem andThen (orders : IsOrderOn compare xs) {next : α → α → Ordering}
    (orders' : IsOrderOn next xs)
    : IsOrderOn (fun a b => (compare a b).then (next a b)) xs where
  swap a b := by rw [Ordering.swap_then, orders.swap a b, orders'.swap a b]
  trans a ha b hb c hc first second := by
    rw [Ordering.isLE_then_iff_and] at first second ⊢
    have ordered := orders.trans a ha b hb c hc first.1 second.1
    refine ⟨ordered, ?_⟩
    by_cases less : compare a c = .lt
    · exact Or.inl less
    -- nothing is told apart by the first comparison, so the second one decides everywhere
    · have back := orders.isLE_of_ne_lt less
      have tie := orders.ne_lt_of_isLE (orders.trans b hb c hc a ha second.1 back)
      have tie' := orders.ne_lt_of_isLE (orders.trans c hc a ha b hb back first.1)
      exact Or.inr (orders'.trans a ha b hb c hc (first.2.resolve_left tie)
        (second.2.resolve_left tie'))

end IsOrderOn

namespace ArrangesStably

variable {compare : α → α → Ordering} {xs arranged : List α}

/-- Arrangements of the same elements that leave those alike that are not told apart are equal, by
induction on the first: nothing can stand in front of the others that is told apart from what does,
and of what is not it is the first.
-/
theorem eq_of_alike (orders : IsOrderOn compare xs) {first second : List α}
    (perm : first.Perm second) (ordered : first.Pairwise fun a b => (compare a b).isLE)
    (ordered' : second.Pairwise fun a b => (compare a b).isLE)
    (alike
      : ∀ x ∈ first,
          (first.filter fun y => compare x y == .eq) = second.filter fun y => compare x y == .eq)
    : first = second := by
  induction first generalizing second with
  | nil => exact (List.nil_perm.mp perm).symm
  | cons a rest ih =>
      cases second with
      | nil => cases List.perm_nil.mp perm
      | cons b others =>
          obtain ⟨below, orderedRest⟩ := List.pairwise_cons.mp ordered
          obtain ⟨below', orderedOthers⟩ := List.pairwise_cons.mp ordered'
          have forth : (compare a b).isLE := by
            rcases List.mem_cons.mp (perm.mem_iff.mpr List.mem_cons_self) with same | inside
            · simp [same, orders.self]
            · exact below b inside
          have back : (compare b a).isLE := by
            rcases List.mem_cons.mp (perm.mem_iff.mp List.mem_cons_self) with same | inside
            · simp [same, orders.self]
            · exact below' a inside
          have same := alike a List.mem_cons_self
          simp only [List.filter_cons, orders.self, orders.eq_of_isLE forth back, beq_self_eq_true,
            if_true] at same
          obtain ⟨rfl, _⟩ := List.cons.inj same
          refine congrArg (a :: ·) (ih perm.cons_inv orderedRest orderedOthers fun x inside => ?_)
          have same := alike x (List.mem_cons_of_mem a inside)
          simp only [List.filter_cons] at same
          split at same
          · exact (List.cons.inj same).2
          · exact same

/-- There is only one stable arrangement. -/
theorem unique (orders : IsOrderOn compare xs) {other : List α}
    (first : ArrangesStably compare xs arranged) (second : ArrangesStably compare xs other)
    : arranged = other := by
  refine eq_of_alike orders (first.perm.trans second.perm.symm) first.ordered second.ordered ?_
  intro x inside
  have among := first.perm.mem_iff.mp inside
  exact (first.stable x among).trans (second.stable x among).symm

/-- Arranging a stable arrangement again, by a comparison that counts more, makes the stable
arrangement by both comparisons. What the new comparison does not tell apart stays as it was
arranged before.
-/
theorem andThen {next : α → α → Ordering} {again : List α}
    (inner : ArrangesStably next xs arranged) (outer : ArrangesStably compare arranged again)
    (self : ∀ a, compare a a = .eq)
    : ArrangesStably (fun a b => (compare a b).then (next a b)) xs again where
  perm := outer.perm.trans inner.perm
  ordered := by
    rw [List.pairwise_iff_forall_sublist]
    intro a b placed
    have ordered := List.pairwise_iff_forall_sublist.mp outer.ordered placed
    rw [Ordering.isLE_then_iff_or]
    cases order : compare a b with
    | lt => exact Or.inl rfl
    | gt => simp [order] at ordered
    | eq =>
        have inside := outer.perm.mem_iff.mp (placed.subset List.mem_cons_self)
        have placed := placed.filter fun y => compare a y == .eq
        rw [outer.stable a inside] at placed
        have before : [a, b].Sublist arranged := by
          simpa [self, order] using placed.trans List.filter_sublist
        exact Or.inr ⟨rfl, List.pairwise_iff_forall_sublist.mp inner.ordered before⟩
  stable x inside := by
    have among := inner.perm.mem_iff.mpr inside
    have both (ys : List α)
        : (ys.filter fun y => (compare x y).then (next x y) == .eq)
          = (ys.filter fun y => compare x y == .eq).filter fun y => next x y == .eq := by
      rw [List.filter_filter]
      refine List.filter_congr fun y _ => ?_
      cases compare x y <;> cases next x y <;> rfl
    have swapped (ys : List α)
        : (ys.filter fun y => compare x y == .eq).filter (fun y => next x y == .eq)
          = (ys.filter fun y => next x y == .eq).filter fun y => compare x y == .eq := by
      simp only [List.filter_filter, Bool.and_comm]
    rw [both, both, outer.stable x among, swapped, inner.stable x inside, swapped]

/-- The elements that are not told apart from one of a greater list stay as they were, too: there
are none, or there is one of the arranged list among them.
-/
theorem filter_eq (arranges : ArrangesStably compare xs arranged) {all : List α}
    (orders : IsOrderOn compare all) (inside : xs ⊆ all) {x : α} (among : x ∈ all)
    : (arranged.filter fun y => compare x y == .eq) = xs.filter fun y => compare x y == .eq := by
  by_cases tied : ∃ z ∈ xs, compare x z = .eq
  · obtain ⟨z, found, tie⟩ := tied
    have alike (y : α) (other : y ∈ all) : (compare x y == .eq) = (compare z y == .eq) := by
      rw [Bool.eq_iff_iff, beq_iff_eq, beq_iff_eq]
      constructor
      · exact orders.eq_trans (inside found) among other (orders.eq_symm tie)
      · exact orders.eq_trans among (inside found) other tie
    rw [List.filter_congr fun y kept => alike y (inside (arranges.perm.mem_iff.mp kept)),
      List.filter_congr fun y kept => alike y (inside kept), arranges.stable z found]
  · have none (y : α) (kept : y ∈ xs) : ¬(compare x y == .eq) = true := fun tie =>
      tied ⟨y, kept, eq_of_beq tie⟩
    rw [List.filter_eq_nil_iff.mpr none,
      List.filter_eq_nil_iff.mpr fun y kept => none y (arranges.perm.mem_iff.mp kept)]

end ArrangesStably

-----------------------------------------------------------------------------------------
-- Sorts
-----------------------------------------------------------------------------------------

/-- A sort by comparisons, as the standard library has one. It arranges the elements stably if the
comparison is an order on them. If it is not, the sort may leave them in any order, and it may give
up.
-/
structure StableSort (α : Type) where
  sort? : (α → α → Ordering) → List α → Option (List α)
  perm : ∀ {compare xs sorted}, sort? compare xs = some sorted → sorted.Perm xs
  stable
    : ∀ {compare xs},
        IsOrderOn compare xs
        → ∃ sorted, sort? compare xs = some sorted ∧ ArrangesStably compare xs sorted

end FederatedQuery
