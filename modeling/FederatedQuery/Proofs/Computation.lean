import FederatedQuery.Error
import Mathlib.Data.List.Forall2

/-! Computations that end in a value or in an error. -/

namespace FederatedQuery

/-- The computation ends in an error. -/
def Fails {ε α : Type} (result : Except ε α) : Prop := ∃ error, result = .error error

namespace Fails

variable {ε α β : Type}

@[simp]
theorem error (error : ε) : Fails (Except.error error : Except ε α) := ⟨error, rfl⟩

@[simp]
theorem not_ok (value : α) : ¬Fails (Except.ok value : Except ε α) := nofun

theorem not_iff (result : Except ε α) : ¬Fails result ↔ ∃ value, result = .ok value := by
  cases result <;> simp

/-- Two steps fail when the first does, or the second on what the first has made. -/
theorem bind_iff (result : Except ε α) (next : α → Except ε β)
    : Fails (result >>= next)
      ↔ Fails result ∨ ∃ value, result = .ok value ∧ Fails (next value) := by
  cases result <;> simp [bind, Except.bind]

end Fails

/-- Two steps end in a value that the second makes of the value of the first. -/
theorem bind_eq_ok_iff {ε α β : Type} {result : Except ε α} {next : α → Except ε β} {value : β}
    : result >>= next = .ok value ↔ ∃ first, result = .ok first ∧ next first = .ok value := by
  cases result <;> simp [bind, Except.bind]

/-- The computation ends in a value. -/
def Succeeds {ε α : Type} (result : Except ε α) : Prop := ∃ value, result = .ok value

namespace Succeeds

variable {ε α β : Type}

@[simp]
theorem ok (value : α) : Succeeds (Except.ok value : Except ε α) := ⟨value, rfl⟩

@[simp]
theorem not_error (error : ε) : ¬Succeeds (Except.error error : Except ε α) := nofun

/-- Two steps succeed when the first does, and the second on what the first has made. -/
theorem bind_iff {result : Except ε α} {next : α → Except ε β}
    : Succeeds (result >>= next) ↔ ∃ value, result = .ok value ∧ Succeeds (next value) := by
  cases result <;> simp [bind, Except.bind]

/-- A step that only makes something of a value succeeds. -/
theorem bind_ok_iff {result : Except ε α} {f : α → β}
    : Succeeds (result >>= fun value => .ok (f value)) ↔ Succeeds result := by
  cases result <;> simp [bind, Except.bind]

/-- Where the second step succeeds or not whatever the first has made, both have to succeed. -/
theorem bind_iff_and {result : Except ε α} {next : α → Except ε β} {P : Prop}
    (second : ∀ value, Succeeds (next value) ↔ P)
    : Succeeds (result >>= next) ↔ Succeeds result ∧ P := by
  simp only [bind_iff, second]
  exact exists_and_right

end Succeeds

theorem map_eq_ok_iff {ε α β : Type} {result : Except ε α} {f : α → β} {value : β}
    : result.map f = .ok value ↔ ∃ first, result = .ok first ∧ f first = value := by
  cases result <;> simp [Except.map]

/-- What is seen of the value of a computation tells that it ends in one. -/
theorem toOption_map_eq_some_iff {ε α β : Type} {result : Except ε α} {f : α → β} {seen : β}
    : result.toOption.map f = some seen ↔ ∃ value, result = .ok value ∧ f value = seen := by
  cases result <;> simp [Except.toOption]

/-- A computation on each element of a list that never fails makes the list of its values, by
induction on the list.
-/
theorem mapM_eq_ok {ε α β : Type} {f : α → Except ε β} {g : α → β} {xs : List α}
    (each : ∀ x ∈ xs, f x = .ok (g x))
    : xs.mapM f = .ok (xs.map g) := by
  induction xs with
  | nil => rfl
  | cons head rest ih =>
      rw [List.mapM_cons, each head (by simp), ih fun x inside => each x (by simp [inside])]
      rfl

/-- A computation that may come to nothing, on each element of a list, makes the list of what it
makes of each, by induction on the list.
-/
theorem mapM_eq_some_iff {α β : Type} {f : α → Option β} {xs : List α} {ys : List β}
    : xs.mapM f = some ys ↔ List.Forall₂ (fun x y => f x = some y) xs ys := by
  induction xs generalizing ys with
  | nil => simp [eq_comm]
  | cons x xs ih =>
      simp only [List.mapM_cons, List.forall₂_cons_left_iff, Option.bind_eq_bind,
        Option.bind_eq_some_iff, ih]
      simp [eq_comm]

/-- Everything in the second of two related lists is related to something in the first. -/
theorem exists_of_forall₂ {α β : Type} {R : α → β → Prop} {xs : List α} {ys : List β}
    (related : List.Forall₂ R xs ys)
    : ∀ y ∈ ys, ∃ x ∈ xs, R x y := by
  induction related with
  | nil => simp
  | cons first _ ih =>
      intro y inside
      rcases List.mem_cons.mp inside with rfl | inside
      · exact ⟨_, List.mem_cons_self, first⟩
      · obtain ⟨x, among, holds⟩ := ih y inside
        exact ⟨x, List.mem_cons_of_mem _ among, holds⟩

theorem mapM_eq_none_iff {α β : Type} {f : α → Option β} {xs : List α}
    : xs.mapM f = none ↔ ∃ x ∈ xs, f x = none := by
  induction xs with
  | nil => simp
  | cons x xs ih =>
      rw [List.mapM_cons, List.exists_mem_cons_iff, ← ih]
      cases f x <;> cases xs.mapM f <;> simp

/-- Results are gathered if there is one everywhere. -/
theorem mapM_id_eq_some_iff {α : Type} {found : List (Option α)} {xs : List α}
    : found.mapM id = some xs ↔ found = xs.map some := by
  rw [mapM_eq_some_iff, ← List.forall₂_map_right_iff, ← List.forall₂_eq_eq_eq]
  rfl

/-- The computation ends in a value with a property or in an error other than a cycle of
parts.
-/
def Yields {α : Type} (P : α → Prop) : Except StructuralError α → Prop
  | .ok value => P value
  | .error error => error.kind ≠ .cyclicPlan

namespace Yields

variable {α β : Type} {P : α → Prop} {Q : β → Prop}

/-- The value in which the computation ends has the property. -/
theorem of_eq_ok {result : Except StructuralError α} {value : α} (yields : Yields P result)
    (ends : result = .ok value)
    : P value := by
  subst ends
  exact yields

/-- The error in which the computation ends is not a cycle of parts. -/
theorem of_eq_error {result : Except StructuralError α} {error : StructuralError}
    (yields : Yields P result) (ends : result = .error error)
    : error.kind ≠ .cyclicPlan := by
  subst ends
  exact yields

/-- Two steps yield what the second makes of the value of the first. -/
theorem bind {result : Except StructuralError α} {next : α → Except StructuralError β}
    (first : Yields P result)
    (second : ∀ value, P value → Yields Q (next value))
    : Yields Q (result >>= next) := by
  cases result with
  | error error => exact first
  | ok value => exact second value first

theorem value {result : Except StructuralError α} (yields : Yields P result)
    : Yields (fun value => result = .ok value ∧ P value) result := by
  cases result with
  | error error => exact yields
  | ok value => exact ⟨rfl, yields⟩

theorem mono {result : Except StructuralError α} (yields : Yields P result) {weaker : α → Prop}
    (weaken : ∀ value, P value → weaker value)
    : Yields weaker result := by
  cases result with
  | error error => exact yields
  | ok value => exact weaken value yields

theorem and {result : Except StructuralError α} {P' : α → Prop} (first : Yields P result)
    (second : Yields P' result)
    : Yields (fun value => P value ∧ P' value) result := by
  cases result with
  | error error => exact first
  | ok value => exact ⟨first, second⟩

end Yields

end FederatedQuery
