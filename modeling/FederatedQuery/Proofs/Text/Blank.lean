import FederatedQuery.Text.Blank
import Mathlib.Data.List.TakeWhile

/-! What remains of a text without the blanks at its ends. -/

namespace FederatedQuery.Text

/-- What is left of a text without its leading blanks is what follows blanks and begins with none.
-/
theorem trimStart_eq_iff {text rest : List Char}
    : trimStart text = rest
      ↔ ∃ blanks,
          text = blanks ++ rest
          ∧ (∀ c ∈ blanks, isBlank c = true)
          ∧ ∀ c ∈ rest.head?, isBlank c = false := by
  constructor
  · intro same
    subst same
    refine ⟨text.takeWhile isBlank, List.takeWhile_append_dropWhile.symm,
      fun c inside => List.mem_takeWhile_imp inside, fun c first => ?_⟩
    have stops := List.head?_dropWhile_not isBlank text
    rwa [show (text.dropWhile isBlank).head? = some c from first] at stops
  · intro parted
    obtain ⟨blanks, rfl, skipped, begins⟩ := parted
    rw [trimStart, List.dropWhile_append_of_pos skipped]
    cases rest with
    | nil => rfl
    | cons c rest => exact List.dropWhile_cons_of_neg (by simp [begins c rfl])

/-- The text neither begins nor ends with a blank. -/
def Trimmed (text : List Char) : Prop :=
  (∀ c ∈ text.head?, isBlank c = false) ∧ ∀ c ∈ text.getLast?, isBlank c = false

instance (text : List Char) : Decidable (Trimmed text) := inferInstanceAs (Decidable (_ ∧ _))

/-- Trimming leaves no blank at either end. -/
theorem trimmed_trim (text : List Char) : Trimmed (trim text) := by
  obtain ⟨_, _, _, begins⟩ := trimStart_eq_iff.mp (rfl : trimStart text = _)
  obtain ⟨trailing, split, _, ends⟩ :=
    trimStart_eq_iff.mp (rfl : trimStart (trimStart text).reverse = _)
  have kept : trimStart text = trim text ++ trailing.reverse := by
    rw [← List.reverse_reverse (trimStart text), split, List.reverse_append]
    rfl
  refine ⟨fun c first => begins c ?_, fun c last => ends c ?_⟩
  · obtain ⟨rest, same⟩ := List.head?_eq_some_iff.mp first
    rw [kept, same]
    rfl
  · rwa [trim, List.getLast?_reverse] at last

/-- Trimming leaves a text as it is that neither begins nor ends with a blank. -/
theorem trim_eq_self_iff {text : List Char} : trim text = text ↔ Trimmed text := by
  constructor
  · intro same
    exact same ▸ trimmed_trim text
  · intro trimmed
    obtain ⟨begins, ends⟩ := trimmed
    have front : trimStart text = text := trimStart_eq_iff.mpr ⟨[], rfl, nofun, begins⟩
    have back : trimStart text.reverse = text.reverse :=
      trimStart_eq_iff.mpr ⟨[], rfl, nofun, by simpa using ends⟩
    calc trim text
      _ = (trimStart (trimStart text).reverse).reverse := rfl
      _ = text := by rw [front, back, List.reverse_reverse]

/-- Nothing is left of a text of blanks, and of no other text. -/
theorem trim_eq_nil_iff {text : List Char} : trim text = [] ↔ ∀ c ∈ text, isBlank c = true := by
  simp only [trim, List.reverse_eq_nil_iff, List.dropWhile_eq_nil_iff, List.mem_reverse]
  obtain ⟨leading, split, skipped, _⟩ := trimStart_eq_iff.mp (rfl : trimStart text = _)
  constructor
  · intro blank c inside
    rw [split] at inside
    rcases List.mem_append.mp inside with early | late
    · exact skipped c early
    · exact blank c late
  · intro blank c inside
    exact blank c (List.dropWhile_subset _ inside)

end FederatedQuery.Text
