/-! Cutting text at separators, and looking for one text inside another.
Every function is a recursion over the characters, so that its laws are inductions.
-/

namespace FederatedQuery.Text

/-- The pieces between the separators. There is always at least one piece, and text without
a separator is its own single piece.
-/
def cutAt (separates : Char → Bool) : List Char → List (List Char)
  | [] => [[]]
  | c :: rest =>
      if separates c then [] :: cutAt separates rest
      else
        match cutAt separates rest with
        | [] => [[c]]
        | piece :: pieces => (c :: piece) :: pieces

/-- The pieces of a string between occurrences of one character. -/
def split (separator : Char) (text : String) : List String :=
  (cutAt (· == separator) text.toList).map String.ofList

/-- The texts before and after the first separator, if there is one. -/
def cutFirst (separator : Char) : List Char → Option (List Char × List Char)
  | [] => none
  | c :: rest =>
      if c = separator then some ([], rest)
      else (cutFirst separator rest).map fun (before, after) => (c :: before, after)

/-- The texts before and after the last separator, if there is one. -/
def cutLast (separator : Char) : List Char → Option (List Char × List Char)
  | [] => none
  | c :: rest =>
      match cutLast separator rest with
      | some (before, after) => some (c :: before, after)
      | none => if c = separator then some ([], rest) else none

/-- The needle occurs in the text as a run of consecutive characters. -/
def occurs (needle : List Char) : List Char → Bool
  | [] => needle.isEmpty
  | c :: rest => needle.isPrefixOf (c :: rest) || occurs needle rest

/-- There is at least one piece, by cases on the text. -/
theorem cutAt_ne_nil (separates : Char → Bool) (text : List Char)
    : cutAt separates text ≠ [] := by
  cases text with
  | nil => simp [cutAt]
  | cons c rest =>
      simp only [cutAt]
      split
      · simp
      · split <;> simp

/-- A separator between two texts separates their pieces, by induction on the first text. -/
theorem cutAt_append {separates : Char → Bool} {separator : Char}
    (found : separates separator) (left right : List Char)
    : cutAt separates (left ++ separator :: right)
      = cutAt separates left ++ cutAt separates right := by
  induction left with
  | nil => simp [cutAt, found]
  | cons c rest ih =>
      by_cases h : separates c
      · simp [cutAt, h, ih]
      · simp only [List.cons_append, cutAt, h, ih]
        cases hr : cutAt separates rest with
        | nil => exact absurd hr (cutAt_ne_nil separates rest)
        | cons piece pieces => simp

/-- No piece holds a separator, by induction on the text. -/
theorem not_separates_of_mem_cutAt {separates : Char → Bool} {text piece : List Char}
    (member : piece ∈ cutAt separates text) {c : Char} (inside : c ∈ piece)
    : separates c = false := by
  induction text generalizing piece with
  | nil => simp_all [cutAt]
  | cons head rest ih =>
      simp only [cutAt] at member
      split at member
      · rcases List.mem_cons.mp member with rfl | member
        · simp at inside
        · exact ih member inside
      · next unseparated =>
        split at member
        · next none => exact absurd none (cutAt_ne_nil separates rest)
        · next first tail found =>
          rcases List.mem_cons.mp member with rfl | member
          · rcases List.mem_cons.mp inside with rfl | inside
            · simpa using unseparated
            · exact ih (by simp [found]) inside
          · exact ih (by simp [found, member]) inside

/-- A text is cut at its first separator, by induction on the text before it. -/
theorem cutFirst_eq_some_iff {separator : Char} {text before after : List Char}
    : cutFirst separator text = some (before, after)
      ↔ text = before ++ separator :: after ∧ separator ∉ before := by
  induction before generalizing text with
  | nil =>
      cases text with
      | nil => simp [cutFirst]
      | cons c rest => by_cases found : c = separator <;> simp [cutFirst, found]
  | cons first others ih =>
      cases text with
      | nil => simp [cutFirst]
      | cons c rest =>
          by_cases found : c = separator
          · simp +contextual [cutFirst, found, eq_comm]
          · have cut : cutFirst separator (c :: rest) = some (first :: others, after)
                ↔ c = first ∧ cutFirst separator rest = some (others, after) := by
              cases inner : cutFirst separator rest <;>
                simp [cutFirst, found, inner, Prod.ext_iff, and_assoc]
            rw [cut, ih]
            grind

/-- Only a text with the separator is cut, by induction on the text. -/
theorem cutLast_eq_none_iff {separator : Char} {text : List Char}
    : cutLast separator text = none ↔ separator ∉ text := by
  induction text with
  | nil => simp [cutLast]
  | cons c rest ih =>
      simp only [cutLast, List.mem_cons, not_or, ← ih]
      cases cutLast separator rest with
      | none => simp [eq_comm]
      | some parts => simp

/-- A text is cut at its last separator, by induction on the text and on what comes before. -/
theorem cutLast_eq_some_iff {separator : Char} {text before after : List Char}
    : cutLast separator text = some (before, after)
      ↔ text = before ++ separator :: after ∧ separator ∉ after := by
  constructor
  · intro cut
    induction text generalizing before with
    | nil => cases cut
    | cons c rest ih =>
        simp only [cutLast] at cut
        split at cut
        · next found =>
          cases cut
          obtain ⟨same, absent⟩ := ih found
          exact ⟨congrArg (c :: ·) same, absent⟩
        · next none =>
          split at cut
          · next here =>
            cases cut
            exact ⟨by rw [here, List.nil_append], cutLast_eq_none_iff.mp none⟩
          · cases cut
  · intro split
    obtain ⟨same, absent⟩ := split
    subst same
    induction before with
    | nil => simp [cutLast, cutLast_eq_none_iff.mpr absent]
    | cons c rest ih => simp [cutLast, ih]

end FederatedQuery.Text
