import FederatedQuery.Text.Split

/-! Cutting texts and joining them again. The pieces of a text join to the text, and joined texts
have the pieces that each of them has.
-/

namespace FederatedQuery.Text

/-- A text without a separator is its own single piece, by induction on the text. -/
theorem cutAt_of_forall {separates : Char → Bool} {text : List Char}
    (unseparated : ∀ c ∈ text, separates c = false)
    : cutAt separates text = [text] := by
  induction text with
  | nil => rfl
  | cons c rest ih =>
      have here : separates c = false := unseparated c (by simp)
      have behind := ih fun c inside => unseparated c (by simp [inside])
      simp [cutAt, here, behind]

/-- The pieces with the separator between them are the text, by induction on the text. -/
theorem intercalate_cutAt (separator : Char) (text : List Char)
    : [separator].intercalate (cutAt (· == separator) text) = text := by
  induction text with
  | nil => rfl
  | cons c rest ih =>
      cases found : cutAt (· == separator) rest with
      | nil => exact absurd found (cutAt_ne_nil _ rest)
      | cons piece pieces =>
          rw [found] at ih
          by_cases here : c = separator
          · simp [cutAt, here, found, ih]
          · have longer : [separator].intercalate ((c :: piece) :: pieces)
                = c :: [separator].intercalate (piece :: pieces) := by
              cases pieces <;> simp
            simp [cutAt, here, found, longer, ih]

variable {separator : Char}

theorem split_ne_nil (text : String) : split separator text ≠ [] := by
  intro none
  exact cutAt_ne_nil _ _ (List.map_eq_nil_iff.mp none)

/-- No piece holds the separator. -/
theorem not_mem_of_mem_split {text piece : String} (member : piece ∈ split separator text)
    : separator ∉ piece.toList := by
  obtain ⟨chars, cut, same⟩ := List.mem_map.mp member
  subst same
  intro inside
  have differs := not_separates_of_mem_cutAt cut (by simpa using inside)
  simp at differs

/-- A text without the separator is its own single piece. -/
theorem split_of_not_mem {text : String} (absent : separator ∉ text.toList)
    : split separator text = [text] := by
  have differ : ∀ c ∈ text.toList, (c == separator) = false := by
    intro c inside
    exact beq_eq_false_iff_ne.mpr fun same => absent (same ▸ inside)
  simp [split, cutAt_of_forall differ]

/-- The pieces of a text, joined again, are the text. -/
theorem intercalate_split (separator : Char) (text : String)
    : (String.singleton separator).intercalate (split separator text) = text := by
  have restored := intercalate_cutAt separator text.toList
  rw [← String.toList_inj]
  simpa [split, Function.comp_def] using restored

/-- A separator between two texts separates their pieces. -/
theorem split_append (left right : String)
    : split separator (left ++ String.singleton separator ++ right)
      = split separator left ++ split separator right := by
  have cut : cutAt (· == separator) (left.toList ++ separator :: right.toList)
      = cutAt (· == separator) left.toList ++ cutAt (· == separator) right.toList :=
    cutAt_append (by simp) left.toList right.toList
  simp [split, cut]

/-- The pieces of joined texts are the pieces of each of them, by induction on the texts. -/
theorem split_intercalate {texts : List String} (nonempty : texts ≠ [])
    : split separator ((String.singleton separator).intercalate texts)
      = texts.flatMap (split separator) := by
  induction texts with
  | nil => exact absurd rfl nonempty
  | cons text rest ih =>
      cases rest with
      | nil => simp
      | cons next rest =>
          rw [String.intercalate_cons_cons, split_append, ih (by simp)]
          rfl

end FederatedQuery.Text
