import FederatedQuery.Text.Lowercase
import FederatedQuery.Text.Split

/-! Lower case of a part of a text. It is the lower case of the part alone, but for capital sigmas
that end their word in the one and not in the other.
-/

namespace FederatedQuery.Text

/-- A needle occurs in a text exactly if it is an infix of it, by induction on the text. -/
theorem occurs_eq_true_iff {needle text : List Char}
    : occurs needle text = true ↔ needle <:+: text := by
  induction text with
  | nil => simp [occurs]
  | cons c rest ih => simp [occurs, ih, List.infix_cons_iff]

/-- Lower case of a part of a text. The text before is given backwards. -/
def lowerWithin (before after : List Char) : List Char → List Char
  | [] => []
  | c :: rest =>
      let written :=
        if c = 'Σ' then [if endsWord before (rest ++ after) then 'ς' else 'σ']
        else if c = 'İ' then ['i', '\u0307']
        else [lowerOne c]
      written ++ lowerWithin (c :: before) after rest

/-- Lower case of two texts one behind the other, by induction on the first. -/
theorem lowerFrom_append (before part rest : List Char)
    : lowerFrom before (part ++ rest)
      = lowerWithin before rest part ++ lowerFrom (part.reverse ++ before) rest := by
  induction part generalizing before with
  | nil => rfl
  | cons c part ih => simp [lowerFrom, lowerWithin, ih]

theorem lowerFrom_eq_lowerWithin (before text : List Char)
    : lowerFrom before text = lowerWithin before [] text := by
  simpa [lowerFrom] using lowerFrom_append before text []

/-- A capital sigma of the part ends its word when the part stands alone, but not between the texts
before and after it, or the other way round.
-/
def SigmaChanges (before part after : List Char) : Prop :=
  ∃ left right,
    part = left ++ 'Σ' :: right
    ∧ endsWord left.reverse right ≠ endsWord (left.reverse ++ before.reverse) (right ++ after)

theorem SigmaChanges.mem {before part after : List Char} (changes : SigmaChanges before part after)
    : 'Σ' ∈ part := by
  obtain ⟨left, right, rfl, _⟩ := changes
  simp

/-- The lower case of a part depends on what stands around it only by its sigmas, by induction on
the part.
-/
theorem lowerWithin_congr {before before' after after' part : List Char}
    (alike
      : ∀ left right,
          part = left ++ 'Σ' :: right
          → endsWord (left.reverse ++ before) (right ++ after)
            = endsWord (left.reverse ++ before') (right ++ after'))
    : lowerWithin before after part = lowerWithin before' after' part := by
  induction part generalizing before before' with
  | nil => rfl
  | cons c rest ih =>
      have inner
          : lowerWithin (c :: before) after rest = lowerWithin (c :: before') after' rest := by
        refine ih fun left right split => ?_
        simpa using alike (c :: left) right (by rw [split]; rfl)
      simp only [lowerWithin, inner]
      split
      · next sigma =>
        have here := alike [] rest (by rw [sigma]; rfl)
        simp only [List.reverse_nil, List.nil_append] at here
        rw [here]
      · rfl

/-- Where no sigma changes, the lower case of a part occurs in the lower case of the text. -/
theorem occurs_lower {needle text : String} {before after : List Char}
    (split : text.toList = before ++ needle.toList ++ after)
    (alike : ¬SigmaChanges before needle.toList after)
    : occurs (lower needle).toList (lower text).toList = true := by
  have part : lowerWithin before.reverse after needle.toList = lowerFrom [] needle.toList := by
    rw [lowerFrom_eq_lowerWithin]
    refine lowerWithin_congr fun left right inside => ?_
    refine Decidable.of_not_not fun different => alike ⟨left, right, inside, ?_⟩
    simpa using Ne.symm different
  rw [occurs_eq_true_iff]
  simp only [lower, String.toList_ofList]
  rw [split, List.append_assoc, lowerFrom_append, lowerFrom_append, List.append_nil, part]
  exact ⟨_, _, List.append_assoc ..⟩

end FederatedQuery.Text
