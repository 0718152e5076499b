import FederatedQuery.Proofs.Number.Text
import FederatedQuery.Proofs.Value.Order

/-! Identity of objects beside equality of values. Objects are told apart by the text of their
identity, and rules by its value. The two differ where a string is the text of a number, and where
equal numbers have different texts.
-/

namespace FederatedQuery.Value

/-- One of the values is a number, and the other one the string that is its text. -/
inductive Spelled : Value → Value → Prop where
  | stringNumber (n : Number) : Spelled (.string n.text) (.number n)
  | numberString (n : Number) : Spelled (.number n) (.string n.text)

/-- The values are numbers that rules take for equal and that have different texts: an integer and
the float to which it is rounded, or the two zeros that are floats. An integer that no float
represents is rounded to a float of another value, so that the two numbers need not have one value.
-/
inductive Respelled : Value → Value → Prop where
  | kinds {m n : Number} (differ : m.isFloat ≠ n.isFloat) (sameUnits : m.units = n.units)
    : Respelled (.number m) (.number n)
  | zeros (negative : Bool)
    : Respelled (.number (.float (.zero negative))) (.number (.float (.zero !negative)))

variable {a b : Value} {key : String}

/-- The value is a string or a number. -/
theorem exists_of_identityKey (identified : a.identityKey = some key)
    : a = .string key ∨ ∃ n : Number, a = .number n ∧ n.text = key := by
  cases a with
  | string s => exact Or.inl (congrArg string (Option.some.inj identified))
  | number n => exact Or.inr ⟨n, rfl, Option.some.inj identified⟩
  | null | bool | array | object => cases identified

/-- Values that identify an object have one key if they are the same, or if one spells out the other.
-/
theorem identityKey_eq_iff (identified : a.identityKey = some key)
    : b.identityKey = some key ↔ a = b ∨ Spelled a b := by
  constructor
  · intro identified'
    rcases exists_of_identityKey identified with rfl | ⟨m, rfl, rfl⟩
    · rcases exists_of_identityKey identified' with rfl | ⟨n, rfl, rfl⟩
      · exact Or.inl rfl
      · exact Or.inr (.stringNumber n)
    · rcases exists_of_identityKey identified' with rfl | ⟨n, rfl, text⟩
      · exact Or.inr (.numberString m)
      · exact Or.inl (congrArg number (Number.text_injective text).symm)
  · rintro (rfl | spelled)
    · exact identified
    · cases spelled with
      | stringNumber n => exact identified
      | numberString n => exact identified

theorem Respelled.rank_eq (respelled : Respelled a b) : a.rank = 2 ∧ b.rank = 2 := by
  cases respelled <;> exact ⟨rfl, rfl⟩

theorem Respelled.ne (respelled : Respelled a b) : a ≠ b := by
  cases respelled with
  | kinds differ =>
      rintro ⟨rfl⟩
      exact differ rfl
  | zeros negative => cases negative <;> decide

/-- Equal integers are the same, and equal floats are but for the sign of zero. -/
theorem equal_number_iff_of_isFloat_eq {m n : Number} (kinds : m.isFloat = n.isFloat)
    : equal false (.number m) (.number n) = true
      ↔ number m = .number n ∨ Respelled (.number m) (.number n) := by
  constructor
  · intro agree
    rw [equal, beq_iff_eq] at agree
    cases m with
    | int m =>
        cases n with
        | int n =>
            rw [Number.compare, Int.compare_eq_eq] at agree
            subst agree
            exact Or.inl rfl
        | float => cases kinds
    | float x =>
        cases n with
        | int => cases kinds
        | float y =>
            rw [Number.compare_of_isFloat (Or.inl rfl), Int.compare_eq_eq] at agree
            rcases Binary64.units_eq_iff.mp agree with rfl | ⟨zero, zero'⟩
            · exact Or.inl rfl
            · rw [zero, zero']
              exact Or.inr (.zeros x.negative)
  · rintro (same | respelled)
    · rw [same]
      exact equal_self false _
    · cases respelled with
      | kinds differ => exact absurd kinds differ
      | zeros negative => cases negative <;> decide

/-- Equal numbers are the same or are written differently. -/
theorem equal_number_iff (m n : Number)
    : equal false (.number m) (.number n) = true
      ↔ number m = .number n ∨ Respelled (.number m) (.number n) := by
  by_cases kinds : m.isFloat = n.isFloat
  · exact equal_number_iff_of_isFloat_eq kinds
  · have float : m.isFloat = true ∨ n.isFloat = true := by
      by_contra neither
      simp_all
    rw [equal, beq_iff_eq, Number.compare_of_isFloat float, Int.compare_eq_eq]
    constructor
    · exact fun sameUnits => Or.inr (.kinds kinds sameUnits)
    · rintro (same | respelled)
      · cases same
        rfl
      · cases respelled with
        | kinds _ sameUnits => exact sameUnits
        | zeros => exact absurd rfl kinds

theorem equal_string_iff (s t : String)
    : equal false (.string s) (.string t) = true
      ↔ string s = .string t ∨ Respelled (.string s) (.string t) := by
  constructor
  · intro agree
    exact Or.inl (by simpa [equal] using agree)
  · rintro (same | respelled)
    · rw [same]
      exact equal_self false _
    · cases respelled

/-- Equal values that identify objects are the same or are numbers that are written differently. -/
theorem equal_iff_of_identityKey (identified : a.identityKey = some key)
    : equal false a b = true ↔ a = b ∨ Respelled a b := by
  by_cases ranks : a.rank = b.rank
  · rcases exists_of_identityKey identified with rfl | ⟨m, rfl, _⟩
    · obtain ⟨t, rfl⟩ := exists_string_of_rank ranks.symm
      exact equal_string_iff key t
    · obtain ⟨n, rfl⟩ := exists_number_of_rank ranks.symm
      exact equal_number_iff m n
  · refine iff_of_false (fun agree => ranks (rank_eq_of_equal agree)) ?_
    rintro (rfl | respelled)
    · exact ranks rfl
    · exact ranks (respelled.rank_eq.1.trans respelled.rank_eq.2.symm)

/-- Where keys and equality agree and where they do not: values of one key are equal numbers that
have the same text or equal strings, or one of them spells out the other.
-/
theorem identityKey_eq_iff_equal (identified : a.identityKey = some key)
    : b.identityKey = some key ↔ equal false a b = true ∧ ¬Respelled a b ∨ Spelled a b := by
  rw [identityKey_eq_iff identified, equal_iff_of_identityKey identified]
  have differ : Respelled a b → a ≠ b := Respelled.ne
  tauto

end FederatedQuery.Value
