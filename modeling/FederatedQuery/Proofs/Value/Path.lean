import FederatedQuery.Proofs.Text.Split
import FederatedQuery.Value.Path

/-! Following paths. A segment is one step into a value, to what is held under a key or at an index,
and a path that is put together of two is followed by following one and then the other.
-/

namespace FederatedQuery

/-- The text is a decimal numeral of the number: digits, at least one, and nothing else. -/
structure Text.IsNumeral (text : List Char) (n : Nat) : Prop where
  nonempty : text ≠ []
  digits : ∀ c ∈ text, c.isDigit = true
  value : Nat.ofDigitChars 10 text 0 = n

theorem Text.natural?_eq_some_iff {text : List Char} {n : Nat}
    : natural? text = some n ↔ IsNumeral text n := by
  have read : digitsFrom 0 text = Nat.ofDigitChars 10 text 0 := rfl
  constructor
  · intro found
    simp only [natural?, Option.ite_none_right_eq_some, Option.some.injEq] at found
    obtain ⟨shape, same⟩ := found
    simp only [Bool.and_eq_true, Bool.not_eq_true', List.isEmpty_eq_false_iff,
      List.all_eq_true] at shape
    exact ⟨shape.1, shape.2, read ▸ same⟩
  · intro numeral
    have shape : (!text.isEmpty && text.all Char.isDigit) = true := by
      simpa using ⟨numeral.nonempty, numeral.digits⟩
    rw [natural?, if_pos shape, read, numeral.value]

namespace Path

/-- An array index is a numeral, with or without a plus sign in front. -/
theorem index?_eq_some_iff {segment : String} {position : Nat}
    : index? segment = some position
      ↔ ∃ numeral,
          Text.IsNumeral numeral position
          ∧ (segment.toList = numeral ∨ segment.toList = '+' :: numeral) := by
  unfold index?
  split
  · next digits signed =>
    rw [Text.natural?_eq_some_iff, signed]
    constructor
    · intro numeral
      exact ⟨digits, numeral, Or.inr rfl⟩
    · intro written
      obtain ⟨numeral, spelled, same | same⟩ := written
      -- A plus sign is no digit, so the sign is not part of the numeral.
      · have digit := spelled.digits '+' (same ▸ List.mem_cons_self)
        simp at digit
      · exact (List.cons.inj same).2 ▸ spelled
  · next unsigned =>
    rw [Text.natural?_eq_some_iff]
    constructor
    · intro numeral
      exact ⟨_, numeral, Or.inl rfl⟩
    · intro written
      obtain ⟨numeral, spelled, same | same⟩ := written
      · exact same ▸ spelled
      · exact absurd same (unsigned numeral)

theorem joined_ne_empty (first second : String) : first ++ "." ++ second ≠ "" := by
  rw [ne_eq, ← String.toList_inj]
  simp

/-- The segments of joined texts are the pieces of each of them, unless there is one text and it is
empty.
-/
theorem segments_intercalate {texts : List String} (nonempty : texts ≠ [])
    (named : texts ≠ [""])
    : segments (String.intercalate "." texts) = texts.flatMap (Text.split '.') := by
  have joined : String.intercalate "." texts ≠ "" := by
    cases texts with
    | nil => exact absurd rfl nonempty
    | cons text rest =>
        cases rest with
        | nil => simpa using named
        | cons next rest =>
            rw [String.intercalate_cons_cons]
            exact joined_ne_empty text _
  rw [segments, if_neg joined]
  exact Text.split_intercalate nonempty

theorem segments_append {first second : String} (firstNamed : first ≠ "")
    (secondNamed : second ≠ "")
    : segments (first ++ "." ++ second) = segments first ++ segments second := by
  rw [segments, segments, segments, if_neg (joined_ne_empty first second), if_neg firstNamed,
    if_neg secondNamed]
  exact Text.split_append first second

end Path

namespace Value

/-- A segment leads to what an object holds under it as a key, or to what an array holds at the
index that it says.
-/
inductive StepsTo (segment : String) : Value → Value → Prop where
  | key {entries : Table String Value} {next : Value}
      (held : Table.get? entries segment = some next)
      : StepsTo segment (.object entries) next
  | index {items : List Value} {next : Value} {numeral : List Char} {position : Nat}
      (spelled : Text.IsNumeral numeral position)
      (written : segment.toList = numeral ∨ segment.toList = '+' :: numeral)
      (held : items[position]? = some next)
      : StepsTo segment (.array items) next

theorem step_eq_some_iff {segment : String} {value next : Value}
    : step segment value = some next ↔ StepsTo segment value next := by
  constructor
  · intro stepped
    cases value with
    | object entries => exact .key stepped
    | array items =>
        obtain ⟨position, said, held⟩ := Option.bind_eq_some_iff.mp stepped
        obtain ⟨numeral, spelled, written⟩ := Path.index?_eq_some_iff.mp said
        exact .index spelled written held
    | null | bool | number | string => cases stepped
  · intro steps
    cases steps with
    | key held => exact held
    | index spelled written held =>
        have said := Path.index?_eq_some_iff.mpr ⟨_, spelled, written⟩
        exact Option.bind_eq_some_iff.mpr ⟨_, said, held⟩

/-- A path that is put together of two leads where the second leads from where the first does. -/
theorem at?_append {first second : String} (firstNamed : first ≠ "") (secondNamed : second ≠ "")
    (value : Value)
    : value.at? (first ++ "." ++ second)
      = (value.at? first).bind fun next => next.at? second := by
  simp only [at?, Path.segments_append firstNamed secondNamed, follow_append]

end Value

end FederatedQuery
