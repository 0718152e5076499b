import FederatedQuery.Proofs.RuleTree.Meaning
import FederatedQuery.Proofs.Text.Lowercase

/-! What a tilde lets through. A test that passes also passes when case is disregarded, but for
texts in which the lower case of a sigma is not that of the sigma which is looked for.
-/

namespace FederatedQuery

namespace Value

variable {a b : Value}

theorem equal_foldCase (agree : equal false a b = true) : equal true a b = true := by
  cases a <;> cases b <;> simp_all [equal]

/-- Only in texts may something be found that is not found when case is disregarded. -/
theorem containsValue_foldCase (contained : containsValue false a b = true)
    : containsValue true a b = true ∨ ∃ text, a = .string text := by
  cases a with
  | string text => exact Or.inr ⟨text, rfl⟩
  | array items =>
      left
      simp only [containsValue, List.any_eq_true] at contained ⊢
      obtain ⟨item, inside, agree⟩ := contained
      exact ⟨item, inside, equal_foldCase agree⟩
  | null | bool | number | object => cases b <;> cases contained

end Value

/-- The values of which one has to be found. An array that is written in the query offers its items
to `in` and `contains_any`; references offer nothing.
-/
def Operand.sought (op : Op) : Operand → List Value
  | .literal (.array items) =>
      if op = .isIn ∨ op = .containsAny then items else [.array items]
  | .literal value => [value]
  | .values found => found
  | .param _ | .template _ | .part _ _ => []

namespace Test

variable {field : String} {op : Op} {operand : Operand} {row : Row}

/-- A test that may disregard case holds if it passes against one of the values. -/
theorem holds_iff_passesValue {foldCase : Bool} (supported : op.supportsFoldCase = true)
    : holds ⟨field, op, false, foldCase⟩ operand row = .ok true
      ↔ ∃ value ∈ operand.sought op,
          passesValue ⟨field, op, false, foldCase⟩ (row.at? field) value = true := by
  cases operand with
  | literal value =>
      cases op with
      | eq | isIn | contains | containsAny =>
          cases value <;> simp [holds, passesLiteral, passesValue, Operand.sought]
      | gt | lt | gte | lte | present => cases supported
  | values found =>
      cases op with
      | eq | isIn | contains | containsAny =>
          simp [holds, passesValues, passesValue, Operand.sought]
      | gt | lt | gte | lte | present => cases supported
  | param | template | part => simp [holds, Operand.sought]

/-- A value against which a test passes is one against which it passes when case is disregarded, if
it is not looked for in a text.
-/
theorem passesValue_foldCase {found : Option Value} {value : Value}
    (supported : op.supportsFoldCase = true)
    (passes : passesValue ⟨field, op, false, false⟩ found value = true)
    : passesValue ⟨field, op, false, true⟩ found value = true
      ∨ (op = .contains ∨ op = .containsAny) ∧ ∃ text, found = some (.string text) := by
  have contained (contained : Value.containsValue false (found.getD .null) value = true)
      : Value.containsValue true (found.getD .null) value = true
        ∨ ∃ text, found = some (.string text) := by
    refine (Value.containsValue_foldCase contained).imp_right fun ⟨text, same⟩ => ⟨text, ?_⟩
    cases found with
    | none => cases same
    | some found => exact congrArg some same
  cases op with
  | eq | isIn => exact Or.inl (Value.equal_foldCase passes)
  | contains => exact (contained passes).imp_right fun found => ⟨Or.inl rfl, found⟩
  | containsAny => exact (contained passes).imp_right fun found => ⟨Or.inr rfl, found⟩
  | gt | lt | gte | lte | present => cases supported

/-- A text in which no sigma of a needle changes is found to contain it, whatever the case. -/
theorem passesValue_of_not_sigmaChanges (containing : op = .contains ∨ op = .containsAny)
    {text needle : String} {before after : List Char}
    (split : text.toList = before ++ needle.toList ++ after)
    (alike : ¬Text.SigmaChanges before needle.toList after)
    : passesValue ⟨field, op, false, true⟩ (some (.string text)) (.string needle) = true := by
  rcases containing with rfl | rfl
  · exact Text.occurs_lower split alike
  · exact Text.occurs_lower split alike

/-- A row that passes a test also passes it when case is disregarded. The only exceptions are texts
in which needles are looked for, where every occurrence of a needle has a capital sigma that ends
its word there but not in the needle, or the other way round.
-/
theorem holds_foldCase (supported : op.supportsFoldCase = true)
    (matched : holds ⟨field, op, false, false⟩ operand row = .ok true)
    : holds ⟨field, op, false, true⟩ operand row = .ok true
      ∨ (op = .contains ∨ op = .containsAny)
        ∧ ∃ text, row.at? field = some (.string text)
          ∧ ∀ needle before after,
              .string needle ∈ operand.sought op
              → text.toList = before ++ needle.toList ++ after
              → Text.SigmaChanges before needle.toList after := by
  rw [holds_iff_passesValue supported] at matched ⊢
  obtain ⟨value, among, passes⟩ := matched
  refine or_iff_not_imp_left.mpr fun unmatched => ?_
  have fails (other : Value) (among : other ∈ operand.sought op)
      : ¬passesValue ⟨field, op, false, true⟩ (row.at? field) other = true :=
    fun passes => unmatched ⟨other, among, passes⟩
  obtain ⟨containing, text, found⟩ :=
    (passesValue_foldCase supported passes).resolve_left (fails value among)
  refine ⟨containing, text, found, fun needle before after among split => ?_⟩
  refine Classical.not_not.mp fun alike => fails _ among ?_
  rw [found]
  exact passesValue_of_not_sigmaChanges containing split alike

/-- A part of a word without a sigma is found in capitals, and in small letters too. -/
theorem holds_foldCase_wordStart
    : let row : Row := .object [("name", .string "ΟΔΟΣ")]
      let operand := Operand.literal (.string "ΟΔ")
      holds ⟨"name", .contains, false, false⟩ operand row = .ok true
      ∧ holds ⟨"name", .contains, false, true⟩ operand row = .ok true := by
  intro row operand
  have matched : holds ⟨"name", .contains, false, false⟩ operand row = .ok true := by
    decide +kernel
  refine ⟨matched, (holds_foldCase rfl matched).resolve_right fun excepted => ?_⟩
  obtain ⟨_, text, found, changes⟩ := excepted
  have read : row.at? "name" = some (.string "ΟΔΟΣ") := by decide +kernel
  obtain rfl : "ΟΔΟΣ" = text := Value.string.inj (Option.some.inj (read.symm.trans found))
  have changes := changes "ΟΔ" [] ['Ο', 'Σ'] List.mem_cons_self rfl
  simpa using changes.mem

/-- The sigma at the end of the needle is a final one, and that in the middle of the text is not:
nothing is found when case is disregarded.
-/
theorem holds_foldCase_innerSigma
    : let row : Row := .object [("name", .string "ΑΣΒ")]
      let operand := Operand.literal (.string "ΑΣ")
      Op.contains.supportsFoldCase = true
      ∧ holds ⟨"name", .contains, false, false⟩ operand row = .ok true
      ∧ holds ⟨"name", .contains, false, true⟩ operand row = .ok false := by
  decide +kernel

end Test

end FederatedQuery
