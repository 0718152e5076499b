import FederatedQuery.Proofs.RuleTree.Operands
import FederatedQuery.Proofs.Store.Scanning

/-! A lone equality can be tested against all values of interest at once. The scan for several
values fails when the scan for one of them does, and the rows that it finds are, for each of
the values, those of the scan for that value alone and others that differ from it.
-/

namespace FederatedQuery

/-- The rule tests for equality and nothing else: no negation, and case counts. -/
structure Test.IsPlainEquality (test : Test) : Prop where
  op : test.op = .eq
  negated : test.negated = false
  foldCase : test.foldCase = false

namespace Test.IsPlainEquality

variable {test : Test}

theorem holds_literal (plain : test.IsPlainEquality) (value : Value) (row : Row)
    : test.holds (.literal value) row
      = .ok (Value.equal false (row.read test.field) value) := by
  simp [holds, passesLiteral, plain.op, plain.negated, plain.foldCase, Value.read]

theorem holds_values (plain : test.IsPlainEquality) (values : List Value) (row : Row)
    : test.holds (.values values) row
      = .ok (values.any fun value => Value.equal false (row.read test.field) value) := by
  simp [holds, passesValues, plain.op, plain.negated, plain.foldCase, Value.read]

end Test.IsPlainEquality

/-- A tree of one alternative with a rule in it, as a function of what the rule compares
with.
-/
structure RuleContext where
  bucket : String
  scope : Option String
  before : List Member
  test : Test
  after : List Member

namespace RuleContext

/-- The tree with an operand in the rule's place. -/
def fill (context : RuleContext) (operand : Operand) : RuleTree :=
  .anyOf context.bucket context.scope
    [context.before ++ .rule context.test operand :: context.after]

variable {context : RuleContext}

@[simp]
theorem bucket_fill (operand : Operand) : (context.fill operand).bucket = context.bucket := rfl

/-- Whether the members around the rule let a row be found, if the rule passes. -/
theorem holds_fill {operand : Operand} {row : Row} {passes : Bool}
    (tried : context.test.holds operand row = .ok passes)
    : (context.fill operand).holds row
      = (RuleTree.allHold context.before row).bind fun holds =>
          if holds && passes then RuleTree.allHold context.after row else .ok false :=
  RuleTree.holds_between _ _ _ _ tried

/-- A row on which the rule passes against values fares as it does against a value equal to
it, and one on which it does not fails them all alike.
-/
theorem fails_fill_values_iff (plain : context.test.IsPlainEquality) {values : List Value}
    (some : values ≠ []) (row : Row)
    : Fails ((context.fill (.values values)).holds row)
      ↔ ∃ value ∈ values, Fails ((context.fill (.literal value)).holds row) := by
  simp only [holds_fill (plain.holds_values values row),
    holds_fill (plain.holds_literal _ row)]
  cases RuleTree.allHold context.before row with
  | error error =>
      obtain ⟨value, inside⟩ := List.exists_mem_of_ne_nil values some
      exact ⟨fun _ => ⟨value, inside, Fails.error _⟩, fun _ => Fails.error _⟩
  | ok holds =>
      cases holds with
      | false => simp [Except.bind]
      | true =>
          simp only [Except.bind, Bool.true_and]
          constructor
          · intro failed
            split at failed
            · next passes =>
              obtain ⟨value, inside, equal⟩ := List.any_eq_true.mp passes
              exact ⟨value, inside, by simpa [equal] using failed⟩
            · exact absurd failed (Fails.not_ok _)
          · rintro ⟨value, inside, failed⟩
            split at failed
            · next equal =>
              have passes := List.any_eq_true.mpr ⟨value, inside, equal⟩
              simpa [passes] using failed
            · exact absurd failed (Fails.not_ok _)

/-- A row is accepted for a value if it is accepted for values with this one among them and
its field is equal to the value.
-/
theorem accepts_fill_literal (plain : context.test.IsPlainEquality) {values : List Value}
    {value : Value} (inside : value ∈ values) (row : Row)
    : (context.fill (.literal value)).accepts row
      = ((context.fill (.values values)).accepts row
          && Value.equal false (row.read context.test.field) value) := by
  simp only [RuleTree.accepts, holds_fill (plain.holds_values values row),
    holds_fill (plain.holds_literal _ row)]
  cases RuleTree.allHold context.before row with
  | error error => rfl
  | ok holds =>
      cases holds with
      | false => rfl
      | true =>
          simp only [Except.bind, Bool.true_and]
          cases equal : Value.equal false (row.read context.test.field) value with
          | false => simp
          | true =>
              have passes := List.any_eq_true.mpr ⟨value, inside, equal⟩
              simp [passes]

/-- A scan answers the sub-queries around the rule and then selects; the rule itself asks
none.
-/
theorem scan_fill (store : Store) (context : RuleContext) (operand : Operand)
    : store.scan (context.fill operand)
      = (store.resolveMembers context.before).bind fun before =>
          (store.resolveMembers context.after).bind fun after =>
            store.select ({ context with before, after }.fill operand) := by
  simp only [fill, Store.scan, Store.resolveAlternatives, Store.resolveMembers_append,
    Store.resolveMembers, Store.resolveMember, bind, pure, Except.pure]
  cases store.resolveMembers context.before with
  | error error => rfl
  | ok before =>
      cases store.resolveMembers context.after with
      | error error => rfl
      | ok after => rfl

theorem fails_select_values_iff (store : Store) (plain : context.test.IsPlainEquality)
    {values : List Value} (some : values ≠ [])
    : Fails (store.select (context.fill (.values values)))
      ↔ ∃ value ∈ values, Fails (store.select (context.fill (.literal value))) := by
  simp only [Store.fails_select_iff, bucket_fill, fails_fill_values_iff plain some]
  obtain ⟨first, among⟩ := List.exists_mem_of_ne_nil values some
  constructor
  · intro either
    rcases either with missing | ⟨row, inside, value, chosen, failed⟩
    · exact ⟨first, among, Or.inl missing⟩
    · exact ⟨value, chosen, Or.inr ⟨row, inside, failed⟩⟩
  · rintro ⟨value, chosen, missing | ⟨row, inside, failed⟩⟩
    · exact Or.inl missing
    · exact Or.inr ⟨row, inside, value, chosen, failed⟩

/-- Selecting for one of several values finds what selecting for all finds with that value in
the field.
-/
theorem select_literal {store : Store} (plain : context.test.IsPlainEquality)
    {values : List Value} {value : Value} (inside : value ∈ values) {found : List Row}
    (selected : store.select (context.fill (.values values)) = .ok found)
    : store.select (context.fill (.literal value))
      = .ok (found.filter fun row => Value.equal false (row.read context.test.field) value) := by
  have some := List.ne_nil_of_mem inside
  have sound : ¬Fails (store.select (context.fill (.literal value))) := by
    intro failed
    have fails := (fails_select_values_iff store plain some).mpr ⟨value, inside, failed⟩
    exact Fails.not_ok _ (selected ▸ fails)
  obtain ⟨rows, alone⟩ := (Fails.not_iff _).mp sound
  rw [alone, Store.select_eq_filter alone, Store.select_eq_filter selected, bucket_fill,
    bucket_fill, List.filter_filter]
  congr 1
  refine List.filter_congr fun row _ => ?_
  rw [accepts_fill_literal plain inside, Bool.and_comm]

/-- Scanning for values fails when scanning for one of them does: the sub-queries around the
rule are the same for all of them.
-/
theorem fails_scan_values_iff (store : Store) (plain : context.test.IsPlainEquality)
    {values : List Value} (some : values ≠ [])
    : Fails (store.scan (context.fill (.values values)))
      ↔ ∃ value ∈ values, Fails (store.scan (context.fill (.literal value))) := by
  obtain ⟨first, among⟩ := List.exists_mem_of_ne_nil values some
  have failing {error : StoreError}
      : Fails (Except.error error : Except StoreError (List Row))
        ↔ ∃ value ∈ values, Fails (Except.error error : Except StoreError (List Row)) :=
    ⟨fun failed => ⟨first, among, failed⟩, fun ⟨_, _, failed⟩ => failed⟩
  simp only [scan_fill]
  cases store.resolveMembers context.before with
  | error error => exact failing
  | ok before =>
      cases store.resolveMembers context.after with
      | error error => exact failing
      | ok after =>
          let resolved : RuleContext := { context with before, after }
          exact fails_select_values_iff store (show resolved.test.IsPlainEquality from plain) some

/-- Scanning for one of several values finds what scanning for all finds with that value in
the field.
-/
theorem scan_literal {store : Store} (plain : context.test.IsPlainEquality)
    {values : List Value} {value : Value} (inside : value ∈ values) {found : List Row}
    (scanned : store.scan (context.fill (.values values)) = .ok found)
    : store.scan (context.fill (.literal value))
      = .ok (found.filter fun row => Value.equal false (row.read context.test.field) value) := by
  simp only [scan_fill] at scanned ⊢
  cases before : store.resolveMembers context.before with
  | error error => simp [before, Except.bind] at scanned
  | ok before' =>
      cases after : store.resolveMembers context.after with
      | error error => simp [before, after, Except.bind] at scanned
      | ok after' =>
          simp only [before, after, Except.bind] at scanned
          let resolved : RuleContext := { context with before := before', after := after' }
          exact select_literal (show resolved.test.IsPlainEquality from plain) inside scanned

end RuleContext

end FederatedQuery
