import FederatedQuery.RuleTree
import FederatedQuery.Value.Comparison
import FederatedQuery.Value.Path

/-! Whether a row satisfies a rule tree. Rules are tried from left to right and only as far
as the answer needs them; a rule whose values are still unknown is an error once it is tried.
-/

namespace FederatedQuery

/-- The kinds of values that have to be known before a rule can be tried. -/
inductive UnboundKind where
  | parameter
  | template
  | subQuery
  | part
deriving DecidableEq

/-- The name of the kind. -/
def UnboundKind.text : UnboundKind → String
  | parameter => "parameter"
  | template => "template"
  | subQuery => "sub-query"
  | part => "part"

/-- A rule was tried although its values are unknown. -/
structure UnboundRule where
  field : String
  kind : UnboundKind
deriving DecidableEq

/-- The text of the error. -/
def UnboundRule.message (error : UnboundRule) : String :=
  "rule on '" ++ error.field ++ "' has an unbound " ++ error.kind.text ++ " value"

/-- An ordering operator accepts an order. -/
def Op.accepts : Op → Ordering → Bool
  | .gt, order => order.isGT
  | .lt, order => order.isLT
  | .gte, order => order.isGE
  | .lte, order => order.isLE
  | _, _ => false

namespace Test

/-- The field stands in the order to the value that the operator asks for. Without a field or
a common order it does not.
-/
def ordered (test : Test) (field : Option Value) (value : Value) : Bool :=
  match field.bind fun field => field.compare? value with
  | some order => test.op.accepts order
  | none => false

/-- The field, which may be missing, passes against a value written in the query. A missing
field reads as null, except that it is in no order to anything. An array offers its items to
`in` and `contains_any`.
-/
def passesLiteral (test : Test) (field : Option Value) (value : Value) : Bool :=
  let found := field.getD .null
  match test.op with
  | .present => Value.isPresent field
  | .eq => Value.equal test.foldCase found value
  | .isIn =>
      match value with
      | .array items => items.any fun item => Value.equal test.foldCase found item
      | value => Value.equal test.foldCase found value
  | .contains => Value.containsValue test.foldCase found value
  | .containsAny =>
      match value with
      | .array items => items.any fun item => Value.containsValue test.foldCase found item
      | value => Value.containsValue test.foldCase found value
  | .gt | .lt | .gte | .lte => test.ordered field value

/-- The field passes against one of several values found earlier. Whether it is present does
not depend on them.
-/
def passesValues (test : Test) (field : Option Value) (values : List Value) : Bool :=
  let found := field.getD .null
  match test.op with
  | .present => Value.isPresent field
  | .eq | .isIn => values.any fun value => Value.equal test.foldCase found value
  | .contains | .containsAny =>
      values.any fun value => Value.containsValue test.foldCase found value
  | .gt | .lt | .gte | .lte => values.any fun value => test.ordered field value

/-- The error of trying the test before its values are known. -/
def unbound (test : Test) (kind : UnboundKind) : UnboundRule := ⟨test.field, kind⟩

/-- The row satisfies the test on an operand, negation included. -/
def holds (test : Test) (operand : Operand) (row : Row) : Except UnboundRule Bool :=
  let field := row.at? test.field
  match operand with
  | .literal value => .ok (test.passesLiteral field value != test.negated)
  | .values values => .ok (test.passesValues field values != test.negated)
  | .param _ => .error (test.unbound .parameter)
  | .template _ => .error (test.unbound .template)
  | .part _ _ => .error (test.unbound .part)

end Test

namespace RuleTree

mutual

/-- The row satisfies the tree. A tree without alternatives is satisfied by every row. -/
def holds : RuleTree → Row → Except UnboundRule Bool
  | anyOf _ _ [], _ => .ok true
  | anyOf _ _ (first :: rest), row => someHolds (first :: rest) row

/-- The row satisfies one of the alternatives, the first of which decides if it holds. -/
def someHolds : List (List Member) → Row → Except UnboundRule Bool
  | [], _ => .ok false
  | members :: rest, row =>
      match allHold members row with
      | .error error => .error error
      | .ok true => .ok true
      | .ok false => someHolds rest row

/-- The row satisfies all members, the first of which decides if it fails. -/
def allHold : List Member → Row → Except UnboundRule Bool
  | [], _ => .ok true
  | member :: rest, row =>
      match memberHolds member row with
      | .error error => .error error
      | .ok false => .ok false
      | .ok true => allHold rest row

/-- The row satisfies the member. -/
def memberHolds : Member → Row → Except UnboundRule Bool
  | .rule test operand, row => test.holds operand row
  | .subQuery test _ _ _, _ => .error (test.unbound .subQuery)
  | .group tree, row => holds tree row

end

end RuleTree

end FederatedQuery
