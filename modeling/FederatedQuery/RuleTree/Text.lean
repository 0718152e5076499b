import FederatedQuery.RuleTree
import FederatedQuery.Value.Text

/-! The text that describes a rule tree in plans and logs. -/

namespace FederatedQuery

/-- The text of a test, up to the value that it compares with. -/
def Test.text (test : Test) : String :=
  test.field ++ " " ++ (if test.negated then "not " else "")
    ++ (if test.foldCase then "~" else "") ++ test.op.token ++ " "

/-- The text of an operand. References stand in braces or behind an at sign. -/
def Operand.text : Operand → String
  | .literal value => value.text
  | .param path => "\x7b." ++ path ++ "\x7d"
  | .template path => "\x7b$" ++ path ++ "\x7d"
  | .part id field => "@part[" ++ Nat.repr id ++ "]." ++ field
  | .values found => (Value.array found).text

namespace RuleTree

mutual

/-- The text of a tree: its alternatives in parentheses, joined by `or`. -/
def text : RuleTree → String
  | anyOf _ _ [] => "(true)"
  | anyOf _ _ (first :: rest) => "(" ++ membersText first ++ alternativesText rest ++ ")"

/-- The texts of further alternatives, each behind its `or`. -/
def alternativesText : List (List Member) → String
  | [] => ""
  | members :: rest => " or " ++ membersText members ++ alternativesText rest

/-- The text of an alternative: its members joined by `and`. -/
def membersText : List Member → String
  | [] => "true"
  | first :: rest => memberText first ++ furtherText rest

/-- The texts of further members, each behind its `and`. -/
def furtherText : List Member → String
  | [] => ""
  | member :: rest => " and " ++ memberText member ++ furtherText rest

/-- The text of a member. -/
def memberText : Member → String
  | .rule test operand => test.text ++ operand.text
  | .subQuery test bucket field tree =>
      test.text ++ "@" ++ bucket ++ "." ++ field ++ " " ++ text tree
  | .group tree => text tree

end

end RuleTree

end FederatedQuery
