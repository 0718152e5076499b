import FederatedQuery.Value

/-! Rule trees: what a query asks of the objects of a bucket. A tree is a choice between
alternatives, an alternative a list of members that all have to hold, and a member a rule, a
rule on the result of a sub-query, or a nested tree on the same bucket.
-/

namespace FederatedQuery

/-- The comparison that a rule makes. -/
inductive Op where
  | eq
  | gt
  | lt
  | gte
  | lte
  | isIn
  | contains
  | containsAny
  | present
deriving DecidableEq

namespace Op

/-- All operators. -/
def all : List Op := [eq, gt, lt, gte, lte, isIn, contains, containsAny, present]

/-- The token that names the operator. -/
def token : Op → String
  | eq => "=="
  | gt => ">"
  | lt => "<"
  | gte => ">="
  | lte => "<="
  | isIn => "in"
  | contains => "contains"
  | containsAny => "contains_any"
  | present => "present"

/-- The operator that a token names. -/
def ofToken? (token : String) : Option Op := all.find? fun op => op.token == token

/-- The operator can disregard case. -/
def supportsFoldCase : Op → Bool
  | eq | isIn | contains | containsAny => true
  | _ => false

/-- The operator compares by order. -/
def isOrdering : Op → Bool
  | gt | lt | gte | lte => true
  | _ => false

/-- An operator is named by its token. -/
theorem ofToken?_token (op : Op) : ofToken? op.token = some op := by
  cases op <;> decide

theorem supportsFoldCase_iff {op : Op}
    : op.supportsFoldCase = true ↔ op ∈ [eq, isIn, contains, containsAny] := by
  cases op <;> decide

/-- Only its token names an operator, since the search tests for equality. -/
theorem token_of_ofToken? {token : String} {op : Op} (found : ofToken? token = some op)
    : op.token = token := by
  simpa using List.find?_some found

end Op

/-- Which field a rule looks at and how, whatever it compares it with. -/
structure Test where
  field : String
  op : Op
  negated : Bool
  foldCase : Bool
deriving DecidableEq

/-- What a rule compares a field with. -/
inductive Operand where
  /-- A value written in the query. -/
  | literal (value : Value)
  /-- The value at a path of the parameter row. -/
  | param (path : String)
  /-- The value of the parameter row at a path with template placeholders. -/
  | template (path : String)
  /-- A field of the rows that another part of the plan finds. -/
  | part (id : Nat) (field : String)
  /-- Values found earlier. The rule holds if it holds for one of them. -/
  | values (values : List Value)
deriving DecidableEq

namespace Operand

/-- The operand is read from the parameter row through a template. -/
def isTemplate : Operand → Bool
  | template _ => true
  | _ => false

/-- The operand is read from the parameter row. -/
def readsParams : Operand → Bool
  | param _ | template _ => true
  | _ => false

/-- The part whose rows the operand stands for. -/
def part? : Operand → Option Nat
  | part id _ => some id
  | _ => none

end Operand

mutual

/-- A choice between alternatives on the objects of a bucket. No alternatives leave every
object in. The scope is that of the bucket's runner, once it is known.
-/
inductive RuleTree where
  | anyOf (bucket : String) (scope : Option String) (alternatives : List (List Member))

/-- One of the conditions of an alternative. -/
inductive Member where
  | rule (test : Test) (operand : Operand)
  /-- The rule's values are a field of the objects that a tree on another bucket selects. -/
  | subQuery (test : Test) (bucket field : String) (tree : RuleTree)
  | group (tree : RuleTree)

end

/-- Conditions that all have to hold. -/
abbrev Alternative := List Member

namespace RuleTree

/-- The bucket from which the tree selects. -/
def bucket : RuleTree → String
  | anyOf bucket _ _ => bucket

/-- The scope of the bucket's runner, if it is known. -/
def scope : RuleTree → Option String
  | anyOf _ scope _ => scope

/-- The alternatives. -/
def alternatives : RuleTree → List Alternative
  | anyOf _ _ alternatives => alternatives

/-- The tree asks nothing of an object. -/
def isEmpty (tree : RuleTree) : Bool := tree.alternatives.all List.isEmpty

mutual

/-- The rules of the tree in the order in which they are written, those of nested trees and
of sub-queries included. A sub-query's rule comes before the rules of its tree.
-/
def rules : RuleTree → List Member
  | anyOf _ _ alternatives => rulesOfAlternatives alternatives

/-- The rules of alternatives. -/
def rulesOfAlternatives : List (List Member) → List Member
  | [] => []
  | members :: rest => rulesOfMembers members ++ rulesOfAlternatives rest

/-- The rules of an alternative. -/
def rulesOfMembers : List Member → List Member
  | [] => []
  | member :: rest => rulesOfMember member ++ rulesOfMembers rest

/-- The rules of a member. -/
def rulesOfMember : Member → List Member
  | .rule test operand => [.rule test operand]
  | .subQuery test bucket field tree => .subQuery test bucket field tree :: rules tree
  | .group tree => rules tree

end

/-- The operand of a rule that does not ask a sub-query. -/
def operand? : Member → Option Operand
  | .rule _ operand => some operand
  | _ => none

/-- The operands of all rules that do not ask a sub-query, in the order of the rules. -/
def operands (tree : RuleTree) : List Operand := tree.rules.filterMap operand?

/-- Some rule reads the parameter row. -/
def readsParams (tree : RuleTree) : Bool := tree.operands.any Operand.readsParams

/-- Some rule reads the parameter row through a template. -/
def readsTemplates (tree : RuleTree) : Bool := tree.operands.any Operand.isTemplate

/-- The parts to whose rows the rules refer, in first-seen order. -/
def partRefs (tree : RuleTree) : List Nat := (tree.operands.filterMap Operand.part?).eraseDups

mutual

/-- The tree with every operand replaced, in nested trees and sub-queries too. -/
def mapOperands (f : Operand → Operand) : RuleTree → RuleTree
  | anyOf bucket scope alternatives =>
      anyOf bucket scope (mapAlternatives f alternatives)

/-- Alternatives with every operand replaced. -/
def mapAlternatives (f : Operand → Operand) : List (List Member) → List (List Member)
  | [] => []
  | members :: rest => mapMembers f members :: mapAlternatives f rest

/-- An alternative with every operand replaced. -/
def mapMembers (f : Operand → Operand) : List Member → List Member
  | [] => []
  | member :: rest => mapMember f member :: mapMembers f rest

/-- A member with every operand replaced. -/
def mapMember (f : Operand → Operand) : Member → Member
  | .rule test operand => .rule test (f operand)
  | .subQuery test bucket field tree => .subQuery test bucket field (mapOperands f tree)
  | .group tree => .group (mapOperands f tree)

end

/-- Replacing operands keeps the bucket. -/
@[simp]
theorem bucket_mapOperands (f : Operand → Operand) (tree : RuleTree)
    : (tree.mapOperands f).bucket = tree.bucket := by
  cases tree; simp [mapOperands, bucket]

/-- Replacing operands keeps the scope. -/
@[simp]
theorem scope_mapOperands (f : Operand → Operand) (tree : RuleTree)
    : (tree.mapOperands f).scope = tree.scope := by
  cases tree; simp [mapOperands, scope]

end RuleTree

end FederatedQuery
