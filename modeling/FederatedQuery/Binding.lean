import FederatedQuery.Grouping
import FederatedQuery.RuleTree
import FederatedQuery.TemplatePath
import FederatedQuery.Value.Comparison
import FederatedQuery.Value.Path

/-! Putting the values of parameter rows into rule trees. Each parameter row is bound through
the first template that reaches all its references, and rows with the same bound values share
one evaluation. A lone equality can be evaluated once for all rows and its results fanned out.
-/

namespace FederatedQuery

/-- The value of a template reference on a parameter row, where the path leads somewhere. -/
def TemplatePath.read? (path : String) (template : Template) (row : ParamRow)
    : Option Value :=
  (resolve path template).bind fun path => row.at? path

/-- The value that a reference has on a parameter row. A value that is not there is null, and
operands that are no references have none.
-/
def Operand.boundValue? (row : ParamRow) (template : Option Template)
    : Operand → Option Value
  | .param path => some (row.read path)
  | .template path =>
      some ((template.bind fun template => TemplatePath.read? path template row).getD .null)
  | _ => none

/-- The operand with a reference replaced by its value. -/
def Operand.bind (row : ParamRow) (template : Option Template) (operand : Operand)
    : Operand :=
  match operand.boundValue? row template with
  | some value => .literal value
  | none => operand

namespace RuleTree

/-- The tree with every reference to the parameter row replaced by its value. -/
def bind (tree : RuleTree) (row : ParamRow) (template : Option Template) : RuleTree :=
  tree.mapOperands (Operand.bind row template)

/-- The values that binding puts into the tree, in the order of the rules. -/
def boundValues (tree : RuleTree) (row : ParamRow) (template : Option Template)
    : List Value :=
  tree.operands.filterMap (Operand.boundValue? row template)

/-- The paths of the tree's template references. -/
def templatePaths (tree : RuleTree) : List String :=
  tree.operands.filterMap fun operand =>
    match operand with
    | .template path => some path
    | _ => none

/-- The template leads every one of the tree's references to a value that is not null. -/
def reachedBy (tree : RuleTree) (template : Template) (row : ParamRow) : Bool :=
  tree.templatePaths.all fun path =>
    match TemplatePath.read? path template row with
    | some value => !value.isNull
    | none => false

/-- The place of the first template that reaches all references. -/
def firstTemplate? (tree : RuleTree) (templates : List Template) (row : ParamRow)
    : Option Nat :=
  templates.findIdx? fun template => tree.reachedBy template row

end RuleTree

/-- Parameter rows, by their places, that are bound through one template, or through none. -/
structure TemplateGroup where
  template : Option Nat
  rows : List Nat
deriving DecidableEq

/-- The places of the parameter rows for which a test on the row holds, ascending. -/
def placesWhere (params : List ParamRow) (test : ParamRow → Bool) : List Nat :=
  (List.range params.length).filter fun place => (params[place]?).any test

/-- The groups of parameter rows by the first template that reaches a tree's references. A
tree without such references has one group of all rows.
-/
def RuleTree.templateGroups (tree : RuleTree) (params : List ParamRow)
    (templates : List Template) : List TemplateGroup :=
  if tree.readsTemplates then
    let groups := (List.range templates.length).map fun place =>
      ⟨some place, placesWhere params fun row => tree.firstTemplate? templates row == some place⟩
    groups.filter fun group => !group.rows.isEmpty
  else [⟨none, List.range params.length⟩]

/-- The parameter rows whose references no template reaches. They have no result. -/
def RuleTree.excludedRows (tree : RuleTree) (params : List ParamRow)
    (templates : List Template) : List Nat :=
  if tree.readsTemplates then
    placesWhere params fun row => tree.firstTemplate? templates row == none
  else []

/-- How the rows found for several parameter rows at once go back to each of them: by the
value of a field, which is one of the bound values.
-/
structure Fanout where
  field : String
  targets : List (Value × List Nat)
deriving DecidableEq

/-- The parameter rows to which a row that was found belongs. -/
def Fanout.matching (fanout : Fanout) (row : Row) : List Nat :=
  (fanout.targets.filter fun target => Value.equal false (row.read fanout.field) target.1).flatMap
    Prod.snd

/-- One evaluation of a bound tree, for one or more parameter rows. -/
structure BoundCall where
  tree : RuleTree
  rows : List Nat
  fanout : Option Fanout

/-- The rows found by a call that belong to one parameter row. -/
def BoundCall.share (call : BoundCall) (found : List Row) (place : Nat) : List Row :=
  match call.fanout with
  | some fanout => found.filter fun row => (fanout.matching row).contains place
  | none => if call.rows.contains place then found else []

/-- The evaluations that answer every parameter row, and the rows without a result. -/
structure BindPlan where
  calls : List BoundCall
  excluded : List Nat

namespace RuleTree

/-- The field and the reference of a plain equality on the parameter row. -/
def plainEquality? : Member → Option (String × Operand)
  | .rule test operand =>
      if operand.readsParams && test.op == .eq && !test.negated && !test.foldCase then
        some (test.field, operand)
      else none
  | _ => none

/-- The plain equality that is the tree's only reference to the parameter row and a member of
its only alternative, if the tree is of that form.
-/
def loneEquality? (tree : RuleTree) : Option (String × Operand) :=
  match tree.alternatives with
  | [members] =>
      if tree.operands.countP Operand.readsParams = 1 then members.findSome? plainEquality?
      else none
  | _ => none

/-- One call for all rows of a group: the equality is tested against all values that the rows
bind, and each row's results are those with its value.
-/
def coalescedCall (tree : RuleTree) (params : List ParamRow) (template : Option Template)
    (rows : List Nat) (field : String) (reference : Operand) : BoundCall :=
  let value := fun place =>
    (reference.boundValue? (params.getD place .null) template).getD .null
  let targets := classes value rows
  let values := targets.map Prod.fst
  let tree := tree.mapOperands fun operand =>
    if operand.readsParams then .values values else operand
  ⟨tree, rows, some ⟨field, targets⟩⟩

/-- One call for every list of values that rows of a group bind. -/
def separateCalls (tree : RuleTree) (params : List ParamRow) (template : Option Template)
    (rows : List Nat) : List BoundCall :=
  (classes (fun place => tree.boundValues (params.getD place .null) template) rows).map
    fun (_, rows) => ⟨tree.bind (params.getD (rows.headD 0) .null) template, rows, none⟩

/-- The evaluations of a tree for parameter rows. -/
def bindPlan (tree : RuleTree) (params : List ParamRow) (templates : List Template)
    (coalesce : Bool) : BindPlan :=
  let lone := if coalesce then tree.loneEquality? else none
  let calls := (tree.templateGroups params templates).flatMap fun group =>
    let template := group.template.bind fun place => templates[place]?
    match lone with
    | some (field, reference) =>
        [tree.coalescedCall params template group.rows field reference]
    | none => tree.separateCalls params template group.rows
  ⟨calls, tree.excludedRows params templates⟩

end RuleTree

end FederatedQuery
