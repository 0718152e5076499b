import FederatedQuery.Error
import FederatedQuery.RuleTree.Text

/-! Plans: a query split into parts that one runner each can evaluate, and the order in which
the parts run.
-/

namespace FederatedQuery

/-- A piece of a query for one runner. -/
structure Part where
  id : Nat
  tree : RuleTree
  /-- The parts whose rows the tree refers to. -/
  dependsOn : List Nat

namespace Part

/-- The bucket from which the part selects. -/
def bucket (part : Part) : String := part.tree.bucket

/-- The scope of the part's runner; a part of no known scope has an empty one. -/
def scope (part : Part) : String := part.tree.scope.getD ""

/-- Some rule of the part reads the parameter row. -/
def readsParams (part : Part) : Bool := part.tree.readsParams

end Part

/-- A query on a bucket in parts, and the order in which they run. -/
structure Plan where
  bucket : String
  parts : List Part
  order : List Nat

namespace Plan

/-- The part in a place of the list. Compiled plans keep every part in the place of its id. -/
def part? (plan : Plan) (id : Nat) : Option Part := plan.parts[id]?

/-- Some part reads the parameter row. -/
def readsParams (plan : Plan) : Bool := plan.parts.any Part.readsParams

/-- What keeps a rule from being run in a scope with the given dependencies, if anything. -/
def problem? (scope : String) (dependsOn : List Nat) : Member → Option String
  | .subQuery _ bucket _ tree =>
      if tree.scope = some scope then none
      else some ("inline sub-query on '" ++ bucket ++ "' is outside scope '" ++ scope ++ "'")
  | .rule _ (.part id _) =>
      if dependsOn.contains id then none
      else some ("reference to undeclared part " ++ Nat.repr id)
  | _ => none

/-- The part can be run by a runner of the scope: it was compiled for that scope, so were the
sub-queries inside it, and it refers to no part but those it declares.
-/
def checkPart (plan : Plan) (id : Nat) (scope : String) : Except ExecutionError Unit :=
  match plan.part? id with
  | none => .error (.unresolvedScope id plan.bucket "no such part")
  | some part =>
      if part.scope ≠ scope then
        .error (.unresolvedScope id part.bucket
          ("part scope '" ++ part.scope ++ "' does not match runner scope '" ++ scope ++ "'"))
      else
        match part.tree.rules.findSome? (problem? scope part.dependsOn) with
        | some detail => .error (.unresolvedScope id part.bucket detail)
        | none => .ok ()

/-- The lines that describe a part. -/
def partText (part : Part) : String :=
  let dependencies :=
    match part.dependsOn with
    | [] => ""
    | ids => " depends on " ++ String.intercalate ", " (ids.map Nat.repr)
  "  part " ++ Nat.repr part.id ++ " [" ++ part.bucket ++ " @ " ++ part.scope ++ "]"
    ++ dependencies ++ "\n    " ++ part.tree.text ++ "\n"

/-- The lines that describe a plan. -/
def explain (plan : Plan) : String :=
  let count := plan.parts.length
  "Query on '" ++ plan.bucket ++ "' (" ++ Nat.repr count ++ " part"
    ++ (if count = 1 then "" else "s") ++ ")\n"
    ++ String.join (plan.parts.map partText)
    ++ "  exec order: " ++ String.intercalate " -> " (plan.order.map Nat.repr)

end Plan

end FederatedQuery
