import FederatedQuery.Plan
import FederatedQuery.Plan.ExecutionOrder
import FederatedQuery.RuleTree.Building

/-! Splitting a rule tree into parts. A sub-query in the scope of the query around it stays
where it is; one that crosses into another scope becomes a part of its own, to which the rule
then refers. Parts are numbered in the order in which the traversal meets them.
-/

namespace FederatedQuery

/-- What remains of something in its part, the parts split off from it with those split off
from them, and the ids of those that it refers to itself.
-/
structure Split (α : Type) where
  kept : α
  parts : List Part
  dependsOn : List Nat

namespace Split

/-- Nothing split off. -/
def whole {α : Type} (kept : α) : Split α := ⟨kept, [], []⟩

/-- The split of a whole from the splits of two pieces of it. -/
def combine {α β γ : Type} (f : α → β → γ) (first : Split α) (second : Split β) : Split γ :=
  ⟨f first.kept second.kept, first.parts ++ second.parts,
    first.dependsOn ++ second.dependsOn⟩

/-- The split with something else kept. -/
def map {α β : Type} (f : α → β) (split : Split α) : Split β :=
  ⟨f split.kept, split.parts, split.dependsOn⟩

end Split

namespace RuleTree

variable {ρ : Type}

/-- The scope of a registered bucket. -/
def scopeOf (catalog : Catalog ρ) (bucket : String) : Except StructuralError String :=
  match catalog.scopeOf? bucket with
  | some scope => .ok scope
  | none => .error (.unknownBucket bucket)

/-- A part may take an id as long as ids are below the greatest number of parts. -/
def checkId (limits : Limits) (id : Nat) : Except StructuralError Unit :=
  if limits.maxParts ≤ id then
    .error (.limitExceeded
      ("query needs more than " ++ Nat.repr limits.maxParts ++ " parts"))
  else .ok ()

mutual

/-- Splits a tree into a part with the id `next`, the head of the list, and the parts split
off from it, with the ids that follow.
-/
def partsOf (catalog : Catalog ρ) (limits : Limits) (next : Nat)
    : RuleTree → Except StructuralError (List Part)
  | anyOf bucket _ alternatives => do
      checkId limits next
      let scope ← scopeOf catalog bucket
      let split ← splitAlternatives catalog limits scope (next + 1) alternatives
      return ⟨next, anyOf bucket (some scope) split.kept, split.dependsOn⟩ :: split.parts

/-- Splits alternatives that run in a scope; the first part split off has the id `next`. -/
def splitAlternatives (catalog : Catalog ρ) (limits : Limits) (scope : String) (next : Nat)
    : List (List Member) → Except StructuralError (Split (List (List Member)))
  | [] => .ok (.whole [])
  | members :: rest => do
      let first ← splitMembers catalog limits scope next members
      let others ←
        splitAlternatives catalog limits scope (next + first.parts.length) rest
      return first.combine List.cons others

/-- Splits the members of an alternative. -/
def splitMembers (catalog : Catalog ρ) (limits : Limits) (scope : String) (next : Nat)
    : List Member → Except StructuralError (Split (List Member))
  | [] => .ok (.whole [])
  | member :: rest => do
      let first ← splitMember catalog limits scope next member
      let others ← splitMembers catalog limits scope (next + first.parts.length) rest
      return first.combine List.cons others

/-- Splits a member. Only a sub-query whose bucket has another scope becomes a part. -/
def splitMember (catalog : Catalog ρ) (limits : Limits) (scope : String) (next : Nat)
    : Member → Except StructuralError (Split Member)
  | .rule test operand => .ok (.whole (.rule test operand))
  | .group (anyOf bucket _ alternatives) => do
      let split ← splitAlternatives catalog limits scope next alternatives
      return split.map fun kept => .group (anyOf bucket (some scope) kept)
  | .subQuery test bucket field tree => do
      let target ← scopeOf catalog bucket
      if target = scope then
        match tree with
        | anyOf inner _ alternatives => do
            let split ← splitAlternatives catalog limits scope next alternatives
            return split.map fun kept =>
              .subQuery test bucket field (anyOf inner (some target) kept)
      else do
        let parts ← partsOf catalog limits next tree
        return ⟨.rule test (.part next field), parts, [next]⟩

end

end RuleTree

namespace Plan

variable {ρ : Type}

/-- The plan of a rule tree. -/
def ofTree (catalog : Catalog ρ) (limits : Limits) (tree : RuleTree)
    : Except StructuralError Plan := do
  let parts ← tree.partsOf catalog limits 0
  match executionOrder? (parts.map Part.dependsOn) with
  | some order => .ok ⟨tree.bucket, parts, order⟩
  | none => .error (.cyclicPlan tree.bucket)

/-- The plan of a query on a bucket. -/
def compile (catalog : Catalog ρ) (limits : Limits) (bucket : String) (query : Query)
    : Except StructuralError Plan := do
  let tree ← RuleTree.ofQuery catalog limits bucket query
  ofTree catalog limits tree

end Plan

end FederatedQuery
