import FederatedQuery.Proofs.Plan.Rejoining
import FederatedQuery.Proofs.Plan.WellFormed

/-! Plans depend on the scopes of buckets only. A plan stays well formed when its buckets get other
runners and other definitions, for as long as their scopes are the same.
-/

namespace FederatedQuery

variable {ρ : Type} {first second : Catalog ρ}
  (same : ∀ bucket, first.scopeOf? bucket = second.scopeOf? bucket)

include same

/-- Which sub-queries cross depends on the scopes of their buckets, by induction on the tree. -/
theorem RuleTree.crossings_congr (tree : RuleTree) (scope : Option String)
    : tree.crossings first scope = tree.crossings second scope := by
  induction tree using RuleTree.induct generalizing scope with
  | step bucket known alternatives ih =>
      simp only [crossings, crossingsOfAlternatives_eq]
      refine List.flatMap_congr fun members inside => List.flatMap_congr fun member among => ?_
      cases member with
      | rule test operand => rfl
      | group tree => exact ih members inside _ among tree rfl scope
      | subQuery test target field tree =>
          have inner := ih members inside _ among tree rfl
          simp only [crossingsOfMember, same, inner]

theorem RuleTree.pieces_congr (tree : RuleTree) : tree.pieces first = tree.pieces second := by
  rw [pieces, pieces, same, crossings_congr same]

theorem Member.Within.congr {scope : String} {member : Member}
    (within : member.Within first scope)
    : member.Within second scope := by
  induction within with
  | rule test operand => exact .rule test operand
  | subQuery test field placed _ ih => exact .subQuery test field (same _ ▸ placed) ih
  | group bucket _ ih => exact .group bucket ih

theorem Part.Placed.congr {part : Part} (placed : part.Placed first) : part.Placed second where
  bucket := same _ ▸ placed.bucket
  tree := placed.tree
  inside members inside member among := (placed.inside members inside member among).congr same

theorem Plan.WellFormed.congr {tree : RuleTree} {plan : Plan}
    (wellFormed : plan.WellFormed first tree)
    : plan.WellFormed second tree where
  bucket := wellFormed.bucket
  root := wellFormed.root
  ids := wellFormed.ids
  count := by rw [← same, ← RuleTree.crossings_congr same, wellFormed.count]
  preorder place part here := by
    rw [← RuleTree.pieces_congr same]
    exact wellFormed.preorder place part here
  placed part inside := (wellFormed.placed part inside).congr same
  dependsOn := wellFormed.dependsOn
  later := wellFormed.later
  referenced := wellFormed.referenced
  order := wellFormed.order
  follows := wellFormed.follows
  runnable := wellFormed.runnable

end FederatedQuery
