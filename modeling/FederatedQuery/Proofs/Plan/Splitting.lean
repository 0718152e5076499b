import FederatedQuery.Plan.Partition
import FederatedQuery.Proofs.Computation

/-! Induction on the splitting of a tree into parts. The traversal has one case for each kind
of member, and a list of members is split from the front, each piece taking up the ids where
the one before it has stopped.
-/

namespace FederatedQuery

/-- What holds of the splits of trees, of alternatives, of members and of a member, because
each case of the traversal keeps it.
-/
structure SplitCases {ρ : Type} (catalog : Catalog ρ)
    (trees : Nat → RuleTree → List Part → Prop)
    (choices : String → Nat → List Alternative → Split (List Alternative) → Prop)
    (lists : String → Nat → Alternative → Split Alternative → Prop)
    (members : String → Nat → Member → Split Member → Prop)
    : Prop where
  tree
    : ∀ next bucket known alternatives scope split,
        catalog.scopeOf? bucket = some scope
        → choices scope (next + 1) alternatives split
        → trees next (.anyOf bucket known alternatives)
            (⟨next, .anyOf bucket (some scope) split.kept, split.dependsOn⟩ :: split.parts)
  noAlternatives : ∀ scope next, choices scope next [] (.whole [])
  alternative
    : ∀ scope next first rest head tail,
        lists scope next first head
        → choices scope (next + head.parts.length) rest tail
        → choices scope next (first :: rest) (head.combine List.cons tail)
  noMembers : ∀ scope next, lists scope next [] (.whole [])
  member
    : ∀ scope next first rest head tail,
        members scope next first head
        → lists scope (next + head.parts.length) rest tail
        → lists scope next (first :: rest) (head.combine List.cons tail)
  rule
    : ∀ scope next test operand,
        members scope next (.rule test operand) (.whole (.rule test operand))
  group
    : ∀ scope next bucket known alternatives split,
        choices scope next alternatives split
        → members scope next (.group (.anyOf bucket known alternatives))
            (split.map fun kept => .group (.anyOf bucket (some scope) kept))
  inlined
    : ∀ scope next test bucket field inner known alternatives split,
        catalog.scopeOf? bucket = some scope
        → choices scope next alternatives split
        → members scope next (.subQuery test bucket field (.anyOf inner known alternatives))
            (split.map fun kept =>
              .subQuery test bucket field (.anyOf inner (some scope) kept))
  crossing
    : ∀ scope next test bucket field tree target parts,
        catalog.scopeOf? bucket = some target
        → target ≠ scope
        → trees next tree parts
        → members scope next (.subQuery test bucket field tree)
            ⟨.rule test (.part next field), parts, [next]⟩

namespace SplitCases

open RuleTree

variable {ρ : Type} {catalog : Catalog ρ}
variable {trees : Nat → RuleTree → List Part → Prop}
variable {choices : String → Nat → List Alternative → Split (List Alternative) → Prop}
variable {lists : String → Nat → Alternative → Split Alternative → Prop}
variable {members : String → Nat → Member → Split Member → Prop}

theorem yields_scopeOf (catalog : Catalog ρ) (bucket : String)
    : Yields (catalog.scopeOf? bucket = some ·) (scopeOf catalog bucket) := by
  simp only [scopeOf]
  split
  · next found => exact found
  · simp [Yields, StructuralError.unknownBucket]

theorem yields_checkId (limits : Limits) (id : Nat)
    : Yields (fun _ => True) (checkId limits id) := by
  simp only [checkId]
  split <;> simp [Yields, StructuralError.limitExceeded]

mutual

/-- What each case keeps holds of the parts of every tree, by induction on the tree. The only
errors are too many parts and unknown buckets.
-/
theorem yields_partsOf (cases : SplitCases catalog trees choices lists members)
    (limits : Limits) (next : Nat) (tree : RuleTree)
    : Yields (trees next tree) (partsOf catalog limits next tree) := by
  match tree with
  | .anyOf bucket known alternatives =>
      simp only [partsOf]
      refine (yields_checkId limits next).bind fun _ _ => ?_
      refine (yields_scopeOf catalog bucket).bind fun scope placed => ?_
      refine (yields_splitAlternatives cases limits scope (next + 1) alternatives).bind
        fun split inner => ?_
      exact cases.tree _ _ _ _ _ _ placed inner
termination_by sizeOf tree

/-- What each case keeps holds of the splits of alternatives. -/
theorem yields_splitAlternatives (cases : SplitCases catalog trees choices lists members)
    (limits : Limits) (scope : String) (next : Nat) (alternatives : List Alternative)
    : Yields (choices scope next alternatives)
        (splitAlternatives catalog limits scope next alternatives) := by
  match alternatives with
  | [] =>
      simp only [splitAlternatives]
      exact cases.noAlternatives scope next
  | first :: rest =>
      simp only [splitAlternatives]
      refine (yields_splitMembers cases limits scope next first).bind fun head ofHead => ?_
      refine (yields_splitAlternatives cases limits scope _ rest).bind fun tail ofTail => ?_
      exact cases.alternative _ _ _ _ _ _ ofHead ofTail
termination_by sizeOf alternatives

theorem yields_splitMembers (cases : SplitCases catalog trees choices lists members)
    (limits : Limits) (scope : String) (next : Nat) (alternative : List Member)
    : Yields (lists scope next alternative)
        (splitMembers catalog limits scope next alternative) := by
  match alternative with
  | [] =>
      simp only [splitMembers]
      exact cases.noMembers scope next
  | first :: rest =>
      simp only [splitMembers]
      refine (yields_splitMember cases limits scope next first).bind fun head ofHead => ?_
      refine (yields_splitMembers cases limits scope _ rest).bind fun tail ofTail => ?_
      exact cases.member _ _ _ _ _ _ ofHead ofTail
termination_by sizeOf alternative

theorem yields_splitMember (cases : SplitCases catalog trees choices lists members)
    (limits : Limits) (scope : String) (next : Nat) (member : Member)
    : Yields (members scope next member) (splitMember catalog limits scope next member) := by
  match member with
  | .rule test operand =>
      simp only [splitMember]
      exact cases.rule scope next test operand
  | .group (.anyOf bucket known alternatives) =>
      simp only [splitMember]
      refine (yields_splitAlternatives cases limits scope next alternatives).bind
        fun split inner => ?_
      exact cases.group _ _ _ _ _ _ inner
  | .subQuery test bucket field (.anyOf inner known alternatives) =>
      simp only [splitMember]
      refine (yields_scopeOf catalog bucket).bind fun target placed => ?_
      split
      · next same =>
        subst same
        refine (yields_splitAlternatives cases limits target next alternatives).bind
          fun split inner => ?_
        exact cases.inlined _ _ _ _ _ _ _ _ _ placed inner
      · next different =>
        refine (yields_partsOf cases limits next (.anyOf inner known alternatives)).bind
          fun parts inner => ?_
        exact cases.crossing _ _ _ _ _ _ _ _ placed different inner
termination_by sizeOf member

end

end SplitCases

end FederatedQuery
