import FederatedQuery.RuleTree
import Mathlib.Data.List.Basic

/-! The operands of a rule tree. They are read in the order of the rules, and replacing them
leaves everything else of the tree alone. Induction on trees follows the members of the
alternatives, since the functions on lists of members are the library's own.
-/

namespace FederatedQuery

/-- The tree inside a member: that of a sub-query, or a nested one. -/
def Member.inner? : Member → Option RuleTree
  | .rule _ _ => none
  | .subQuery _ _ _ tree => some tree
  | .group tree => some tree

/-- Two partial functions that are defined on the same elements of a list and make the same
list of it agree on its elements, by induction on it.
-/
theorem eq_of_filterMap_eq {α β : Type} {f g : α → Option β} {xs : List α}
    (defined : ∀ x ∈ xs, (f x).isSome = (g x).isSome)
    (same : xs.filterMap f = xs.filterMap g)
    : ∀ x ∈ xs, f x = g x := by
  induction xs with
  | nil => simp
  | cons head rest ih =>
      have definedHead := defined head (by simp)
      have definedRest : ∀ x ∈ rest, (f x).isSome = (g x).isSome := fun x inside =>
        defined x (by simp [inside])
      intro x inside
      cases left : f head with
      | none =>
          have right : g head = none := by simpa [left] using definedHead
          simp only [List.filterMap_cons, left, right] at same
          rcases List.mem_cons.mp inside with rfl | inside
          · rw [left, right]
          · exact ih definedRest same x inside
      | some value =>
          obtain ⟨other, right⟩ :=
            Option.isSome_iff_exists.mp (by simpa [left] using definedHead.symm)
          simp only [List.filterMap_cons, left, right, List.cons.injEq] at same
          rcases List.mem_cons.mp inside with rfl | inside
          · rw [left, right, same.1]
          · exact ih definedRest same.2 x inside

/-- The operands inside a member, in the order of the rules. -/
def Member.operands (member : Member) : List Operand :=
  (RuleTree.rulesOfMember member).filterMap RuleTree.operand?

/-- The bucket whose objects a rule asks for. -/
def Member.bucket? : Member → Option String
  | .subQuery _ _ _ tree => some tree.bucket
  | _ => none

/-- The buckets of the sub-queries in the tree. -/
def RuleTree.inlineBuckets (tree : RuleTree) : List String := tree.rules.filterMap Member.bucket?

/-- All buckets that a tree reads: its own and those of its sub-queries. -/
def RuleTree.bucketsRead (tree : RuleTree) : List String := tree.bucket :: tree.inlineBuckets

namespace RuleTree

/-- What holds of a tree whenever it holds of all trees inside its members holds of every
tree, by induction on the size of the tree.
-/
theorem induct {P : RuleTree → Prop}
    (step
      : ∀ bucket scope alternatives,
          (∀ members ∈ alternatives,
            ∀ member ∈ members, ∀ inner, member.inner? = some inner → P inner)
          → P (anyOf bucket scope alternatives))
    (tree : RuleTree)
    : P tree := by
  cases tree with
  | anyOf bucket scope alternatives =>
      refine step bucket scope alternatives fun members inside member among inner found => ?_
      exact induct step inner
termination_by sizeOf tree
decreasing_by
  have outer := List.sizeOf_lt_of_mem inside
  have middle := List.sizeOf_lt_of_mem among
  have small : sizeOf inner < sizeOf member := by
    cases member with
    | rule => simp [Member.inner?] at found
    | subQuery | group => rw [← Option.some.inj found]; simp +arith
  simp only [anyOf.sizeOf_spec]
  omega

-----------------------------------------------------------------------------------------
-- The functions on lists of members are the library's own
-----------------------------------------------------------------------------------------

@[simp]
theorem rulesOfMembers_eq (members : List Member)
    : rulesOfMembers members = members.flatMap rulesOfMember := by
  induction members with
  | nil => rfl
  | cons member rest ih => simp [rulesOfMembers, ih]

@[simp]
theorem rulesOfAlternatives_eq (alternatives : List Alternative)
    : rulesOfAlternatives alternatives
      = alternatives.flatMap fun members => members.flatMap rulesOfMember := by
  induction alternatives with
  | nil => rfl
  | cons members rest ih => simp [rulesOfAlternatives, ih]

@[simp]
theorem mapMembers_eq (f : Operand → Operand) (members : List Member)
    : mapMembers f members = members.map (mapMember f) := by
  induction members with
  | nil => rfl
  | cons member rest ih => simp [mapMembers, ih]

@[simp]
theorem mapAlternatives_eq (f : Operand → Operand) (alternatives : List Alternative)
    : mapAlternatives f alternatives
      = alternatives.map fun members => members.map (mapMember f) := by
  induction alternatives with
  | nil => rfl
  | cons members rest ih => simp [mapAlternatives, ih]

-----------------------------------------------------------------------------------------
-- The operands of a tree and of its members
-----------------------------------------------------------------------------------------

@[simp]
theorem operands_rule (test : Test) (operand : Operand)
    : (Member.rule test operand).operands = [operand] := rfl

@[simp]
theorem operands_subQuery (test : Test) (bucket field : String) (tree : RuleTree)
    : (Member.subQuery test bucket field tree).operands = tree.operands := rfl

@[simp]
theorem operands_group (tree : RuleTree) : (Member.group tree).operands = tree.operands := rfl

@[simp]
theorem operands_anyOf (bucket : String) (scope : Option String)
    (alternatives : List Alternative)
    : (anyOf bucket scope alternatives).operands
      = alternatives.flatMap fun members => members.flatMap Member.operands := by
  simp only [operands, rules, rulesOfAlternatives_eq, List.filterMap_flatMap]
  rfl

theorem rules_subset_of_inner? {member : Member} {inner : RuleTree}
    (found : member.inner? = some inner)
    : inner.rules ⊆ rulesOfMember member := by
  cases member with
  | rule => cases found
  | group tree => exact Option.some.inj found ▸ List.Subset.refl _
  | subQuery test bucket field tree =>
      exact Option.some.inj found ▸ List.subset_cons_self _ _

theorem operands_of_inner? {member : Member} {inner : RuleTree}
    (found : member.inner? = some inner)
    : inner.operands = member.operands := by
  cases member with
  | rule => cases found
  | subQuery | group => rw [← Option.some.inj found]; rfl

theorem rules_eq (tree : RuleTree)
    : tree.rules
      = tree.alternatives.flatMap fun members => members.flatMap rulesOfMember := by
  cases tree
  simp [rules, alternatives]

theorem mem_operands_of_member {tree : RuleTree} {members : List Member} {member : Member}
    {operand : Operand} (inside : members ∈ tree.alternatives) (among : member ∈ members)
    (read : operand ∈ member.operands)
    : operand ∈ tree.operands := by
  cases tree with
  | anyOf =>
      rw [operands_anyOf]
      exact List.mem_flatMap.mpr ⟨members, inside, List.mem_flatMap.mpr ⟨member, among, read⟩⟩

-----------------------------------------------------------------------------------------
-- Replacing the operands
-----------------------------------------------------------------------------------------

/-- Two replacements that agree on the operands of a tree give the same tree, by induction
on the tree.
-/
theorem mapOperands_congr {f g : Operand → Operand} (tree : RuleTree)
    (same : ∀ operand ∈ tree.operands, f operand = g operand)
    : tree.mapOperands f = tree.mapOperands g := by
  induction tree using induct with
  | step bucket scope alternatives ih =>
      simp only [mapOperands, mapAlternatives_eq, anyOf.injEq, true_and]
      refine List.map_congr_left fun members inside =>
        List.map_congr_left fun member among => ?_
      have agree : ∀ operand ∈ member.operands, f operand = g operand := fun operand read =>
        same operand (mem_operands_of_member inside among read)
      have inner := ih members inside member among
      cases member with
      | rule test operand => simp [mapMember, agree operand (by simp)]
      | subQuery | group => simp [mapMember, inner _ rfl agree]

/-- A replacement that fixes the operands of a tree fixes the tree, by induction on it. -/
theorem mapOperands_eq_self {f : Operand → Operand} (tree : RuleTree)
    (fixed : ∀ operand ∈ tree.operands, f operand = operand)
    : tree.mapOperands f = tree := by
  induction tree using induct with
  | step bucket scope alternatives ih =>
      simp only [mapOperands, mapAlternatives_eq, anyOf.injEq, true_and]
      refine (List.map_congr_left fun members inside => ?_).trans (List.map_id _)
      refine (List.map_congr_left fun member among => ?_).trans (List.map_id _)
      have fix : ∀ operand ∈ member.operands, f operand = operand := fun operand read =>
        fixed operand (mem_operands_of_member inside among read)
      have inner := ih members inside member among
      cases member with
      | rule test operand => simp [mapMember, fix operand (by simp)]
      | subQuery | group => simp [mapMember, inner _ rfl fix]

theorem mapMember_eq_self {f : Operand → Operand} (member : Member)
    (fixed : ∀ operand ∈ member.operands, f operand = operand)
    : mapMember f member = member := by
  cases member with
  | rule test operand => simp [mapMember, fixed operand (by simp)]
  | subQuery | group => simp [mapMember, mapOperands_eq_self _ fixed]

/-- The operands after a replacement are the replaced operands, by induction on the tree. -/
theorem operands_mapOperands (f : Operand → Operand) (tree : RuleTree)
    : (tree.mapOperands f).operands = tree.operands.map f := by
  induction tree using induct with
  | step bucket scope alternatives ih =>
      simp only [mapOperands, mapAlternatives_eq, operands_anyOf, List.flatMap_map,
        List.map_flatMap]
      refine List.flatMap_congr fun members inside => List.flatMap_congr fun member among => ?_
      have inner := ih members inside member among
      cases member with
      | rule test operand => simp [mapMember]
      | subQuery | group => simp [mapMember, inner _ rfl]

/-- The rules after a replacement are the replaced rules, by induction on the tree. -/
theorem rules_mapOperands (f : Operand → Operand) (tree : RuleTree)
    : (tree.mapOperands f).rules = tree.rules.map (mapMember f) := by
  induction tree using induct with
  | step bucket scope alternatives ih =>
      simp only [rules_eq, mapOperands, mapAlternatives_eq, RuleTree.alternatives,
        List.flatMap_map, List.map_flatMap]
      refine List.flatMap_congr fun members inside => List.flatMap_congr fun member among => ?_
      have inner := ih members inside member among
      cases member with
      | rule test operand => rfl
      | subQuery | group => simp [mapMember, rulesOfMember, inner _ rfl]

theorem bucketsRead_mapOperands (f : Operand → Operand) (tree : RuleTree)
    : (tree.mapOperands f).bucketsRead = tree.bucketsRead := by
  have same : Member.bucket? ∘ mapMember f = Member.bucket? := by
    funext member
    cases member <;> simp [mapMember, Member.bucket?]
  simp only [bucketsRead, inlineBuckets, bucket_mapOperands, rules_mapOperands,
    List.filterMap_map, same]

end RuleTree

end FederatedQuery
