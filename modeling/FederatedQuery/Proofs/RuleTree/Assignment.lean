import FederatedQuery.Proofs.RuleTree.Operands
import FederatedQuery.RuleTree.Matching

/-! Truth of a rule tree under an assignment of truth values to its rules. Matching a row
computes it once every rule has an answer on the row, whatever the rules have been replaced by
on the way there.
-/

namespace FederatedQuery

/-- The member is a rule, on a value or on the result of a sub-query. -/
def Member.isRule : Member → Bool
  | .rule _ _ | .subQuery _ _ _ _ => true
  | .group _ => false

namespace RuleTree

/-- The rule decides about rows of the tree's bucket: it is a member of an alternative, or
decides in a nested tree. Rules inside the trees of sub-queries do not.
-/
inductive Decides (rule : Member) : RuleTree → Prop where
  | member {bucket : String} {scope : Option String} {alternatives : List Alternative}
      {members : Alternative} (inside : members ∈ alternatives) (among : rule ∈ members)
      (isRule : rule.isRule = true)
      : Decides rule (anyOf bucket scope alternatives)
  | group {bucket : String} {scope : Option String} {alternatives : List Alternative}
      {members : Alternative} {tree : RuleTree} (inside : members ∈ alternatives)
      (among : .group tree ∈ members) (decides : Decides rule tree)
      : Decides rule (anyOf bucket scope alternatives)

mutual

/-- The tree is true: it has no alternatives, or one of them is true. -/
def isTrue (truth : Member → Bool) : RuleTree → Bool
  | anyOf _ _ alternatives => alternatives.isEmpty || someTrue truth alternatives

/-- One of the alternatives is true. -/
def someTrue (truth : Member → Bool) : List (List Member) → Bool
  | [] => false
  | members :: rest => allTrue truth members || someTrue truth rest

/-- All members are true. -/
def allTrue (truth : Member → Bool) : List Member → Bool
  | [] => true
  | member :: rest => memberTrue truth member && allTrue truth rest

/-- The member is true, which of a rule the assignment says. -/
def memberTrue (truth : Member → Bool) : Member → Bool
  | .group tree => isTrue truth tree
  | .rule test operand => truth (.rule test operand)
  | .subQuery test bucket field tree => truth (.subQuery test bucket field tree)

end

mutual

/-- The tree with every rule that decides about its rows replaced. -/
def mapRules (f : Member → Member) : RuleTree → RuleTree
  | anyOf bucket scope alternatives => anyOf bucket scope (mapRulesOfAlternatives f alternatives)

/-- Alternatives with every rule replaced. -/
def mapRulesOfAlternatives (f : Member → Member) : List (List Member) → List (List Member)
  | [] => []
  | members :: rest => mapRulesOfMembers f members :: mapRulesOfAlternatives f rest

/-- An alternative with every rule replaced. -/
def mapRulesOfMembers (f : Member → Member) : List Member → List Member
  | [] => []
  | member :: rest => mapRule f member :: mapRulesOfMembers f rest

/-- A rule replaced, or a nested tree with its rules replaced. -/
def mapRule (f : Member → Member) : Member → Member
  | .group tree => .group (mapRules f tree)
  | .rule test operand => f (.rule test operand)
  | .subQuery test bucket field tree => f (.subQuery test bucket field tree)

end

@[simp]
theorem allTrue_eq (truth : Member → Bool) (members : List Member)
    : allTrue truth members = members.all (memberTrue truth) := by
  induction members with
  | nil => rfl
  | cons member rest ih => simp [allTrue, ih]

@[simp]
theorem someTrue_eq (truth : Member → Bool) (alternatives : List Alternative)
    : someTrue truth alternatives
      = alternatives.any fun members => members.all (memberTrue truth) := by
  induction alternatives with
  | nil => rfl
  | cons members rest ih => simp [someTrue, ih]

theorem isTrue_anyOf (truth : Member → Bool) (bucket : String) (scope : Option String)
    (alternatives : List Alternative)
    : (anyOf bucket scope alternatives).isTrue truth
      = (alternatives.isEmpty
          || alternatives.any fun members => members.all (memberTrue truth)) := by
  simp only [isTrue, someTrue_eq]

theorem memberTrue_of_isRule {truth : Member → Bool} {rule : Member}
    (isRule : rule.isRule = true)
    : memberTrue truth rule = truth rule := by
  cases rule with
  | rule | subQuery => simp only [memberTrue]
  | group => cases isRule

theorem mapRule_of_isRule {f : Member → Member} {rule : Member} (isRule : rule.isRule = true)
    : mapRule f rule = f rule := by
  cases rule with
  | rule | subQuery => simp only [mapRule]
  | group => cases isRule

@[simp]
theorem mapRulesOfMembers_eq (f : Member → Member) (members : List Member)
    : mapRulesOfMembers f members = members.map (mapRule f) := by
  induction members with
  | nil => rfl
  | cons member rest ih => simp [mapRulesOfMembers, ih]

@[simp]
theorem mapRulesOfAlternatives_eq (f : Member → Member) (alternatives : List Alternative)
    : mapRulesOfAlternatives f alternatives
      = alternatives.map fun members => members.map (mapRule f) := by
  induction alternatives with
  | nil => rfl
  | cons members rest ih => simp [mapRulesOfAlternatives, ih]

-----------------------------------------------------------------------------------------
-- Matching a row
-----------------------------------------------------------------------------------------

variable {f resolve : Member → Member} {row : Row} {truth : Member → Bool}

/-- Replaced members that all have an answer hold together if all answers are yes. -/
theorem allHold_map {members : List Member}
    (answers
      : ∀ member ∈ members, memberHolds (f member) row = .ok (memberTrue truth member))
    : allHold (members.map f) row = .ok (members.all (memberTrue truth)) := by
  induction members with
  | nil => rfl
  | cons member rest ih =>
      have later := ih fun other among => answers other (by simp [among])
      cases first : memberTrue truth member <;>
        simp [allHold, answers member (by simp), first, later]

/-- Of alternatives whose replaced members all have an answer one holds if all answers in it are
yes.
-/
theorem someHolds_map {alternatives : List Alternative}
    (answers
      : ∀ members ∈ alternatives, ∀ member ∈ members,
          memberHolds (f member) row = .ok (memberTrue truth member))
    : someHolds (alternatives.map fun members => members.map f) row
      = .ok (alternatives.any fun members => members.all (memberTrue truth)) := by
  induction alternatives with
  | nil => rfl
  | cons members rest ih =>
      have now := allHold_map (answers members (by simp))
      have later := ih fun other inside => answers other (by simp [inside])
      rw [List.map_cons, someHolds, now, List.any_cons]
      cases members.all (memberTrue truth) with
      | true => rfl
      | false => exact later

/-- A row matches a tree whose rules have been replaced if the tree is true under the answers of
the replaced rules, by induction on the tree.
-/
theorem holds_mapRules (tree : RuleTree)
    (answers : ∀ rule, Decides rule tree → memberHolds (resolve rule) row = .ok (truth rule))
    : (tree.mapRules resolve).holds row = .ok (tree.isTrue truth) := by
  induction tree using induct with
  | step bucket scope alternatives ih =>
      have each : ∀ members ∈ alternatives, ∀ member ∈ members,
          memberHolds (mapRule resolve member) row = .ok (memberTrue truth member) := by
        intro members inside member among
        by_cases isRule : member.isRule = true
        · rw [mapRule_of_isRule isRule, memberTrue_of_isRule isRule]
          exact answers member (.member inside among isRule)
        · cases member with
          | rule | subQuery => exact absurd rfl isRule
          | group tree =>
              exact ih members inside _ among tree rfl fun rule decides =>
                answers rule (.group inside among decides)
      have matched := someHolds_map each
      rw [mapRules, mapRulesOfAlternatives_eq, isTrue_anyOf]
      cases alternatives with
      | nil => rfl
      | cons => exact matched

end RuleTree

end FederatedQuery
