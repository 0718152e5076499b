import FederatedQuery.Proofs.RuleTree.Assignment
import FederatedQuery.Proofs.RuleTree.Meaning

/-! Trying rows against trees of which some rules still refer to something. Rules are tried only as
far as the answer needs them, so an answer that is given stands whatever is filled in for the
references; and a tree without references always gives one.
-/

namespace FederatedQuery

/-- The rule has values to compare with. -/
def Member.isBound : Member → Bool
  | .rule _ operand => operand.isBound
  | .subQuery _ _ _ _ | .group _ => false

/-- The row passes the rule, its negation included. Nothing passes a rule without values. -/
def Member.passes (row : Row) : Member → Bool
  | .rule test operand => test.meets .null operand row
  | .subQuery _ _ _ _ | .group _ => false

mutual

/-- The second tree is the first with values in the place of what some of its rules refer to. Every
rule is given values of its own.
-/
inductive RuleTree.FilledIn : RuleTree → RuleTree → Prop where
  | anyOf {bucket : String} {scope : Option String} {alternatives filled : List Alternative}
      (each : List.Forall₂ (List.Forall₂ Member.FilledIn) alternatives filled)
      : RuleTree.FilledIn (.anyOf bucket scope alternatives) (.anyOf bucket scope filled)

/-- The second member is the first with values filled in. -/
inductive Member.FilledIn : Member → Member → Prop where
  | kept (member : Member) : Member.FilledIn member member
  | reference {test : Test} {operand values : Operand} (unbound : operand.isBound = false)
      (bound : values.isBound = true)
      : Member.FilledIn (.rule test operand) (.rule test values)
  | subQuery {test : Test} {bucket field : String} {tree : RuleTree} {values : Operand}
      (bound : values.isBound = true)
      : Member.FilledIn (.subQuery test bucket field tree) (.rule test values)
  | group {tree filled : RuleTree} (inner : RuleTree.FilledIn tree filled)
      : Member.FilledIn (.group tree) (.group filled)

end

namespace RuleTree

variable {row : Row} {answer : Bool}

/-- Members answer yes together when each of them does, and no when one does and those before it
say yes.
-/
theorem allHold_cons_eq_ok_iff {member : Member} {rest : List Member}
    : allHold (member :: rest) row = .ok answer
      ↔ memberHolds member row = .ok false ∧ answer = false
        ∨ memberHolds member row = .ok true ∧ allHold rest row = .ok answer := by
  rw [allHold]
  cases memberHolds member row with
  | error error => simp
  | ok holds => cases holds <;> simp [eq_comm]

theorem someHolds_cons_eq_ok_iff {members : List Member} {rest : List (List Member)}
    : someHolds (members :: rest) row = .ok answer
      ↔ allHold members row = .ok true ∧ answer = true
        ∨ allHold members row = .ok false ∧ someHolds rest row = .ok answer := by
  rw [someHolds]
  cases allHold members row with
  | error error => simp
  | ok holds => cases holds <;> simp [eq_comm]

end RuleTree

theorem Test.holds_ne_ok {test : Test} {operand : Operand} (unbound : operand.isBound = false)
    (row : Row) (answer : Bool)
    : test.holds operand row ≠ .ok answer := by
  cases operand with
  | literal | values => cases unbound
  | param | template | part => simp [holds]

namespace RuleTree

mutual

/-- Filling in values keeps the answer of a tree. -/
theorem FilledIn.holds {tree filled : RuleTree} {row : Row} {answer : Bool}
    (fills : tree.FilledIn filled) (answered : tree.holds row = .ok answer)
    : filled.holds row = .ok answer := by
  cases fills with
  | anyOf each =>
      cases each with
      | nil => exact answered
      | cons first rest =>
          simp only [RuleTree.holds] at answered ⊢
          exact someHolds_filledIn (.cons first rest) answered
termination_by sizeOf tree

/-- Filling in values keeps the answer of alternatives. -/
theorem someHolds_filledIn {alternatives filled : List Alternative} {row : Row} {answer : Bool}
    (each : List.Forall₂ (List.Forall₂ Member.FilledIn) alternatives filled)
    (answered : someHolds alternatives row = .ok answer)
    : someHolds filled row = .ok answer := by
  cases each with
  | nil => exact answered
  | cons first rest =>
      rw [someHolds_cons_eq_ok_iff] at answered ⊢
      rcases answered with ⟨yes, same⟩ | ⟨no, later⟩
      · exact Or.inl ⟨allHold_filledIn first yes, same⟩
      · exact Or.inr ⟨allHold_filledIn first no, someHolds_filledIn rest later⟩
termination_by sizeOf alternatives

/-- Filling in values keeps the answer of members that have to hold together. -/
theorem allHold_filledIn {members filled : List Member} {row : Row} {answer : Bool}
    (each : List.Forall₂ Member.FilledIn members filled)
    (answered : allHold members row = .ok answer)
    : allHold filled row = .ok answer := by
  cases each with
  | nil => exact answered
  | cons first rest =>
      rw [allHold_cons_eq_ok_iff] at answered ⊢
      rcases answered with ⟨no, same⟩ | ⟨yes, later⟩
      · exact Or.inl ⟨memberHolds_filledIn first no, same⟩
      · exact Or.inr ⟨memberHolds_filledIn first yes, allHold_filledIn rest later⟩
termination_by sizeOf members

/-- Filling in values keeps the answer of a member, since a rule without values gives none. -/
theorem memberHolds_filledIn {member filled : Member} {row : Row} {answer : Bool}
    (fills : member.FilledIn filled) (answered : memberHolds member row = .ok answer)
    : memberHolds filled row = .ok answer := by
  cases fills with
  | kept => exact answered
  | reference unbound bound =>
      rw [memberHolds] at answered
      exact absurd answered (Test.holds_ne_ok unbound row answer)
  | subQuery bound =>
      rw [memberHolds] at answered
      cases answered
  | group inner =>
      rw [memberHolds] at answered ⊢
      exact inner.holds answered
termination_by sizeOf member

end

-----------------------------------------------------------------------------------------
-- Trees without references
-----------------------------------------------------------------------------------------

theorem mapRules_id (tree : RuleTree) : tree.mapRules id = tree := by
  induction tree using induct with
  | step bucket scope alternatives ih =>
      have each : ∀ members ∈ alternatives, ∀ member ∈ members, mapRule id member = member := by
        intro members inside member among
        cases member with
        | rule | subQuery => simp [mapRule]
        | group tree => simp [mapRule, ih members inside _ among tree rfl]
      simp only [mapRules, mapRulesOfAlternatives_eq, anyOf.injEq, true_and]
      refine (List.map_congr_left fun members inside => ?_).trans (List.map_id _)
      exact (List.map_congr_left (each members inside)).trans (List.map_id _)

theorem Decides.mem_rules {rule : Member} {tree : RuleTree} (decides : Decides rule tree)
    : rule ∈ tree.rules := by
  induction decides with
  | @member _ _ _ members inside among isRule =>
      rw [rules_eq]
      refine List.mem_flatMap.mpr ⟨members, inside, List.mem_flatMap.mpr ⟨rule, among, ?_⟩⟩
      cases rule with
      | rule | subQuery => simp [rulesOfMember]
      | group => cases isRule
  | @group _ _ _ members tree inside among _ ih =>
      rw [rules_eq]
      refine List.mem_flatMap.mpr ⟨members, inside, List.mem_flatMap.mpr ⟨.group tree, among, ?_⟩⟩
      simpa [rulesOfMember] using ih

/-- A tree all of whose rules have values gives the answer that these combine to. -/
theorem holds_of_isBound {tree : RuleTree} (bound : ∀ rule ∈ tree.rules, rule.isBound = true)
    (row : Row)
    : tree.holds row = .ok (tree.isTrue (Member.passes row)) := by
  have answers : ∀ rule, Decides rule tree →
      memberHolds (id rule) row = .ok (Member.passes row rule) := by
    intro rule decides
    have known := bound rule decides.mem_rules
    cases rule with
    | rule test operand =>
        simp only [id, memberHolds, Member.passes]
        exact test.holds_eq_meets .null known row
    | subQuery | group => cases known
  have matched := holds_mapRules tree answers
  rwa [mapRules_id] at matched

/-- An answer that a row gets from a tree is the answer that it gets whatever values are filled in
for the references of the tree. If no rule refers to anything, a row gets an answer: the truth of
the tree when those of its rules are true that the row passes.
-/
theorem holds_filledIn (tree : RuleTree) (row : Row)
    : (∀ filled answer,
        tree.FilledIn filled
        → tree.holds row = .ok answer
        → filled.holds row = .ok answer)
      ∧ ((∀ rule ∈ tree.rules, rule.isBound = true)
        → tree.holds row = .ok (tree.isTrue (Member.passes row))) := by
  constructor
  · intro filled answer fills answered
    exact fills.holds answered
  · intro bound
    exact holds_of_isBound bound row

/-- A row for which a parameter and a sub-query need not be tried: the rule in front of the one
fails, and the nested choice in front of the other holds. It gets the same answer with values for
both.
-/
theorem holds_filledIn_untriedRules
    : let row : Row := .object [("name", .string "a"), ("tint", .string "r")]
      let colors : RuleTree := .anyOf "color" none []
      let tree (first second : Member) : RuleTree :=
        .anyOf "shape" none
          [[.rule ⟨"name", .contains, false, false⟩ (.literal (.string "b")), first],
            [.group (.anyOf "shape" none
              [[.rule ⟨"name", .eq, true, false⟩ (.literal (.string "c"))], [second]])]]
      let referring :=
        tree (.rule ⟨"size", .gt, false, false⟩ (.param "size"))
          (.subQuery ⟨"tint", .eq, false, false⟩ "color" "id" colors)
      let filled :=
        tree (.rule ⟨"size", .gt, false, false⟩ (.literal .null))
          (.rule ⟨"tint", .eq, false, false⟩ (.values [.string "g"]))
      referring.FilledIn filled
      ∧ referring.holds row = .ok true
      ∧ filled.holds row = .ok true
      ∧ (∀ rule ∈ filled.rules, rule.isBound = true)
      ∧ filled.holds row = .ok (filled.isTrue (Member.passes row)) := by
  intro row colors tree referring filled
  have inner : RuleTree.FilledIn
      (.anyOf "shape" none
        [[.rule ⟨"name", .eq, true, false⟩ (.literal (.string "c"))],
          [.subQuery ⟨"tint", .eq, false, false⟩ "color" "id" colors]])
      (.anyOf "shape" none
        [[.rule ⟨"name", .eq, true, false⟩ (.literal (.string "c"))],
          [.rule ⟨"tint", .eq, false, false⟩ (.values [.string "g"])]]) :=
    .anyOf (.cons (.cons (.kept _) .nil) (.cons (.cons (.subQuery rfl) .nil) .nil))
  have fills : referring.FilledIn filled :=
    .anyOf (.cons (.cons (.kept _) (.cons (.reference rfl rfl) .nil))
      (.cons (.cons (.group inner) .nil) .nil))
  have answered : referring.holds row = .ok true := by decide +kernel
  have bound : ∀ rule ∈ filled.rules, rule.isBound = true := by
    decide +kernel
  exact ⟨fills, answered, (holds_filledIn referring row).1 filled true fills answered, bound,
    (holds_filledIn filled row).2 bound⟩

end RuleTree

end FederatedQuery
