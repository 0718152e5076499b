import FederatedQuery.Proofs.RuleTree.Denotation
import FederatedQuery.Proofs.RuleTree.Traversal

/-! The tree that a query is read as means what the query says. A draft, together with the entries
that are still to be read onto it, says the same before and after each entry.
-/

namespace FederatedQuery

/-- What an alternative says under an assignment of truth values to its rules. -/
def said (truth : Member → Bool) (members : Alternative) : Saying :=
  ⟨!members.isEmpty, members.all (RuleTree.memberTrue truth)⟩

@[simp]
theorem said_nil (truth : Member → Bool) : said truth [] = .nothing := rfl

@[simp]
theorem said_append (truth : Member → Bool) (members others : Alternative)
    : said truth (members ++ others) = (said truth members).both (said truth others) := by
  cases members <;> simp [said, Saying.both, Bool.and_assoc]

/-- Alternatives that all ask something say together what a tree of them does. -/
theorem oneOf_said {truth : Member → Bool} {alternatives : List Alternative}
    (asking : ∀ members ∈ alternatives, members ≠ []) (bucket : String)
    : Saying.oneOf (alternatives.map (said truth))
      = ⟨!alternatives.isEmpty, (RuleTree.anyOf bucket none alternatives).isTrue truth⟩ := by
  have all : (alternatives.map (said truth)).filter Saying.asks = alternatives.map (said truth) := by
    simpa [List.filter_eq_self, said] using asking
  rw [RuleTree.isTrue_anyOf, Saying.oneOf, all]
  cases alternatives with
  | nil => rfl
  | cons => simp [said, Function.comp_def]

namespace Draft

/-- The choices of a draft and of clauses that are still to be read onto it. -/
def choices (truth : Member → Bool) (draft : Draft) (clauses : List Clause) : List Saying :=
  draft.earlier.map (said truth) ++ Clause.onward (said truth draft.current) clauses
    ++ draft.later.map (said truth) ++ (clauses.filter Clause.beside).map Clause.saying

variable {truth : Member → Bool}

/-- A new alternative begins where a segment does: the one before it asks nothing if it is still
empty.
-/
theorem oneOf_choices_beginAlternative (draft : Draft) (clause : Clause) (rest : List Clause)
    : Saying.oneOf
        ((if clause.opens then draft.beginAlternative else draft).choices truth
          (⟨clause.saying, false, clause.beside⟩ :: rest))
      = Saying.oneOf (draft.choices truth (clause :: rest)) := by
  obtain ⟨saying, opens, beside⟩ := clause
  cases opens with
  | false => rfl
  | true =>
      simp only [if_true, beginAlternative]
      cases current : draft.current with
      -- the draft goes on with the empty alternative, which asks nothing as a segment of its own
      | nil =>
          simp only [List.isEmpty_nil, if_true, choices, current, said_nil, Clause.onward,
            Saying.nothing_both, Clause.joined]
          apply Saying.oneOf_congr <;> cases beside <;> simp [Saying.nothing]
      | cons =>
          simp only [List.isEmpty_cons, choices, current, Clause.onward, Clause.joined]
          apply Saying.oneOf_congr <;> cases beside <;>
            simp [Bool.or_assoc, Bool.or_left_comm, Bool.or_comm]

/-- Members are read where their entry stands in the segment. -/
theorem choices_addMembers (draft : Draft) (added : Alternative) (rest : List Clause)
    : (draft.addMembers added).choices truth rest
      = draft.choices truth (⟨said truth added, false, false⟩ :: rest) := by
  simp [choices, addMembers, Clause.onward, Clause.joined]

/-- Alternatives are read beside the segment around them. -/
theorem oneOf_choices_addAlternatives (draft : Draft) (added : List Alternative)
    (rest : List Clause)
    : Saying.oneOf ((draft.addAlternatives added).choices truth rest)
      = Saying.oneOf
          (draft.choices truth
            (⟨.oneOf (added.map (said truth)), false, true⟩ :: rest)) := by
  simp only [choices, addAlternatives, Clause.onward, Clause.joined]
  refine Saying.oneOf_congr ?_ ?_
  · simp [Saying.asks_oneOf]
  · simp [Saying.asks_and_isTrue_oneOf]

/-- A group is read as what it says. -/
theorem oneOf_choices_addGroup (draft : Draft) (kind : GroupKind) (bucket : String)
    {added : List Alternative} (asking : ∀ members ∈ added, members ≠ []) (rest : List Clause)
    : Saying.oneOf ((draft.addGroup kind bucket added).choices truth rest)
      = Saying.oneOf
          (draft.choices truth
            (⟨.oneOf (added.map (said truth)), false, kind = .any⟩ :: rest)) := by
  cases kind with
  | any => exact oneOf_choices_addAlternatives draft added rest
  | all =>
      have meaning : Saying.oneOf (added.map (said truth)) = _ := oneOf_said asking bucket
      match added with
      | [] => simp [addGroup, choices, Clause.onward, Clause.joined, Saying.oneOf]
      | [only] =>
          have one : Saying.oneOf ([only].map (said truth)) = said truth only := by
            cases only with
            | nil => exact absurd rfl (asking [] (by simp))
            | cons => simp [said, Saying.oneOf]
          rw [addGroup, choices_addMembers, one]
          rfl
      | first :: second :: others =>
          simp only [meaning, addGroup, choices_addMembers]
          simp [said, RuleTree.memberTrue]

/-- The alternatives of a draft say what the draft does when nothing is to come. -/
theorem oneOf_said_alternatives (draft : Draft)
    : Saying.oneOf (draft.alternatives.map (said truth))
      = Saying.oneOf (draft.choices truth []) := by
  have all : draft.choices truth []
      = (draft.earlier ++ draft.current :: draft.later).map (said truth) := by
    simp [choices, Clause.onward]
  rw [all]
  conv => rhs; rw [← Saying.oneOf_filter, List.filter_map]
  rfl

end Draft

-----------------------------------------------------------------------------------------
-- Reading a query
-----------------------------------------------------------------------------------------

/-- The truth of an entry is that of the rule as which it is read. -/
def RulesAnswer {ρ : Type} (catalog : Catalog ρ) (limits : Limits) (bucket : BucketDef)
    (depth : Nat) (truth : Member → Bool) (satisfied : String → Value → Bool) : Prop :=
  ∀ {key text value test rule},
    (EntryKey.ofText key).body = .rule text
    → Test.ofKey bucket key text = .ok test
    → RuleTree.readMember catalog limits depth key test value = .ok rule
    → satisfied key value = truth rule

namespace RuleTree

variable {ρ : Type} {catalog : Catalog ρ} {limits : Limits} {bucket : BucketDef} {depth : Nat}
  {truth : Member → Bool} {satisfied : String → Value → Bool}

/-- An entry that is not a group is read as a rule. -/
theorem isRule_readMember {key : String} {test : Test} {value : Value} {rule : Member}
    (read : readMember catalog limits depth key test value = .ok rule)
    : rule.isRule = true := by
  have literal {value : Value}
      (ends
        : (literalOperand key test.op value >>= fun operand => .ok (Member.rule test operand))
          = .ok rule)
      : rule.isRule = true := by
    obtain ⟨operand, -, made⟩ := bind_eq_ok_iff.mp ends
    rw [← Except.ok.inj made]
    rfl
  match value with
  | .object [(marker, inner)] =>
      simp only [readMember] at read
      split at read
      · obtain ⟨path, -, made⟩ := bind_eq_ok_iff.mp read
        rw [← Except.ok.inj made]
        rfl
      · obtain ⟨operand, -, made⟩ := bind_eq_ok_iff.mp read
        rw [← Except.ok.inj made]
        rfl
      · obtain ⟨target, -, asked⟩ := bind_eq_ok_iff.mp read
        cases inner with
        | object entries =>
            rw [readSubQuery] at asked
            obtain ⟨draft, -, made⟩ := bind_eq_ok_iff.mp asked
            rw [← Except.ok.inj made]
            rfl
        | null | bool | number | string | array => cases asked
      · exact literal read
  | .object [] | .object (_ :: _ :: _) | .null | .bool _ | .number _ | .string _ | .array _ =>
      exact literal read

theorem ne_nil_of_readGroup {key : String} {value : Value} {alternatives : List Alternative}
    (read : readGroup catalog limits bucket depth key value = .ok alternatives)
    : ∀ members ∈ alternatives, members ≠ [] := by
  obtain ⟨entries, inner, -, rfl, -⟩ :=
    (yields_readGroup catalog limits bucket depth key value).of_eq_ok read
  exact fun members inside => Draft.ne_nil_of_mem_alternatives inside

mutual

/-- A draft onto which entries have been read says what it said with the entries to come, by
induction on the query: the object of a group is smaller.
-/
theorem oneOf_choices_readEntries
    (answers : RulesAnswer catalog limits bucket depth truth satisfied)
    (entries : List (String × Value)) (draft final : Draft)
    (read : readEntries catalog limits bucket depth entries draft = .ok final)
    : Saying.oneOf (final.choices truth [])
      = Saying.oneOf (draft.choices truth (Query.clauses satisfied entries)) := by
  match entries with
  | [] =>
      rw [readEntries, Except.ok.injEq] at read
      rw [Query.clauses, read]
  | (key, value) :: rest =>
      rw [readEntries] at read
      rw [Query.clauses, ← Draft.oneOf_choices_beginAlternative]
      cases body : (EntryKey.ofText key).body with
      | group name =>
          cases named : GroupKind.ofName? name with
          | none =>
              simp only [body, named] at read
              cases read
          | some kind =>
              simp only [body, named] at read ⊢
              obtain ⟨alternatives, inside, after⟩ := bind_eq_ok_iff.mp read
              have group := saidBy_of_readGroup answers key value alternatives inside
              rw [oneOf_choices_readEntries answers rest _ final after,
                Draft.oneOf_choices_addGroup _ kind _ (ne_nil_of_readGroup inside), ← group]
              simp only [Option.some.injEq]
      | rule text =>
          simp only [body] at read ⊢
          obtain ⟨test, tested, after⟩ := bind_eq_ok_iff.mp read
          obtain ⟨rule, made, after⟩ := bind_eq_ok_iff.mp after
          have one : said truth [rule] = ⟨true, satisfied key value⟩ := by
            simp [said, memberTrue_of_isRule (isRule_readMember made), answers body tested made]
          rw [oneOf_choices_readEntries answers rest _ final after, Draft.choices_addMembers, one]
termination_by sizeOf entries

/-- The alternatives that a group is read as say what its object says. -/
theorem saidBy_of_readGroup
    (answers : RulesAnswer catalog limits bucket depth truth satisfied)
    (key : String) (value : Value) (alternatives : List Alternative)
    (read : readGroup catalog limits bucket depth key value = .ok alternatives)
    : Query.saidBy satisfied value = Saying.oneOf (alternatives.map (said truth)) := by
  match value with
  | .object entries =>
      rw [readGroup] at read
      obtain ⟨draft, inside, made⟩ := bind_eq_ok_iff.mp read
      rw [Query.saidBy, Clause.oneOf_choices, ← Except.ok.inj made, Draft.oneOf_said_alternatives,
        oneOf_choices_readEntries answers entries Draft.start draft inside]
      simp [Draft.choices, Draft.start]
  | .null | .bool _ | .number _ | .string _ | .array _ => cases read
termination_by sizeOf value

end

/-- The rule as which an entry of a query on a bucket is read, if it is read as one. -/
def ruleOf? (catalog : Catalog ρ) (limits : Limits) (bucket : String) (key : String)
    (value : Value) : Option Member :=
  match (EntryKey.ofText key).body with
  | .group _ => none
  | .rule text =>
      Except.toOption do
        let bucket ← definition catalog bucket
        let test ← Test.ofKey bucket key text
        readMember catalog limits 0 key test value

/-- The tree that a query is read as is matched by a row, once every rule has been replaced by one
that has an answer on the row, if the query is true under these answers.
-/
theorem holds_ofQuery {bucket : String} {query : Query} {tree : RuleTree}
    (read : ofQuery catalog limits bucket query = .ok tree) (resolve : Member → Member) (row : Row)
    (truth : Member → Bool)
    (answers : ∀ rule, Decides rule tree → memberHolds (resolve rule) row = .ok (truth rule))
    : (tree.mapRules resolve).holds row
      = .ok
          (query.isTrue fun key value => (ruleOf? catalog limits bucket key value).any truth) := by
  rw [holds_mapRules tree answers, Except.ok.injEq]
  obtain ⟨defined, known, reading⟩ := bind_eq_ok_iff.mp read
  obtain ⟨draft, inside, made⟩ := bind_eq_ok_iff.mp reading
  have rules : RulesAnswer catalog limits defined 0 truth fun key value =>
      (ruleOf? catalog limits bucket key value).any truth := by
    intro key text value test rule isRule tested made
    have reads : (do
        let bucket ← definition catalog bucket
        let test ← Test.ofKey bucket key text
        readMember catalog limits 0 key test value) = .ok rule :=
      bind_eq_ok_iff.mpr ⟨defined, known, bind_eq_ok_iff.mpr ⟨test, tested, made⟩⟩
    simp only [ruleOf?, isRule, reads, Except.toOption, Option.any_some]
  have said := saidBy_of_readGroup rules "" query.toValue draft.alternatives (by
    rw [Query.toValue, readGroup, inside]
    rfl)
  rw [← Except.ok.inj made, Query.isTrue, said,
    oneOf_said (fun members inside => Draft.ne_nil_of_mem_alternatives inside) defined.name]

/-- A bucket on which every field can be asked for. -/
def oneBucket : Catalog Unit := Catalog.empty.register ⟨⟨"shape", "id", []⟩, "east", ()⟩

/-- A query of two segments, with a choice beside them that stands within the first. -/
def groupedQuery : Query :=
  ⟨[("tint", .string "red"), ("#or", .object [("size", .string "large")]),
    ("kind", .string "round"), ("or #and", .object
      [("tint", .string "green"), ("or size", .string "small")])]⟩

/-- Rules on the values red and small are true. -/
def redOrSmall : Member → Bool
  | .rule _ (.literal value) => value = .string "red" || value = .string "small"
  | _ => false

/-- A rule that holds for every row or for none, since no value is in an empty list. -/
def constantRule (truth : Bool) : Member :=
  .rule ⟨"id", .isIn, truth, false⟩ (.literal (.array []))

/-- The first segment is false, since `kind` still belongs to it, and so is the choice beside it;
the second is true.
-/
theorem holds_ofQuery_groupedQuery
    : ∃ tree,
        ofQuery oneBucket Limits.default "shape" groupedQuery = .ok tree
        ∧ (∀ rule,
            Decides rule tree
            → memberHolds (constantRule (redOrSmall rule)) .null = .ok (redOrSmall rule))
        ∧ (tree.mapRules fun rule => constantRule (redOrSmall rule)).holds .null = .ok true := by
  have answers (rule : Member)
      : memberHolds (constantRule (redOrSmall rule)) .null = .ok (redOrSmall rule) := by
    cases redOrSmall rule <;> rfl
  have reads : (ofQuery oneBucket Limits.default "shape" groupedQuery).toOption.map
      RuleTree.bucket = some "shape" := by
    decide +kernel
  have meant : (groupedQuery.isTrue fun key value =>
      (ruleOf? oneBucket Limits.default "shape" key value).any redOrSmall) = true := by
    decide +kernel
  obtain ⟨tree, read, -⟩ := toOption_map_eq_some_iff.mp reads
  refine ⟨tree, read, fun rule _ => answers rule, ?_⟩
  rw [holds_ofQuery read _ .null redOrSmall fun rule _ => answers rule, meant]

end RuleTree

end FederatedQuery
