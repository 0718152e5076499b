import FederatedQuery.Proofs.Computation
import FederatedQuery.RuleTree.Building

/-! Induction on the reading of a query. What each step of the reading lets through is stated
once, and the reading of entries as a relation between drafts: entries are read from the front,
each onto the draft that the ones before it have left.
-/

namespace FederatedQuery

-----------------------------------------------------------------------------------------
-- The steps of reading
-----------------------------------------------------------------------------------------

/-- The test is one that a key may ask for on the bucket. -/
structure Test.Suits (bucket : BucketDef) (test : Test) : Prop where
  named : test.field ≠ ""
  unbroken : ∀ c ∈ test.field.toList, Text.isBlank c = false
  addressable : bucket.hasField test.field = true
  foldable : test.foldCase = true → test.op ∈ [.eq, .isIn, .contains, .containsAny]

/-- The operator can compare with the value. -/
structure Op.Accepts (op : Op) (value : Value) : Prop where
  array : op = .isIn ∨ op = .containsAny → ∃ items, value = .array items
  string : op = .contains → ∃ text, value = .string text

/-- The operand stands in a query and is one that the operator can compare with. -/
inductive Operand.Suits (op : Op) : Operand → Prop where
  | literal {value : Value} (accepted : op.Accepts value) : Suits op (.literal value)
  | param {path : String} (named : path ≠ "") : Suits op (.param path)
  | template {path : String} (holed : TemplatePath.hasPlaceholder path = true)
      : Suits op (.template path)

/-- The entries of the sub-query that a rule's value asks for, behind a marker as the only key. -/
def Value.subQuery? : Value → Option (List (String × Value))
  | .object [(marker, inner)] =>
      if marker.toList.head? = some '@' then inner.object? else none
  | _ => none

theorem Value.subQuery?_eq_none {marker : String} (unmarked : marker.toList.head? ≠ some '@')
    (inner : Value)
    : (Value.object [(marker, inner)]).subQuery? = none :=
  if_neg unmarked

namespace Modifiers

/-- A tilde is only let through in front of an operator that can disregard case. -/
theorem yields_toTest (key : String) (field : List Char) (modifiers : Modifiers)
    : Yields
        (fun test =>
          test.field = String.ofList field
          ∧ (test.foldCase = true → test.op ∈ [.eq, .isIn, .contains, .containsAny]))
        (modifiers.toTest key field) := by
  simp only [toTest]
  split
  · simp [Yields, StructuralError.invalidModifier]
  · next fits =>
    simp only [Bool.and_eq_true, Bool.not_eq_true', not_and, Bool.not_eq_false] at fits
    exact ⟨rfl, fun folds => Op.supportsFoldCase_iff.mp (fits folds)⟩

/-- Modifiers are read from left to right, and none of their errors is a cycle. -/
theorem yields_addAll (key : String) (modifiers : Modifiers) (tokens : List (List Char))
    : Yields (fun _ => True) (modifiers.addAll key tokens) := by
  induction tokens generalizing modifiers with
  | nil => trivial
  | cons token rest ih =>
      refine Yields.bind (P := fun _ => True) ?_ fun next _ => ih next
      simp only [add, addOperator]
      split
      · split <;> simp [Yields, StructuralError.invalidModifier]
      · split
        · trivial
        · split
          · simp [Yields, StructuralError.unknownOperator]
          · split <;> simp [Yields, StructuralError.invalidModifier]

end Modifiers

/-- The field of a rule key is its first word, so it is not empty and holds no blank. -/
theorem Test.yields_ofKey (bucket : BucketDef) (key : String) (text : List Char)
    : Yields (Test.Suits bucket) (Test.ofKey bucket key text) := by
  simp only [Test.ofKey]
  split
  · simp [Yields, StructuralError.emptyFieldPath]
  · next field tokens words =>
    have word : field ∈ Text.words text := by simp [words]
    refine (Modifiers.yields_addAll ..).bind fun modifiers _ => ?_
    refine (Modifiers.yields_toTest ..).bind fun test ⟨named, foldable⟩ => ?_
    split
    · next addressable =>
      refine ⟨?_, ?_, addressable, foldable⟩
      · simpa [named] using Text.ne_nil_of_mem_words word
      · intro c inside
        rw [named, String.toList_ofList] at inside
        exact Text.not_isBlank_of_mem_words word inside
    · simp [Yields, StructuralError.unknownField, StructuralError.withKey]

namespace RuleTree

theorem yields_referencePath (key : String) (value : Value)
    : Yields (· ≠ "") (referencePath key value) := by
  simp only [referencePath]
  split
  · split
    · simp [Yields, StructuralError.malformedMarker]
    · next named => exact named
  · simp [Yields, StructuralError.malformedMarker]

theorem yields_templateOperand (op : Op) (key : String) (value : Value)
    : Yields (Operand.Suits op) (templateOperand key value) := by
  refine (yields_referencePath key value).bind fun path _ => ?_
  split
  · next holed => exact .template holed
  · simp [Yields, StructuralError.malformedMarker]

theorem yields_literalOperand (key : String) (op : Op) (value : Value)
    : Yields (Operand.Suits op) (literalOperand key op value) := by
  simp only [literalOperand]
  split
  -- the operators that need an array or a string have one, and the others need neither
  · exact .literal ⟨fun _ => ⟨_, rfl⟩, nofun⟩
  · exact .literal ⟨fun _ => ⟨_, rfl⟩, nofun⟩
  · exact .literal ⟨nofun, fun _ => ⟨_, rfl⟩⟩
  · simp [Yields, StructuralError.invalidValue]
  · simp [Yields, StructuralError.invalidValue]
  · simp [Yields, StructuralError.invalidValue]
  · refine .literal ⟨?_, ?_⟩
    · rintro (rfl | rfl) <;> simp_all
    · rintro rfl
      simp_all

variable {ρ : Type}

theorem yields_definition (catalog : Catalog ρ) (bucket : String)
    : Yields
        (fun defined => ∃ registration,
          catalog.get? bucket = some registration ∧ registration.definition = defined)
        (definition catalog bucket) := by
  simp only [definition]
  split
  · next registration found => exact ⟨registration, found, rfl⟩
  · simp [Yields, StructuralError.unknownBucket]

/-- A marker names a field of a registered bucket, where a sub-query may still be nested. -/
theorem yields_subQueryTarget (catalog : Catalog ρ) (limits : Limits) (key : String)
    (target : List Char) (depth : Nat)
    : Yields
        (fun named => ∃ bucket registration,
          catalog.get? bucket = some registration
          ∧ registration.definition = named.1
          ∧ named.1.hasField named.2 = true
          ∧ depth < limits.maxDepth)
        (subQueryTarget catalog limits key target depth) := by
  simp only [subQueryTarget]
  split
  · split
    · simp [Yields, StructuralError.limitExceeded, StructuralError.withKey]
    · next shallow =>
      split
      · simp [Yields, StructuralError.unknownBucket, StructuralError.withKey]
      · next registration found =>
        split
        · next known => exact ⟨_, registration, found, rfl, known, by omega⟩
        · simp [Yields, StructuralError.unknownField, StructuralError.withKey]
  · simp [Yields, StructuralError.malformedMarker]

end RuleTree

-----------------------------------------------------------------------------------------
-- Drafts
-----------------------------------------------------------------------------------------

/-- Every member of the alternatives has the property. -/
def EachMember (P : Member → Prop) (alternatives : List Alternative) : Prop :=
  ∀ members ∈ alternatives, ∀ member ∈ members, P member

namespace Draft

/-- The draft onto which an entry with this key is read. -/
def opened (draft : Draft) (key : String) : Draft :=
  if (EntryKey.ofText key).opensAlternative then draft.beginAlternative else draft

/-- All alternatives of the draft, also those that are still empty. -/
def all (draft : Draft) : List Alternative := draft.earlier ++ draft.current :: draft.later

/-- A new alternative stands behind all others, unless an empty one can be used. -/
theorem all_opened (draft : Draft) (key : String)
    : (draft.opened key).all = draft.all ∨ (draft.opened key).all = draft.all ++ [[]] := by
  simp only [opened, beginAlternative]
  split
  · split
    · exact .inl rfl
    · exact .inr (by simp [all])
  · exact .inl rfl

variable {P : Member → Prop} {draft : Draft}

theorem each_start (P : Member → Prop) : EachMember P start.all := by
  simp [start, all, EachMember]

theorem each_opened (each : EachMember P draft.all) (key : String)
    : EachMember P (draft.opened key).all := by
  rcases all_opened draft key with same | added
  · rwa [same]
  · intro members inside member among
    rw [added] at inside
    rcases List.mem_append.mp inside with inside | inside
    · exact each members inside member among
    · rw [List.mem_singleton.mp inside] at among
      cases among

theorem each_addMembers (each : EachMember P draft.all) {added : List Member}
    (eachAdded : ∀ member ∈ added, P member)
    : EachMember P (draft.addMembers added).all := by
  intro members inside member among
  simp only [all, Draft.addMembers, List.mem_append, List.mem_cons] at inside
  rcases inside with inside | rfl | inside
  · exact each members (by simp [all, inside]) member among
  · rcases List.mem_append.mp among with among | among
    · exact each draft.current (by simp [all]) member among
    · exact eachAdded member among
  · exact each members (by simp [all, inside]) member among

/-- Only a group of several alternatives is nested. -/
theorem each_addGroup (each : EachMember P draft.all) (kind : GroupKind) (bucket : String)
    {alternatives : List Alternative} (eachAdded : EachMember P alternatives)
    (nested : 2 ≤ alternatives.length → P (.group (.anyOf bucket none alternatives)))
    : EachMember P (draft.addGroup kind bucket alternatives).all := by
  simp only [addGroup]
  split
  · intro members inside member among
    simp only [all, addAlternatives, List.mem_append, List.mem_cons] at inside
    rcases inside with inside | inside | inside | inside
    · exact each members (by simp [all, inside]) member among
    · exact each members (by simp [all, inside]) member among
    · exact each members (by simp [all, inside]) member among
    · exact eachAdded members inside member among
  · exact each
  · next only => exact each_addMembers each (eachAdded only (by simp))
  · next several single =>
    refine each_addMembers each fun member among => ?_
    rw [List.mem_singleton.mp among]
    refine nested ?_
    match alternatives with
    | [] => exact absurd rfl several
    | [only] => exact absurd rfl (single only)
    | _ :: _ :: _ => simp

theorem each_alternatives (each : EachMember P draft.all) : EachMember P draft.alternatives :=
  fun members inside => each members (List.mem_filter.mp inside).1

/-- Alternatives that ask nothing are left out. -/
theorem ne_nil_of_mem_alternatives {members : Alternative}
    (inside : members ∈ draft.alternatives)
    : members ≠ [] := by
  simpa using (List.mem_filter.mp inside).2

end Draft

-----------------------------------------------------------------------------------------
-- Reading entries
-----------------------------------------------------------------------------------------

namespace RuleTree

variable {ρ : Type}

/-- Entries on a bucket at a sub-query depth take one draft to another when they are read. -/
inductive Reads (catalog : Catalog ρ) (limits : Limits)
    : BucketDef → Nat → List (String × Value) → Draft → Draft → Prop where
  | nothing {bucket : BucketDef} {depth : Nat} {draft : Draft}
      : Reads catalog limits bucket depth [] draft draft
  | group {bucket : BucketDef} {depth : Nat} {key : String} {name : List Char}
      {entries rest : List (String × Value)} {draft inner final : Draft} (kind : GroupKind)
      (body : (EntryKey.ofText key).body = .group name)
      (inside : Reads catalog limits bucket depth entries .start inner)
      (after
        : Reads catalog limits bucket depth rest
            ((draft.opened key).addGroup kind bucket.name inner.alternatives) final)
      : Reads catalog limits bucket depth ((key, .object entries) :: rest) draft final
  | rule {bucket : BucketDef} {depth : Nat} {key : String} {text : List Char} {value : Value}
      {test : Test} {operand : Operand} {rest : List (String × Value)} {draft final : Draft}
      (body : (EntryKey.ofText key).body = .rule text)
      (tested : test.Suits bucket)
      (plain : value.subQuery? = none)
      (compared : operand.Suits test.op)
      (after
        : Reads catalog limits bucket depth rest
            ((draft.opened key).addMembers [.rule test operand]) final)
      : Reads catalog limits bucket depth ((key, value) :: rest) draft final
  | subQuery {bucket : BucketDef} {depth : Nat} {key : String} {text : List Char}
      {value : Value} {test : Test} {target field : String} {registration : Registration ρ}
      {entries rest : List (String × Value)} {draft inner final : Draft}
      (body : (EntryKey.ofText key).body = .rule text)
      (tested : test.Suits bucket)
      (asked : value.subQuery? = some entries)
      (shallow : depth < limits.maxDepth)
      (registered : catalog.get? target = some registration)
      (known : registration.definition.hasField field = true)
      (inside : Reads catalog limits registration.definition (depth + 1) entries .start inner)
      (after
        : Reads catalog limits bucket depth rest
            ((draft.opened key).addMembers
              [.subQuery test registration.definition.name field
                (.anyOf registration.definition.name none inner.alternatives)]) final)
      : Reads catalog limits bucket depth ((key, value) :: rest) draft final

/-- The value of a rule is read as the member: behind a key that asks for the test it adds this
member to the draft.
-/
def ReadsMember (catalog : Catalog ρ) (limits : Limits) (depth : Nat) (test : Test)
    (value : Value) (member : Member) : Prop :=
  ∀ {bucket key text rest draft final},
    (EntryKey.ofText key).body = .rule text
    → test.Suits bucket
    → Reads catalog limits bucket depth rest ((draft.opened key).addMembers [member]) final
    → Reads catalog limits bucket depth ((key, value) :: rest) draft final

mutual

/-- The reading of entries goes through the cases of the relation, by induction on the query:
groups and sub-queries are smaller.
-/
theorem yields_readEntries (catalog : Catalog ρ) (limits : Limits) (bucket : BucketDef)
    (depth : Nat) (entries : List (String × Value)) (draft : Draft)
    : Yields (Reads catalog limits bucket depth entries draft)
        (readEntries catalog limits bucket depth entries draft) := by
  match entries with
  | [] =>
      simp only [readEntries]
      exact .nothing
  | (key, value) :: rest =>
      simp only [readEntries]
      split
      · next name body =>
        split
        · simp [Yields, StructuralError.malformedGroup]
        · next kind _ =>
          refine (yields_readGroup catalog limits bucket depth key value).bind ?_
          rintro _ ⟨entries, inner, rfl, rfl, inside⟩
          refine (yields_readEntries catalog limits bucket depth rest _).mono fun final after => ?_
          exact .group kind body inside after
      · next text body =>
        refine (Test.yields_ofKey ..).bind fun test tested => ?_
        refine (yields_readMember catalog limits depth key test value).bind fun member read => ?_
        refine (yields_readEntries catalog limits bucket depth rest _).mono fun final after => ?_
        exact read body tested after
termination_by sizeOf entries

/-- A group is the alternatives that its object is read as. -/
theorem yields_readGroup (catalog : Catalog ρ) (limits : Limits) (bucket : BucketDef)
    (depth : Nat) (key : String) (value : Value)
    : Yields
        (fun alternatives => ∃ entries inner,
          value = .object entries
          ∧ alternatives = inner.alternatives
          ∧ Reads catalog limits bucket depth entries .start inner)
        (readGroup catalog limits bucket depth key value) := by
  match value with
  | .object entries =>
      simp only [readGroup]
      refine (yields_readEntries catalog limits bucket depth entries .start).bind
        fun inner inside => ?_
      exact ⟨entries, inner, rfl, rfl, inside⟩
  | .null | .bool _ | .number _ | .string _ | .array _ =>
      simp [readGroup, Yields, StructuralError.malformedGroup]
termination_by sizeOf value

/-- A rule's value is read as what the rule compares with, or as a sub-query. -/
theorem yields_readMember (catalog : Catalog ρ) (limits : Limits) (depth : Nat) (key : String)
    (test : Test) (value : Value)
    : Yields (ReadsMember catalog limits depth test value)
        (readMember catalog limits depth key test value) := by
  have literal (plain : value.subQuery? = none)
      : Yields (ReadsMember catalog limits depth test value)
          (literalOperand key test.op value >>= fun operand =>
            .ok (Member.rule test operand)) := by
    refine (yields_literalOperand key test.op value).bind fun operand compared => ?_
    exact fun body tested after => .rule body tested plain compared after
  match value with
  | .object [(marker, inner)] =>
      simp only [readMember]
      split
      · next dot =>
        refine (yields_referencePath key inner).bind fun path named => ?_
        refine fun body tested after => .rule body tested ?_ (.param named) after
        exact Value.subQuery?_eq_none (by simp [dot]) inner
      · next dollar =>
        refine (yields_templateOperand test.op key inner).bind fun operand compared => ?_
        refine fun body tested after => .rule body tested ?_ compared after
        exact Value.subQuery?_eq_none (by simp [dollar]) inner
      · next target marked =>
        refine (yields_subQueryTarget ..).bind ?_
        rintro ⟨_, field⟩ ⟨target, registration, registered, rfl, known, shallow⟩
        exact yields_readSubQuery catalog limits depth key test registered known shallow
          (by simp [marked]) inner
      · next unmarked =>
        refine literal (Value.subQuery?_eq_none ?_ inner)
        intro marked
        obtain ⟨target, found⟩ := List.head?_eq_some_iff.mp marked
        exact unmarked target found
  | .object [] | .object (_ :: _ :: _) | .null | .bool _ | .number _ | .string _ | .array _ =>
      simp only [readMember]
      exact literal (by simp [Value.subQuery?])
termination_by sizeOf value

/-- The object behind a marker is read as a tree on the bucket that the marker names. -/
theorem yields_readSubQuery (catalog : Catalog ρ) (limits : Limits) (depth : Nat)
    (key : String) (test : Test) {target field marker : String} {registration : Registration ρ}
    (registered : catalog.get? target = some registration)
    (known : registration.definition.hasField field = true) (shallow : depth < limits.maxDepth)
    (marks : marker.toList.head? = some '@') (value : Value)
    : Yields (ReadsMember catalog limits depth test (.object [(marker, value)]))
        (readSubQuery catalog limits depth key test registration.definition field value) := by
  match value with
  | .object entries =>
      simp only [readSubQuery]
      refine (yields_readEntries catalog limits registration.definition (depth + 1) entries
        .start).bind fun inner inside => ?_
      refine fun body tested after => .subQuery body tested ?_ shallow registered known inside after
      simp [Value.subQuery?, Value.object?, marks]
  | .null | .bool _ | .number _ | .string _ | .array _ =>
      simp [readSubQuery, Yields, StructuralError.malformedMarker]
termination_by sizeOf value

end

/-- The tree of a query is made of the draft that its entries are read as on a registered bucket.
Reading never fails with a cycle.
-/
theorem yields_reads (catalog : Catalog ρ) (limits : Limits) (bucket : String) (query : Query)
    : Yields
        (fun tree => ∃ registration final,
          catalog.get? bucket = some registration
          ∧ Reads catalog limits registration.definition 0 query.entries .start final
          ∧ tree = .anyOf registration.definition.name none final.alternatives)
        (ofQuery catalog limits bucket query) := by
  refine (yields_definition catalog bucket).bind ?_
  rintro _ ⟨registration, found, rfl⟩
  refine (yields_readEntries catalog limits registration.definition 0 query.entries .start).bind
    fun final reads => ?_
  exact ⟨registration, final, found, reads, rfl⟩

/-- What holds of every rule that is read, and of sub-queries and groups if it holds of all their
members, holds of every member of the draft, by induction on the reading.
-/
theorem Reads.each {catalog : Catalog ρ} {limits : Limits}
    {P : BucketDef → Nat → Member → Prop}
    (rule
      : ∀ {bucket depth test operand},
          test.Suits bucket → operand.Suits test.op → P bucket depth (.rule test operand))
    (subQuery
      : ∀ {bucket depth test target registration field alternatives},
          test.Suits bucket
          → depth < limits.maxDepth
          → catalog.get? target = some registration
          → registration.definition.hasField field = true
          → (∀ members ∈ alternatives, members ≠ [])
          → EachMember (P registration.definition (depth + 1)) alternatives
          → P bucket depth
              (.subQuery test registration.definition.name field
                (.anyOf registration.definition.name none alternatives)))
    (group
      : ∀ {bucket depth alternatives},
          2 ≤ alternatives.length
          → (∀ members ∈ alternatives, members ≠ [])
          → EachMember (P bucket depth) alternatives
          → P bucket depth (.group (.anyOf bucket.name none alternatives)))
    {bucket : BucketDef} {depth : Nat} {entries : List (String × Value)} {draft final : Draft}
    (reads : Reads catalog limits bucket depth entries draft final)
    (before : EachMember (P bucket depth) draft.all)
    : EachMember (P bucket depth) final.all := by
  have alone {P : Member → Prop} {member : Member} (holds : P member)
      : ∀ other ∈ [member], P other := fun other among => List.mem_singleton.mp among ▸ holds
  induction reads with
  | nothing => exact before
  | group kind body inside after ihInside ihAfter =>
      have eachInside := Draft.each_alternatives (ihInside (Draft.each_start _))
      refine ihAfter (Draft.each_addGroup (Draft.each_opened before _) kind _ eachInside ?_)
      exact fun several => group several (fun _ => Draft.ne_nil_of_mem_alternatives) eachInside
  | rule body tested plain compared after ihAfter =>
      exact ihAfter (Draft.each_addMembers (Draft.each_opened before _)
        (alone (rule tested compared)))
  | subQuery body tested asked shallow registered known inside after ihInside ihAfter =>
      have eachInside := Draft.each_alternatives (ihInside (Draft.each_start _))
      exact ihAfter (Draft.each_addMembers (Draft.each_opened before _)
        (alone (subQuery tested shallow registered known
          (fun _ => Draft.ne_nil_of_mem_alternatives) eachInside)))

end RuleTree

end FederatedQuery
