import FederatedQuery.Proofs.RuleKey
import FederatedQuery.Proofs.RuleTree.Traversal

/-! The grammar of queries. An entry is a group with a query on the same bucket, or it asks for a
test of a field and has a value to compare with: a reference, a sub-query or a literal. A query is
read as a rule tree exactly when all its entries are of this form.
-/

namespace FederatedQuery

/-- The value is an object whose only key is the marker of a reference or of a sub-query. -/
def Value.IsMarked (value : Value) : Prop :=
  ∃ marker inner,
    value = .object [(marker, inner)]
    ∧ (marker = "." ∨ marker = "$" ∨ marker.toList.head? = some '@')

namespace Query

variable {ρ : Type}

/-- In a query at a sub-query depth, the text behind the sign of a marker names the field of the
registered bucket: it is cut at its first point, and a sub-query may still be nested.
-/
structure SubQueryTarget (catalog : Catalog ρ) (limits : Limits) (depth : Nat)
    (text target field : List Char) (registration : Registration ρ) : Prop where
  cut : text = target ++ '.' :: field
  first : '.' ∉ target
  targeted : target ≠ []
  named : field ≠ []
  shallow : depth < limits.maxDepth
  registered : catalog.get? (String.ofList target) = some registration
  addressable : registration.definition.hasField (String.ofList field) = true

mutual

/-- The entry may stand in a query on a bucket at a sub-query depth. -/
inductive EntryWellFormed (catalog : Catalog ρ) (limits : Limits)
    : BucketDef → Nat → String × Value → Prop where
  | group {bucket : BucketDef} {depth : Nat} {key : String} {kind : GroupKind}
      {suffix : List Char} {entries : List (String × Value)}
      (said : EntryKey.Says key.toList ('#' :: kind.word ++ suffix))
      (apart : ∀ c ∈ suffix.head?, Text.isAlphanumeric c = false)
      (inside : ∀ entry ∈ entries, EntryWellFormed catalog limits bucket depth entry)
      : EntryWellFormed catalog limits bucket depth (key, .object entries)
  | rule {bucket : BucketDef} {depth : Nat} {key : String} {text : List Char} {op : Op}
      {value : Value}
      (said : EntryKey.Says key.toList text)
      (unmarked : text.head? ≠ some '#')
      (asked : Test.Asked bucket text op)
      (compared : ComparandWellFormed catalog limits op depth value)
      : EntryWellFormed catalog limits bucket depth (key, value)

/-- A rule with the operator may compare with the value, in a query at a sub-query depth. -/
inductive ComparandWellFormed (catalog : Catalog ρ) (limits : Limits)
    : Op → Nat → Value → Prop where
  | param {op : Op} {depth : Nat} {path : String} (named : path ≠ "")
      : ComparandWellFormed catalog limits op depth (.object [(".", .string path)])
  | template {op : Op} {depth : Nat} {path : String}
      (holed : TemplatePath.hasPlaceholder path = true)
      : ComparandWellFormed catalog limits op depth (.object [("$", .string path)])
  | subQuery {op : Op} {depth : Nat} {marker : String} {text target field : List Char}
      {registration : Registration ρ} {entries : List (String × Value)}
      (marked : marker.toList = '@' :: text)
      (names : SubQueryTarget catalog limits depth text target field registration)
      (inside
        : ∀ entry ∈ entries,
            EntryWellFormed catalog limits registration.definition (depth + 1) entry)
      : ComparandWellFormed catalog limits op depth (.object [(marker, .object entries)])
  | literal {op : Op} {depth : Nat} {value : Value} (unmarked : ¬value.IsMarked)
      (accepted : op.Accepts value)
      : ComparandWellFormed catalog limits op depth value

end

/-- All entries of the query may stand in a query on the bucket. -/
def WellFormed (catalog : Catalog ρ) (limits : Limits) (bucket : BucketDef) (query : Query)
    : Prop :=
  ∀ entry ∈ query.entries, EntryWellFormed catalog limits bucket 0 entry

variable {catalog : Catalog ρ} {limits : Limits} {bucket : BucketDef} {depth : Nat}

/-- An entry whose key names a group needs the name of one and a query on the same bucket. -/
theorem entryWellFormed_group_iff {key : String} {name : List Char} {value : Value}
    (body : (EntryKey.ofText key).body = .group name)
    : EntryWellFormed catalog limits bucket depth (key, value)
      ↔ (∃ kind, GroupKind.ofName? name = some kind)
        ∧ ∃ entries,
            value = .object entries
            ∧ ∀ entry ∈ entries, EntryWellFormed catalog limits bucket depth entry := by
  constructor
  · intro wellFormed
    cases wellFormed with
    | group said apart inside =>
        have same := EntryKey.body_ofText_eq_group_iff.mpr said
        obtain rfl := KeyBody.group.inj (body.symm.trans same)
        exact ⟨⟨_, GroupKind.ofName?_eq_some_iff.mpr ⟨_, rfl, apart⟩⟩, _, rfl, inside⟩
    | rule said unmarked =>
        have same := EntryKey.body_ofText_eq_rule_iff.mpr ⟨said, unmarked⟩
        cases body.symm.trans same
  · intro wellFormed
    obtain ⟨⟨kind, named⟩, entries, rfl, inside⟩ := wellFormed
    obtain ⟨suffix, rfl, apart⟩ := GroupKind.ofName?_eq_some_iff.mp named
    exact .group (EntryKey.body_ofText_eq_group_iff.mp body) apart inside

/-- An entry whose key asks for a test needs a value that the operator may compare with. -/
theorem entryWellFormed_rule_iff {key : String} {text : List Char} {value : Value}
    (body : (EntryKey.ofText key).body = .rule text)
    : EntryWellFormed catalog limits bucket depth (key, value)
      ↔ ∃ op, Test.Asked bucket text op ∧ ComparandWellFormed catalog limits op depth value := by
  constructor
  · intro wellFormed
    cases wellFormed with
    | group said =>
        have same := EntryKey.body_ofText_eq_group_iff.mpr said
        cases body.symm.trans same
    | rule said unmarked asked compared =>
        have same := EntryKey.body_ofText_eq_rule_iff.mpr ⟨said, unmarked⟩
        obtain rfl := KeyBody.rule.inj (body.symm.trans same)
        exact ⟨_, asked, compared⟩
  · intro wellFormed
    obtain ⟨op, asked, compared⟩ := wellFormed
    obtain ⟨said, unmarked⟩ := EntryKey.body_ofText_eq_rule_iff.mp body
    exact .rule said unmarked asked compared

variable {op : Op}

/-- An object with a marker as its only key is a reference or a sub-query. -/
theorem comparandWellFormed_marked_iff {marker : String} {inner : Value}
    (marked : marker = "." ∨ marker = "$" ∨ marker.toList.head? = some '@')
    : ComparandWellFormed catalog limits op depth (.object [(marker, inner)])
      ↔ (marker = "." ∧ ∃ path, inner = .string path ∧ path ≠ "")
        ∨ (marker = "$" ∧ ∃ path, inner = .string path ∧ TemplatePath.hasPlaceholder path = true)
        ∨ ∃ text, marker.toList = '@' :: text
          ∧ ∃ target field registration,
              SubQueryTarget catalog limits depth text target field registration
              ∧ ∃ entries,
                  inner = .object entries
                  ∧ ∀ entry ∈ entries,
                      EntryWellFormed catalog limits registration.definition (depth + 1) entry := by
  constructor
  · intro wellFormed
    generalize same : Value.object [(marker, inner)] = value at wellFormed
    cases wellFormed with
    | param named =>
        cases same
        exact .inl ⟨rfl, _, rfl, named⟩
    | template holed =>
        cases same
        exact .inr (.inl ⟨rfl, _, rfl, holed⟩)
    | subQuery marked names inside =>
        cases same
        exact .inr (.inr ⟨_, marked, _, _, _, names, _, rfl, inside⟩)
    | literal unmarked =>
        exact absurd ⟨marker, inner, same.symm, marked⟩ unmarked
  · intro wellFormed
    rcases wellFormed with ⟨rfl, path, rfl, named⟩ | ⟨rfl, path, rfl, holed⟩ | subQuery
    · exact .param named
    · exact .template holed
    · obtain ⟨text, marked, target, field, registration, names, entries, rfl, inside⟩ := subQuery
      exact .subQuery marked names inside

/-- Any other value is a literal. -/
theorem comparandWellFormed_literal_iff {value : Value} (unmarked : ¬value.IsMarked)
    : ComparandWellFormed catalog limits op depth value ↔ op.Accepts value := by
  constructor
  · intro wellFormed
    cases wellFormed with
    | param => exact absurd ⟨_, _, rfl, .inl rfl⟩ unmarked
    | template => exact absurd ⟨_, _, rfl, .inr (.inl rfl)⟩ unmarked
    | subQuery marked => exact absurd ⟨_, _, rfl, .inr (.inr (by simp [marked]))⟩ unmarked
    | literal _ accepted => exact accepted
  · exact .literal unmarked

end Query

namespace RuleTree

variable {ρ : Type} (catalog : Catalog ρ) (limits : Limits) {key : String} {value : Value}

theorem referencePath_eq_ok_iff {path : String}
    : referencePath key value = .ok path ↔ value = .string path ∧ path ≠ "" := by
  cases value with
  | string text =>
      simp only [referencePath]
      split
      · next empty => simp +contextual [empty]
      · next named => simp +contextual [named, eq_comm]
  | _ => simp [referencePath]

theorem succeeds_templateOperand_iff
    : Succeeds (templateOperand key value)
      ↔ ∃ path, value = .string path ∧ TemplatePath.hasPlaceholder path = true := by
  simp only [templateOperand, Succeeds.bind_iff, referencePath_eq_ok_iff]
  constructor
  · intro read
    obtain ⟨path, ⟨rfl, _⟩, read⟩ := read
    split at read
    · next holed => exact ⟨path, rfl, holed⟩
    · exact absurd read (Succeeds.not_error _)
  · intro holed
    obtain ⟨path, rfl, holed⟩ := holed
    have named : path ≠ "" := by
      rintro rfl
      exact absurd holed (by decide)
    exact ⟨path, ⟨rfl, named⟩, by simp [holed]⟩

theorem succeeds_literalOperand_iff {op : Op}
    : Succeeds (literalOperand key op value) ↔ op.Accepts value := by
  constructor
  · intro read
    obtain ⟨operand, read⟩ := read
    have same : operand = .literal value := by
      simp only [literalOperand] at read
      split at read <;> cases read <;> rfl
    subst same
    cases (yields_literalOperand key op value).of_eq_ok read with
    | literal accepted => exact accepted
  · intro accepted
    obtain ⟨array, string⟩ := accepted
    cases op with
    | isIn =>
        obtain ⟨items, rfl⟩ := array (.inl rfl)
        simp [literalOperand]
    | containsAny =>
        obtain ⟨items, rfl⟩ := array (.inr rfl)
        simp [literalOperand]
    | contains =>
        obtain ⟨text, rfl⟩ := string rfl
        simp [literalOperand]
    | _ => simp [literalOperand]

theorem subQueryTarget_eq_ok_iff {text : List Char} {depth : Nat} {found : BucketDef × String}
    : subQueryTarget catalog limits key text depth = .ok found
      ↔ ∃ target field registration,
          Query.SubQueryTarget catalog limits depth text target field registration
          ∧ (registration.definition, String.ofList field) = found := by
  constructor
  · intro read
    simp only [subQueryTarget] at read
    split at read
    · next first target second field cut =>
      obtain ⟨same, outside⟩ := Text.cutFirst_eq_some_iff.mp cut
      split at read
      · cases read
      · next shallow =>
        split at read
        · cases read
        · next registration registered =>
          split at read
          · next addressable =>
            exact ⟨_, _, registration, ⟨same, outside, by simp, by simp, by omega, registered,
              addressable⟩, Except.ok.inj read⟩
          · cases read
    · cases read
  · intro named
    obtain ⟨target, field, registration, names, rfl⟩ := named
    obtain ⟨rfl, outside, targeted, named, shallow, registered, addressable⟩ := names
    obtain ⟨first, target, rfl⟩ := List.exists_cons_of_ne_nil targeted
    obtain ⟨second, field, rfl⟩ := List.exists_cons_of_ne_nil named
    have shallow : ¬limits.maxDepth < depth + 1 := by omega
    simp only [subQueryTarget, Text.cutFirst_eq_some_iff.mpr ⟨rfl, outside⟩, if_neg shallow,
      registered, if_pos addressable]

mutual

/-- Entries are read exactly if each may stand in the query, by induction on the query. -/
theorem succeeds_readEntries_iff (bucket : BucketDef) (depth : Nat)
    (entries : List (String × Value)) (draft : Draft)
    : Succeeds (readEntries catalog limits bucket depth entries draft)
      ↔ ∀ entry ∈ entries, Query.EntryWellFormed catalog limits bucket depth entry := by
  match entries with
  | [] => simp [readEntries]
  | (key, value) :: rest =>
      rw [List.forall_mem_cons]
      simp only [readEntries]
      split
      · next name body =>
        rw [Query.entryWellFormed_group_iff body]
        split
        · next unnamed => simp [unnamed]
        · next kind named =>
          rw [← succeeds_readGroup_iff bucket depth key value, named]
          simpa using Succeeds.bind_iff_and fun alternatives =>
            succeeds_readEntries_iff bucket depth rest _
      · next text body =>
        have compared (test : Test)
            : Succeeds (do
                let member ← readMember catalog limits depth key test value
                readEntries catalog limits bucket depth rest
                  ((draft.opened key).addMembers [member]))
              ↔ Query.ComparandWellFormed catalog limits test.op depth value
                ∧ ∀ entry ∈ rest, Query.EntryWellFormed catalog limits bucket depth entry := by
          rw [← succeeds_readMember_iff depth key test value]
          exact Succeeds.bind_iff_and fun member => succeeds_readEntries_iff bucket depth rest _
        rw [Query.entryWellFormed_rule_iff body]
        simp only [← Test.exists_ofKey_iff key]
        refine Succeeds.bind_iff.trans ?_
        constructor
        · intro read
          obtain ⟨test, tested, read⟩ := read
          obtain ⟨comparand, after⟩ := (compared test).mp read
          exact ⟨⟨_, ⟨test, tested, rfl⟩, comparand⟩, after⟩
        · intro wellFormed
          obtain ⟨⟨_, ⟨test, tested, rfl⟩, comparand⟩, after⟩ := wellFormed
          exact ⟨test, tested, (compared test).mpr ⟨comparand, after⟩⟩
termination_by sizeOf entries

/-- A group is read exactly if its value is a query on the same bucket. -/
theorem succeeds_readGroup_iff (bucket : BucketDef) (depth : Nat) (key : String) (value : Value)
    : Succeeds (readGroup catalog limits bucket depth key value)
      ↔ ∃ entries,
          value = .object entries
          ∧ ∀ entry ∈ entries, Query.EntryWellFormed catalog limits bucket depth entry := by
  match value with
  | .object entries =>
      simp only [readGroup, Value.object.injEq, exists_eq_left']
      rw [← succeeds_readEntries_iff bucket depth entries .start]
      exact Succeeds.bind_ok_iff
  | .null | .bool _ | .number _ | .string _ | .array _ => simp [readGroup]
termination_by sizeOf value

/-- The value of a rule is read exactly if the rule's operator may compare with it. -/
theorem succeeds_readMember_iff (depth : Nat) (key : String) (test : Test) (value : Value)
    : Succeeds (readMember catalog limits depth key test value)
      ↔ Query.ComparandWellFormed catalog limits test.op depth value := by
  have literal (unmarked : ¬value.IsMarked)
      : Succeeds
          (literalOperand key test.op value >>= fun operand => .ok (Member.rule test operand))
        ↔ Query.ComparandWellFormed catalog limits test.op depth value := by
    rw [Query.comparandWellFormed_literal_iff unmarked, ← succeeds_literalOperand_iff]
    exact Succeeds.bind_ok_iff
  match value with
  | .object [(marker, inner)] =>
      simp only [readMember]
      -- a dot, a dollar sign, an at sign with a target, and any other key
      split
      · next dot =>
        obtain rfl : marker = "." := String.toList_inj.mp dot
        rw [Query.comparandWellFormed_marked_iff (.inl rfl)]
        refine Succeeds.bind_ok_iff.trans ?_
        simp [Succeeds, referencePath_eq_ok_iff]
      · next dollar =>
        obtain rfl : marker = "$" := String.toList_inj.mp dollar
        rw [Query.comparandWellFormed_marked_iff (.inr (.inl rfl))]
        refine Succeeds.bind_ok_iff.trans ?_
        simp [succeeds_templateOperand_iff]
      · next target marked =>
        have unparam : marker ≠ "." := by
          rintro rfl
          simp at marked
        have untemplate : marker ≠ "$" := by
          rintro rfl
          simp at marked
        have asked (bucket : BucketDef) (field : String) :=
          succeeds_readSubQuery_iff depth key test bucket field inner
        rw [Query.comparandWellFormed_marked_iff (.inr (.inr (by simp [marked])))]
        simp only [Succeeds.bind_iff, subQueryTarget_eq_ok_iff, asked, marked, unparam, untemplate,
          false_and, false_or, List.cons.injEq, true_and, exists_eq_left']
        constructor
        · intro read
          obtain ⟨_, ⟨target, field, registration, names, rfl⟩, inside⟩ := read
          exact ⟨target, field, registration, names, inside⟩
        · intro wellFormed
          obtain ⟨target, field, registration, names, inside⟩ := wellFormed
          exact ⟨_, ⟨target, field, registration, names, rfl⟩, inside⟩
      · next unparam untemplate unasked =>
        refine literal ?_
        intro isMarked
        obtain ⟨_, _, same, marked⟩ := isMarked
        cases same
        rcases marked with rfl | rfl | marked
        · exact unparam rfl
        · exact untemplate rfl
        · obtain ⟨target, marked⟩ := List.head?_eq_some_iff.mp marked
          exact unasked target marked
  | .object [] | .object (_ :: _ :: _) | .null | .bool _ | .number _ | .string _ | .array _ =>
      simp only [readMember]
      exact literal (by simp [Value.IsMarked])
termination_by sizeOf value

/-- A sub-query is read exactly if its value is a query on the bucket of its marker. -/
theorem succeeds_readSubQuery_iff (depth : Nat) (key : String) (test : Test) (bucket : BucketDef)
    (field : String) (value : Value)
    : Succeeds (readSubQuery catalog limits depth key test bucket field value)
      ↔ ∃ entries,
          value = .object entries
          ∧ ∀ entry ∈ entries, Query.EntryWellFormed catalog limits bucket (depth + 1) entry := by
  match value with
  | .object entries =>
      simp only [readSubQuery, Value.object.injEq, exists_eq_left']
      rw [← succeeds_readEntries_iff bucket (depth + 1) entries .start]
      exact Succeeds.bind_ok_iff
  | .null | .bool _ | .number _ | .string _ | .array _ => simp [readSubQuery]
termination_by sizeOf value

end

/-- A query on a bucket is read exactly if the bucket is registered and every entry of the query
may stand in it.
-/
theorem succeeds_ofQuery_iff (catalog : Catalog ρ) (limits : Limits) (bucket : String)
    (query : Query)
    : Succeeds (ofQuery catalog limits bucket query)
      ↔ ∃ registration,
          catalog.get? bucket = some registration
          ∧ query.WellFormed catalog limits registration.definition := by
  have defined (bucketDef : BucketDef)
      : definition catalog bucket = .ok bucketDef
        ↔ ∃ registration,
            catalog.get? bucket = some registration ∧ registration.definition = bucketDef := by
    cases registered : catalog.get? bucket <;> simp [definition, registered]
  refine Succeeds.bind_iff.trans ?_
  constructor
  · intro read
    obtain ⟨bucketDef, found, read⟩ := read
    obtain ⟨registration, registered, rfl⟩ := (defined bucketDef).mp found
    have entriesRead := Succeeds.bind_ok_iff.mp read
    exact ⟨registration, registered, (succeeds_readEntries_iff ..).mp entriesRead⟩
  · intro wellFormed
    obtain ⟨registration, registered, wellFormed⟩ := wellFormed
    refine ⟨_, (defined _).mpr ⟨registration, registered, rfl⟩, ?_⟩
    exact Succeeds.bind_ok_iff.mpr ((succeeds_readEntries_iff ..).mpr wellFormed)

end RuleTree

end FederatedQuery
