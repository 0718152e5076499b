import FederatedQuery.Proofs.Computation
import FederatedQuery.Proofs.Text.Blank
import FederatedQuery.RuleKey

/-! The grammar of keys. A key names a group, or it names a field and asks for a test of it, by a
negation, tildes and an operator in any order. Keys of this grammar are read and no others.
-/

namespace FederatedQuery

-----------------------------------------------------------------------------------------
-- What a key says
-----------------------------------------------------------------------------------------

namespace EntryKey

/-- The text is what a key says, be it in a new alternative or not. Behind `or` and a space further
blanks are skipped.
-/
inductive Says : List Char → List Char → Prop where
  | here {text : List Char} (bare : ¬['o', 'r', ' '] <+: text) : Says text text
  | apart {blanks text : List Char} (skipped : ∀ c ∈ blanks, Text.isBlank c = true)
      (begins : ∀ c ∈ text.head?, Text.isBlank c = false)
      : Says ('o' :: 'r' :: ' ' :: (blanks ++ text)) text

theorem says_apart_iff {rest text : List Char}
    : Says ('o' :: 'r' :: ' ' :: rest) text ↔ Text.trimStart rest = text := by
  rw [Text.trimStart_eq_iff]
  constructor
  · intro said
    cases said with
    | here bare => exact absurd ⟨rest, rfl⟩ bare
    | apart skipped begins => exact ⟨_, rfl, skipped, begins⟩
  · intro parted
    obtain ⟨blanks, rfl, skipped, begins⟩ := parted
    exact .apart skipped begins

theorem says_here_iff {key text : List Char} (bare : ¬['o', 'r', ' '] <+: key)
    : Says key text ↔ key = text := by
  constructor
  · intro said
    cases said with
    | here => rfl
    | apart => exact absurd ⟨_, rfl⟩ bare
  · intro same
    exact same ▸ .here bare

/-- A key is read as what it says. -/
theorem body_ofText_eq_iff {key : String} {body : KeyBody}
    : (ofText key).body = body ↔ ∃ text, Says key.toList text ∧ KeyBody.ofText text = body := by
  simp only [ofText]
  split
  · next rest apart => simp [apart, says_apart_iff]
  · next bare =>
    have bare : ¬['o', 'r', ' '] <+: key.toList := by
      intro begins
      obtain ⟨rest, joined⟩ := begins
      exact bare rest joined.symm
    simp [says_here_iff bare]

end EntryKey

/-- A number sign stands in front of groups and of nothing else. -/
theorem KeyBody.ofText_eq_group_iff {text name : List Char}
    : ofText text = .group name ↔ text = '#' :: name := by
  fun_cases ofText text with
  | case1 => simp
  | case2 text unmarked => simpa using unmarked name

theorem KeyBody.ofText_eq_rule_iff {text asked : List Char}
    : ofText text = .rule asked ↔ text = asked ∧ asked.head? ≠ some '#' := by
  fun_cases ofText text with
  | case1 name =>
      refine ⟨nofun, fun asked => ?_⟩
      obtain ⟨rfl, unmarked⟩ := asked
      exact absurd rfl unmarked
  | case2 text unmarked =>
      have plain : text.head? ≠ some '#' := by
        intro marked
        obtain ⟨name, rfl⟩ := List.head?_eq_some_iff.mp marked
        exact unmarked name rfl
      rw [KeyBody.rule.injEq]
      exact ⟨fun same => ⟨same, same ▸ plain⟩, And.left⟩

/-- A key names a group if it says so behind a number sign. -/
theorem EntryKey.body_ofText_eq_group_iff {key : String} {name : List Char}
    : (ofText key).body = .group name ↔ Says key.toList ('#' :: name) := by
  simp [body_ofText_eq_iff, KeyBody.ofText_eq_group_iff]

/-- A key asks for a test if it does not say a number sign first. -/
theorem EntryKey.body_ofText_eq_rule_iff {key : String} {asked : List Char}
    : (ofText key).body = .rule asked ↔ Says key.toList asked ∧ asked.head? ≠ some '#' := by
  simp only [body_ofText_eq_iff, KeyBody.ofText_eq_rule_iff, ← and_assoc, exists_and_right,
    exists_eq_right]

-----------------------------------------------------------------------------------------
-- Groups
-----------------------------------------------------------------------------------------

/-- The word that names the kind. -/
def GroupKind.word : GroupKind → List Char
  | all => ['a', 'n', 'd']
  | any => ['o', 'r']

theorem GroupKind.split?_eq_some_iff {name suffix : List Char} {kind : GroupKind}
    : split? name = some (kind, suffix) ↔ name = kind.word ++ suffix := by
  fun_cases split? name with
  | case1 rest => cases kind <;> simp [word]
  | case2 rest => cases kind <;> simp [word]
  | case3 name notAll notAny =>
      cases kind with
      | all => simpa [word] using notAll suffix
      | any => simpa [word] using notAny suffix

/-- A group is named by the word of its kind, alone or in front of anything that does not begin
with a letter or a digit.
-/
theorem GroupKind.ofName?_eq_some_iff {name : List Char} {kind : GroupKind}
    : ofName? name = some kind
      ↔ ∃ suffix,
          name = kind.word ++ suffix ∧ ∀ c ∈ suffix.head?, Text.isAlphanumeric c = false := by
  simp only [← split?_eq_some_iff, ofName?]
  constructor
  · intro named
    split at named
    · next found split => exact ⟨[], Option.some.inj named ▸ split, nofun⟩
    · next found next rest split =>
      split at named
      · cases named
      · next separate =>
        refine ⟨next :: rest, Option.some.inj named ▸ split, ?_⟩
        simpa using separate
    · cases named
  · intro named
    obtain ⟨suffix, split, separate⟩ := named
    rw [split]
    cases suffix with
    | nil => rfl
    | cons next rest => simp [separate next rfl]

-----------------------------------------------------------------------------------------
-- Modifiers
-----------------------------------------------------------------------------------------

/-- One of the words behind the field of a rule key. -/
inductive Modifier where
  | negation
  | tilde
  | operator (folded : Bool) (op : Op)
deriving DecidableEq

namespace Modifier

/-- The word as it is written. -/
def token : Modifier → List Char
  | negation => ['n', 'o', 't']
  | tilde => ['~']
  | operator folded op => (if folded then ['~'] else []) ++ op.token.toList

/-- The word is the negation. -/
def isNegation : Modifier → Bool
  | negation => true
  | tilde | operator _ _ => false

/-- The operator that the word names. -/
def op? : Modifier → Option Op
  | negation | tilde => none
  | operator _ op => some op

/-- The word is a tilde, or an operator with one in front. -/
def hasTilde : Modifier → Bool
  | negation => false
  | tilde => true
  | operator folded _ => folded

/-- The words may stand behind a field and ask for the operator: there is at most one negation and
at most one operator, equality is meant where there is none, and a tilde needs an operator that can
disregard case.
-/
structure AskFor (written : List Modifier) (op : Op) : Prop where
  negation : written.countP isNegation ≤ 1
  operator : written.countP (·.op?.isSome) ≤ 1
  asked : (written.findSome? op?).getD .eq = op
  foldable : written.any hasTilde = true → op ∈ [.eq, .isIn, .contains, .containsAny]

/-- What reading the word makes of the modifiers before it. -/
def addTo (modifiers : Modifiers) (modifier : Modifier) : Modifiers :=
  ⟨modifiers.negated || modifier.isNegation, modifiers.foldCase || modifier.hasTilde,
    modifiers.op.or modifier.op?⟩

/-- The word may follow the modifiers: it is no second negation and no second operator. -/
def Follows (modifiers : Modifiers) (modifier : Modifier) : Prop :=
  (modifiers.negated && modifier.isNegation) = false
  ∧ (modifiers.op.isSome && modifier.op?.isSome) = false

/-- An operator is read by its own token. -/
theorem ofToken?_eq_some_iff {name : List Char} {op : Op}
    : Op.ofToken? (String.ofList name) = some op ↔ name = op.token.toList := by
  constructor
  · intro found
    simp [Op.token_of_ofToken? found]
  · intro same
    simp [same, Op.ofToken?_token]

theorem head?_token_ne_tilde (op : Op) : op.token.toList.head? ≠ some '~' := by
  cases op <;> decide

/-- An operator is read behind a tilde, or as a token that does not begin with one. -/
theorem addOperator_append_eq_ok_iff {key : String} {modifiers next : Modifiers} {folded : Bool}
    {name : List Char} (parted : folded = false → name.head? ≠ some '~')
    : modifiers.addOperator key ((if folded then ['~'] else []) ++ name) = .ok next
      ↔ ∃ op,
          name = op.token.toList
          ∧ (operator folded op).Follows modifiers
          ∧ addTo modifiers (operator folded op) = next := by
  have named : modifiers.addOperator key ((if folded then ['~'] else []) ++ name) = .ok next
      ↔ ∃ op,
          Op.ofToken? (String.ofList name) = some op
          ∧ (operator folded op).Follows modifiers
          ∧ addTo modifiers (operator folded op) = next := by
    cases folded with
    | true =>
        simp only [Modifiers.addOperator, if_true, List.singleton_append]
        cases Op.ofToken? (String.ofList name) with
        | none => simp
        | some op =>
            cases first : modifiers.op <;>
              simp [Follows, addTo, isNegation, hasTilde, op?, first]
    | false =>
        have plain (rest : List Char) (same : name = '~' :: rest) : False :=
          parted rfl (by simp [same])
        simp only [Modifiers.addOperator, Bool.false_eq_true, if_false, List.nil_append]
        cases Op.ofToken? (String.ofList name) with
        | none => simp
        | some op =>
            cases first : modifiers.op <;>
              simp [Follows, addTo, isNegation, hasTilde, op?, first]
  simpa only [ofToken?_eq_some_iff] using named

theorem addOperator_eq_ok_iff {key : String} {modifiers next : Modifiers} {token : List Char}
    : modifiers.addOperator key token = .ok next
      ↔ ∃ folded op,
          token = (operator folded op).token
          ∧ (operator folded op).Follows modifiers
          ∧ addTo modifiers (operator folded op) = next := by
  constructor
  · intro read
    obtain ⟨folded, name, rfl, parted⟩ : ∃ folded name,
        token = (if folded then ['~'] else []) ++ name
        ∧ (folded = false → name.head? ≠ some '~') := by
      by_cases tilde : token.head? = some '~'
      · obtain ⟨name, rfl⟩ := List.head?_eq_some_iff.mp tilde
        exact ⟨true, name, rfl, nofun⟩
      · exact ⟨false, token, rfl, fun _ => tilde⟩
    obtain ⟨op, rfl, follows, same⟩ := (addOperator_append_eq_ok_iff parted).mp read
    exact ⟨folded, op, rfl, follows, same⟩
  · intro written
    obtain ⟨folded, op, rfl, follows, same⟩ := written
    exact (addOperator_append_eq_ok_iff fun _ => head?_token_ne_tilde op).mpr
      ⟨op, rfl, follows, same⟩

/-- A word is read if it is a modifier that may follow those before it. -/
theorem add_eq_ok_iff {key : String} {modifiers next : Modifiers} {token : List Char}
    : modifiers.add key token = .ok next
      ↔ ∃ modifier : Modifier,
          token = modifier.token
          ∧ modifier.Follows modifiers
          ∧ modifier.addTo modifiers = next := by
  constructor
  · intro read
    simp only [Modifiers.add] at read
    split at read
    · split at read
      · cases read
      · next negation first =>
        refine ⟨.negation, negation, ?_, ?_⟩
        · simpa [Follows, isNegation, op?] using first
        · simpa [addTo, isNegation, hasTilde, op?] using read
    · split at read
      · next tilde =>
        refine ⟨.tilde, tilde, ?_, ?_⟩
        · simp [Follows, isNegation, op?]
        · simpa [addTo, isNegation, hasTilde, op?] using read
      · obtain ⟨folded, op, same⟩ := addOperator_eq_ok_iff.mp read
        exact ⟨.operator folded op, same⟩
  · intro written
    obtain ⟨modifier, rfl, follows, rfl⟩ := written
    cases modifier with
    | negation =>
        have first : modifiers.negated = false := by simpa [isNegation] using follows.1
        simp [Modifiers.add, token, addTo, isNegation, hasTilde, op?, first]
    | tilde => simp [Modifiers.add, token, addTo, isNegation, hasTilde, op?]
    | operator folded op =>
        have different : (operator folded op).token ≠ ['n', 'o', 't']
            ∧ (operator folded op).token ≠ ['~'] := by
          cases folded <;> cases op <;> decide
        simp only [Modifiers.add, if_neg different.1, if_neg different.2]
        exact addOperator_eq_ok_iff.mpr ⟨folded, op, rfl, follows, rfl⟩

/-- What reading words from left to right makes of the modifiers before them. -/
def addAllTo (modifiers : Modifiers) (written : List Modifier) : Modifiers :=
  ⟨modifiers.negated || written.any isNegation, modifiers.foldCase || written.any hasTilde,
    modifiers.op.or (written.findSome? op?)⟩

/-- The modifiers and the words behind them have at most one negation and at most one operator. -/
def Room (modifiers : Modifiers) (written : List Modifier) : Prop :=
  modifiers.negated.toNat + written.countP isNegation ≤ 1
  ∧ modifiers.op.isSome.toNat + written.countP (·.op?.isSome) ≤ 1

variable {modifiers : Modifiers} {modifier : Modifier} {written : List Modifier}

theorem room_nil (modifiers : Modifiers) : Room modifiers [] :=
  ⟨Bool.toNat_le _, Bool.toNat_le _⟩

/-- A word takes up the room that it follows into. -/
theorem room_cons_iff
    : Room modifiers (modifier :: written)
      ↔ modifier.Follows modifiers ∧ Room (modifier.addTo modifiers) written := by
  have once (taken asked : Bool) (count : Nat)
      : taken.toNat + (count + if asked = true then 1 else 0) ≤ 1
        ↔ (taken && asked) = false ∧ (taken || asked).toNat + count ≤ 1 := by
    cases taken with
    | false => cases asked <;> grind
    | true => cases asked <;> grind
  simp only [Room, Follows, addTo, List.countP_cons, Option.isSome_or, once]
  exact and_and_and_comm

theorem addAllTo_cons (modifiers : Modifiers) (modifier : Modifier) (written : List Modifier)
    : addAllTo modifiers (modifier :: written) = addAllTo (modifier.addTo modifiers) written := by
  have first : (modifier :: written).findSome? op? = modifier.op?.or (written.findSome? op?) := by
    cases op : modifier.op? <;> simp [op]
  simp only [addAllTo, addTo, List.any_cons, first, Bool.or_assoc, Option.or_assoc]

/-- Words are read if they are modifiers for which there is room, by induction on the words. -/
theorem addAll_eq_ok_iff {key : String} {modifiers final : Modifiers} {tokens : List (List Char)}
    : modifiers.addAll key tokens = .ok final
      ↔ ∃ written : List Modifier,
          tokens = written.map token
          ∧ Room modifiers written
          ∧ addAllTo modifiers written = final := by
  induction tokens generalizing modifiers with
  | nil =>
      simp [Modifiers.addAll, room_nil, addAllTo]
  | cons word rest ih =>
      simp only [Modifiers.addAll, bind_eq_ok_iff, add_eq_ok_iff, ih]
      constructor
      · intro read
        obtain ⟨_, ⟨modifier, rfl, follows, rfl⟩, written, rfl, room, rfl⟩ := read
        exact ⟨modifier :: written, rfl, room_cons_iff.mpr ⟨follows, room⟩, addAllTo_cons ..⟩
      · intro fits
        obtain ⟨written, words, room, rfl⟩ := fits
        obtain ⟨modifier, others, rfl, rfl, rfl⟩ := List.map_eq_cons_iff.mp words.symm
        obtain ⟨follows, room⟩ := room_cons_iff.mp room
        exact ⟨_, ⟨modifier, rfl, follows, rfl⟩, others, rfl, room, (addAllTo_cons ..).symm⟩

/-- Words ask for an operator if they can be read before all others and make modifiers that do. -/
theorem askFor_iff {op : Op}
    : AskFor written op
      ↔ Room .none written
        ∧ (addAllTo .none written).op.getD .eq = op
        ∧ ((addAllTo .none written).foldCase = true
          → op ∈ [.eq, .isIn, .contains, .containsAny]) := by
  simp only [Room, addAllTo, Modifiers.none, Bool.toNat_false, Nat.zero_add, Option.isSome_none,
    Option.none_or, Bool.false_or]
  constructor
  · intro askFor
    exact ⟨⟨askFor.negation, askFor.operator⟩, askFor.asked, askFor.foldable⟩
  · intro fits
    obtain ⟨⟨negation, operator⟩, asked, foldable⟩ := fits
    exact ⟨negation, operator, asked, foldable⟩

end Modifier

/-- The text of a rule key asks for a test of a field of the bucket with the operator. -/
def Test.Asked (bucket : BucketDef) (text : List Char) (op : Op) : Prop :=
  ∃ field written,
    Text.words text = field :: written.map Modifier.token
    ∧ bucket.hasField (String.ofList field) = true
    ∧ Modifier.AskFor written op

/-- Modifiers describe a test unless there is a tilde that does not apply. -/
theorem Modifiers.toTest_eq_ok_iff {key : String} {field : List Char} {modifiers : Modifiers}
    {test : Test}
    : modifiers.toTest key field = .ok test
      ↔ (modifiers.foldCase = true
          → modifiers.op.getD .eq ∈ [.eq, .isIn, .contains, .containsAny])
        ∧ ⟨String.ofList field, modifiers.op.getD .eq, modifiers.negated, modifiers.foldCase⟩
          = test := by
  simp only [toTest, ← Op.supportsFoldCase_iff]
  cases modifiers.foldCase <;> cases (modifiers.op.getD .eq).supportsFoldCase <;> simp

/-- The test of a key is read if the key asks for one. -/
theorem Test.exists_ofKey_iff {bucket : BucketDef} (key : String) {text : List Char} {op : Op}
    : (∃ test, ofKey bucket key text = .ok test ∧ test.op = op) ↔ Asked bucket text op := by
  simp only [ofKey]
  split
  · next words => simp [Asked, words]
  · next field tokens words =>
    constructor
    · intro read
      obtain ⟨test, read, rfl⟩ := read
      obtain ⟨modifiers, readAll, read⟩ := bind_eq_ok_iff.mp read
      obtain ⟨_, tested, read⟩ := bind_eq_ok_iff.mp read
      obtain ⟨written, rfl, room, rfl⟩ := Modifier.addAll_eq_ok_iff.mp readAll
      obtain ⟨foldable, rfl⟩ := Modifiers.toTest_eq_ok_iff.mp tested
      split at read
      · next addressable =>
        obtain rfl := Except.ok.inj read
        exact ⟨field, written, words, addressable, Modifier.askFor_iff.mpr ⟨room, rfl, foldable⟩⟩
      · cases read
    · intro asked
      obtain ⟨_, written, same, addressable, asked⟩ := asked
      obtain ⟨rfl, rfl⟩ := List.cons.inj (words.symm.trans same)
      obtain ⟨room, rfl, foldable⟩ := Modifier.askFor_iff.mp asked
      refine ⟨_, bind_eq_ok_iff.mpr ⟨_, Modifier.addAll_eq_ok_iff.mpr ⟨written, rfl, room, rfl⟩,
        bind_eq_ok_iff.mpr ⟨_, Modifiers.toTest_eq_ok_iff.mpr ⟨foldable, rfl⟩, if_pos addressable⟩⟩,
        rfl⟩

end FederatedQuery
