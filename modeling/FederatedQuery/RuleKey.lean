import FederatedQuery.Bucket
import FederatedQuery.Error
import FederatedQuery.RuleTree
import FederatedQuery.Text.Alphanumeric
import FederatedQuery.Text.Blank

/-! The keys of a query object. A key names a group of conditions, or a field and how to test
it; in front of either, `or` begins a new alternative.
-/

namespace FederatedQuery

/-- The two ways in which a group joins the conditions around it. -/
inductive GroupKind where
  | all
  | any
deriving DecidableEq

/-- What a key is, before its details are read. -/
inductive KeyBody where
  /-- The text behind a number sign. -/
  | group (name : List Char)
  /-- A field path and modifiers. -/
  | rule (text : List Char)
deriving DecidableEq

/-- A key, with its `or` taken off. -/
structure EntryKey where
  opensAlternative : Bool
  body : KeyBody
deriving DecidableEq

/-- A text behind a number sign names a group, any other is a rule. -/
def KeyBody.ofText : List Char → KeyBody
  | '#' :: name => .group name
  | text => .rule text

/-- Takes the `or` and the blanks behind it off a key. -/
def EntryKey.ofText (key : String) : EntryKey :=
  match key.toList with
  | 'o' :: 'r' :: ' ' :: rest => ⟨true, KeyBody.ofText (Text.trimStart rest)⟩
  | text => ⟨false, KeyBody.ofText text⟩

/-- The kind of a group by its name, and what follows the kind. -/
def GroupKind.split? : List Char → Option (GroupKind × List Char)
  | 'a' :: 'n' :: 'd' :: rest => some (all, rest)
  | 'o' :: 'r' :: rest => some (any, rest)
  | _ => none

/-- The kind of a group. A name may go on behind the kind, but not with a letter or digit. -/
def GroupKind.ofName? (name : List Char) : Option GroupKind :=
  match split? name with
  | some (kind, []) => some kind
  | some (kind, next :: _) => if Text.isAlphanumeric next then none else some kind
  | none => none

/-- The modifiers read so far. -/
structure Modifiers where
  negated : Bool
  foldCase : Bool
  op : Option Op
deriving DecidableEq

namespace Modifiers

/-- No modifiers. -/
def none : Modifiers := ⟨false, false, .none⟩

/-- Reads an operator token, which may have a tilde in front. The token as written appears in
errors.
-/
def addOperator (key : String) (modifiers : Modifiers) (token : List Char)
    : Except StructuralError Modifiers :=
  let (tilde, name) :=
    match token with
    | '~' :: name => (true, name)
    | name => (false, name)
  match Op.ofToken? (String.ofList name) with
  | .none => .error (.unknownOperator key (String.ofList token))
  | .some op =>
      if modifiers.op.isSome then .error (.invalidModifier key "more than one operator")
      else .ok ⟨modifiers.negated, modifiers.foldCase || tilde, .some op⟩

/-- Reads one token: a negation, a tilde or an operator. -/
def add (key : String) (modifiers : Modifiers) (token : List Char)
    : Except StructuralError Modifiers :=
  if token = ['n', 'o', 't'] then
    if modifiers.negated then .error (.invalidModifier key "'not' repeated")
    else .ok { modifiers with negated := true }
  else if token = ['~'] then .ok { modifiers with foldCase := true }
  else modifiers.addOperator key token

/-- Reads tokens from left to right. -/
def addAll (key : String) : Modifiers → List (List Char) → Except StructuralError Modifiers
  | modifiers, [] => .ok modifiers
  | modifiers, token :: rest => do
      let modifiers ← modifiers.add key token
      addAll key modifiers rest

/-- The test on a field that the modifiers describe. Equality is the operator of keys that
name none, and a tilde needs an operator that can disregard case.
-/
def toTest (key : String) (field : List Char) (modifiers : Modifiers)
    : Except StructuralError Test :=
  let op := modifiers.op.getD .eq
  if modifiers.foldCase && !op.supportsFoldCase then
    .error (.invalidModifier key ("'~' does not apply to '" ++ op.token ++ "'"))
  else .ok ⟨String.ofList field, op, modifiers.negated, modifiers.foldCase⟩

end Modifiers

/-- Reads the test of a rule key on a bucket: a field path and modifiers between blanks. The
path has to be addressable on the bucket.
-/
def Test.ofKey (bucket : BucketDef) (key : String) (text : List Char)
    : Except StructuralError Test :=
  match Text.words text with
  | [] => .error (.emptyFieldPath key)
  | field :: tokens => do
      let modifiers ← Modifiers.none.addAll key tokens
      let test ← modifiers.toTest key field
      if bucket.hasField test.field then .ok test
      else .error ((StructuralError.unknownField bucket.name test.field).withKey key)

end FederatedQuery
