import FederatedQuery.Catalog
import FederatedQuery.Query
import FederatedQuery.RuleKey
import FederatedQuery.Settings
import FederatedQuery.TemplatePath

/-! Reading a query object as a rule tree. The entries are read in order; a rule joins the
current alternative, and groups and sub-queries are read as queries of their own.
-/

namespace FederatedQuery

/-- The alternatives of a query while its entries are read: those before the current one, the
current one, and those that groups have added since it was begun.
-/
structure Draft where
  earlier : List Alternative
  current : Alternative
  later : List Alternative

namespace Draft

/-- Nothing read yet. -/
def start : Draft := ⟨[], [], []⟩

/-- Begins a new alternative behind all others, unless the current one is still empty. -/
def beginAlternative (draft : Draft) : Draft :=
  if draft.current.isEmpty then draft
  else ⟨draft.earlier ++ draft.current :: draft.later, [], []⟩

/-- Adds members to the current alternative. -/
def addMembers (draft : Draft) (members : List Member) : Draft :=
  { draft with current := draft.current ++ members }

/-- Adds alternatives behind all others. The current one stays current. -/
def addAlternatives (draft : Draft) (alternatives : List Alternative) : Draft :=
  { draft with later := draft.later ++ alternatives }

/-- Adds what a group on the same bucket says. An `and` group of one alternative adds its
members, one of several adds them as a nested choice.
-/
def addGroup (draft : Draft) (kind : GroupKind) (bucket : String)
    (alternatives : List Alternative) : Draft :=
  match kind, alternatives with
  | .any, alternatives => draft.addAlternatives alternatives
  | .all, [] => draft
  | .all, [only] => draft.addMembers only
  | .all, alternatives => draft.addMembers [.group (.anyOf bucket none alternatives)]

/-- The alternatives that ask something. -/
def alternatives (draft : Draft) : List Alternative :=
  (draft.earlier ++ draft.current :: draft.later).filter fun members => !members.isEmpty

end Draft

namespace RuleTree

/-- The path of a reference, which has to be a string that is not empty. -/
def referencePath (key : String) : Value → Except StructuralError String
  | .string path =>
      if path = "" then .error (.malformedMarker key "reference path must be a non-empty string")
      else .ok path
  | _ => .error (.malformedMarker key "reference path must be a non-empty string")

/-- A template reference, which needs a placeholder. -/
def templateOperand (key : String) (value : Value) : Except StructuralError Operand := do
  let path ← referencePath key value
  if TemplatePath.hasPlaceholder path then .ok (.template path)
  else .error (.malformedMarker key "template path has no '$N' placeholder")

/-- A literal, which has to be of a type that the operator can use. -/
def literalOperand (key : String) (op : Op) (value : Value)
    : Except StructuralError Operand :=
  match op, value with
  | .isIn, .array _ | .containsAny, .array _ | .contains, .string _ => .ok (.literal value)
  | .isIn, _ | .containsAny, _ =>
      .error (.invalidValue key ("'" ++ op.token ++ "' expects an array"))
  | .contains, _ => .error (.invalidValue key "'contains' expects a string")
  | _, _ => .ok (.literal value)

variable {ρ : Type}

/-- The definition of a registered bucket. -/
def definition (catalog : Catalog ρ) (bucket : String) : Except StructuralError BucketDef :=
  match catalog.get? bucket with
  | some registration => .ok registration.definition
  | none => .error (.unknownBucket bucket)

/-- The bucket and the field that a sub-query marker names, for a sub-query of a query at the
given depth. The field is what stands behind the first point.
-/
def subQueryTarget (catalog : Catalog ρ) (limits : Limits) (key : String)
    (target : List Char) (depth : Nat) : Except StructuralError (BucketDef × String) :=
  match Text.cutFirst '.' target with
  | some (bucket@(_ :: _), field@(_ :: _)) =>
      let bucket := String.ofList bucket
      let field := String.ofList field
      if limits.maxDepth < depth + 1 then
        .error ((StructuralError.limitExceeded
          ("sub-query depth exceeds " ++ Nat.repr limits.maxDepth)).withKey key)
      else
        match catalog.get? bucket with
        | none => .error ((StructuralError.unknownBucket bucket).withKey key)
        | some registration =>
            if registration.definition.hasField field then
              .ok (registration.definition, field)
            else .error ((StructuralError.unknownField bucket field).withKey key)
  | _ =>
      .error (.malformedMarker key
        ("'@" ++ String.ofList target ++ "' is not '@bucket.field'"))

mutual

/-- Reads entries of a query on a bucket, at a sub-query depth, onto a draft. -/
def readEntries (catalog : Catalog ρ) (limits : Limits) (bucket : BucketDef) (depth : Nat)
    : List (String × Value) → Draft → Except StructuralError Draft
  | [], draft => .ok draft
  | (key, value) :: rest, draft => do
      let entry := EntryKey.ofText key
      let draft := if entry.opensAlternative then draft.beginAlternative else draft
      match entry.body with
      | .group name =>
          match GroupKind.ofName? name with
          | none => .error (.malformedGroup key "expected '#and' or '#or'")
          | some kind => do
              let alternatives ← readGroup catalog limits bucket depth key value
              readEntries catalog limits bucket depth rest
                (draft.addGroup kind bucket.name alternatives)
      | .rule text => do
          let test ← Test.ofKey bucket key text
          let member ← readMember catalog limits depth key test value
          readEntries catalog limits bucket depth rest (draft.addMembers [member])

/-- Reads the alternatives of a group's object. -/
def readGroup (catalog : Catalog ρ) (limits : Limits) (bucket : BucketDef) (depth : Nat)
    (key : String) : Value → Except StructuralError (List Alternative)
  | .object entries => do
      let draft ← readEntries catalog limits bucket depth entries Draft.start
      return draft.alternatives
  | _ => .error (.malformedGroup key "expected an object")

/-- Reads what a rule compares with. An object with a marker as its only key is a reference
or a sub-query, every other value a literal.
-/
def readMember (catalog : Catalog ρ) (limits : Limits) (depth : Nat) (key : String)
    (test : Test) : Value → Except StructuralError Member
  | .object [(marker, inner)] =>
      match marker.toList with
      | ['.'] => do
          let path ← referencePath key inner
          return .rule test (.param path)
      | ['$'] => do
          let operand ← templateOperand key inner
          return .rule test operand
      | '@' :: target => do
          let (bucket, field) ← subQueryTarget catalog limits key target depth
          readSubQuery catalog limits depth key test bucket field inner
      | _ => do
          let operand ← literalOperand key test.op (.object [(marker, inner)])
          return .rule test operand
  | value => do
      let operand ← literalOperand key test.op value
      return .rule test operand

/-- Reads the object of a sub-query, one level deeper than the query around it. -/
def readSubQuery (catalog : Catalog ρ) (limits : Limits) (depth : Nat) (key : String)
    (test : Test) (bucket : BucketDef) (field : String)
    : Value → Except StructuralError Member
  | .object entries => do
      let draft ← readEntries catalog limits bucket (depth + 1) entries Draft.start
      return .subQuery test bucket.name field (.anyOf bucket.name none draft.alternatives)
  | _ => .error (.malformedMarker key "sub-query must be an object")

end

/-- The rule tree of a query on a bucket of the catalog. -/
def ofQuery (catalog : Catalog ρ) (limits : Limits) (bucket : String) (query : Query)
    : Except StructuralError RuleTree := do
  let bucket ← definition catalog bucket
  let draft ← readEntries catalog limits bucket 0 query.entries Draft.start
  return .anyOf bucket.name none draft.alternatives

end RuleTree

end FederatedQuery
