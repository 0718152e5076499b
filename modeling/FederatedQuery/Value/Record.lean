import FederatedQuery.Value

/-! Reading typed records from JSON values. A record is written as an object keyed by the
names of its fields, or as an array of its fields in order; unknown keys are ignored.
-/

namespace FederatedQuery.Value

/-- The fields of a record under their names. An array may leave out last fields but not
have more than there are.
-/
def fields? (names : List String) : Value → Option (Table String Value)
  | .object entries => some entries
  | .array items => if items.length ≤ names.length then some (names.zip items) else none
  | _ => none

/-- A field that has to be there. -/
def required {α : Type} (fields : Table String Value) (name : String)
    (decode : Value → Option α) : Option α :=
  (Table.get? fields name).bind decode

/-- A field that may be left out. If it is there it has to be well formed. -/
def optional {α : Type} (fields : Table String Value) (name : String) (fallback : α)
    (decode : Value → Option α) : Option α :=
  match Table.get? fields name with
  | none => some fallback
  | some value => decode value

/-- The value is a string. -/
def string? : Value → Option String
  | .string s => some s
  | _ => none

/-- The value is a truth value. -/
def bool? : Value → Option Bool
  | .bool b => some b
  | _ => none

/-- The value is an integer, not a float with a whole value. -/
def int? : Value → Option Int
  | .number (.int n _) => some n
  | _ => none

/-- The value is an integer of an unsigned word. -/
def word? (value : Value) : Option Nat :=
  (int? value).bind fun n => if 0 ≤ n then some n.toNat else none

/-- The value is an integer of a signed word. -/
def signedWord? (value : Value) : Option Int :=
  (int? value).filter fun n => n < (Word.signedLimit : Int)

/-- The value is an array. -/
def array? : Value → Option (List Value)
  | .array items => some items
  | _ => none

/-- The value is an array of items that are all well formed. -/
def listOf? {α : Type} (decode : Value → Option α) (value : Value) : Option (List α) :=
  (array? value).bind (List.mapM decode)

/-- The value is an object. -/
def object? : Value → Option (List (String × Value))
  | .object entries => some entries
  | _ => none

/-- A word as a JSON integer. Greater numbers have no such form and are written as null. -/
def ofNat (n : Nat) : Value :=
  match Number.ofNat? n with
  | some word => .number word
  | none => .null

/-- A signed integer as a JSON integer, with null for what does not fit in a word. -/
def ofInt (n : Int) : Value :=
  if h : FitsWord n then .number (.int n h) else .null

end FederatedQuery.Value
