import FederatedQuery.Error
import FederatedQuery.Text.Blank
import FederatedQuery.Value.Record

/-! Sort keys: a path into the rows and a direction, written `path@asc` or `path@desc`. -/

namespace FederatedQuery

/-- The direction of a sort key. -/
inductive Direction where
  | asc
  | desc
deriving DecidableEq

/-- The direction's name. -/
def Direction.text : Direction → String
  | .asc => "asc"
  | .desc => "desc"

/-- The direction of a name. -/
def Direction.ofText? (name : String) : Option Direction :=
  if name = "asc" then some .asc else if name = "desc" then some .desc else none

/-- A path to sort by, and the direction. -/
structure SortKey where
  path : String
  direction : Direction
deriving DecidableEq

namespace SortKey

/-- The path of a specifier and its direction. Only the text after the last `@` names a
direction; a specifier without `@` ascends.
-/
def parts? (specifier : List Char) : Option (List Char × Direction) :=
  match Text.cutLast '@' specifier with
  | some (path, direction) =>
      (Direction.ofText? (String.ofList direction)).map fun direction => (path, direction)
  | none => some (specifier, .asc)

/-- Reads a specifier. The path is trimmed and may not be blank. -/
def parse (specifier : String) : Except RequestError SortKey :=
  match parts? specifier.toList with
  | some (path, direction) =>
      let path := Text.trim path
      if path.isEmpty then .error (.invalidSort specifier)
      else .ok ⟨String.ofList path, direction⟩
  | none => .error (.invalidSort specifier)

/-- The specifier of a sort key. -/
def text (key : SortKey) : String := key.path ++ "@" ++ key.direction.text

/-- Reads a direction's name, or an object with the name as its only key and null below. -/
def direction? : Value → Option Direction
  | .string name => Direction.ofText? name
  | .object [(name, .null)] => Direction.ofText? name
  | _ => none

/-- Reads the record form. -/
def ofValue? (value : Value) : Option SortKey := do
  let fields ← value.fields? ["path", "direction"]
  let path ← Value.required fields "path" Value.string?
  let direction ← Value.required fields "direction" direction?
  return ⟨path, direction⟩

/-- The record form. -/
def toValue (key : SortKey) : Value :=
  .object [("path", .string key.path), ("direction", .string key.direction.text)]

end SortKey

end FederatedQuery
