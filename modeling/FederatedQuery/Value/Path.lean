import FederatedQuery.Text.Digits
import FederatedQuery.Text.Split
import FederatedQuery.Value

/-! Reading nested values. A path is a text of segments separated by points; each segment is
a key of an object or an index of an array.
-/

namespace FederatedQuery

namespace Path

/-- The segments of a path. The empty path has none, so it leads to the value itself. -/
def segments (path : String) : List String :=
  if path = "" then [] else Text.split '.' path

/-- The text before the first point. -/
def head (path : String) : String :=
  match Text.cutFirst '.' path.toList with
  | some (before, _) => String.ofList before
  | none => path

/-- An array index: digits, with or without a plus sign in front. -/
def index? (segment : String) : Option Nat :=
  match segment.toList with
  | '+' :: digits => Text.natural? digits
  | digits => Text.natural? digits

end Path

namespace Value

/-- The value one segment further: a key of an object or an index of an array. -/
def step (segment : String) : Value → Option Value
  | .object entries => Table.get? entries segment
  | .array items => (Path.index? segment).bind fun index => items[index]?
  | _ => none

/-- Follows segments one after the other and stops at the first that leads nowhere. -/
def follow : List String → Value → Option Value
  | [], value => some value
  | segment :: rest, value => (step segment value).bind (follow rest)

/-- The value at a path, if the path can be followed to its end. -/
def at? (value : Value) (path : String) : Option Value := follow (Path.segments path) value

/-- The value at a path, where a missing one reads as null. -/
def read (value : Value) (path : String) : Value := (at? value path).getD .null

/-- Following two runs of segments is following one and then the other, by induction. -/
theorem follow_append (left right : List String) (value : Value)
    : follow (left ++ right) value = (follow left value).bind (follow right) := by
  induction left generalizing value with
  | nil => rfl
  | cons segment rest ih =>
      simp only [List.cons_append, follow, Option.bind_assoc]
      cases step segment value with
      | none => rfl
      | some next => exact ih next

end Value

end FederatedQuery
