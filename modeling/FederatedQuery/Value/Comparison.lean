import FederatedQuery.Text.Lowercase
import FederatedQuery.Text.Split
import FederatedQuery.Value

/-! How rules and sorting compare values. Rules leave values of different types incomparable;
sorting puts every pair of values in order.
-/

namespace FederatedQuery.Value

/-- Equality as rules test it: numbers by value, strings with or without regard to case,
everything else by sameness.
-/
def equal (foldCase : Bool) : Value → Value → Bool
  | .number a, .number b => a.compare b == .eq
  | .string a, .string b =>
      if foldCase then Text.lower a = Text.lower b else a = b
  | a, b => same a b

/-- Order as rules test it. Only two numbers, two strings or two truth values have one. -/
def compare? : Value → Value → Option Ordering
  | .number a, .number b => some (a.compare b)
  | .string a, .string b => some (Ord.compare a b)
  | .bool a, .bool b => some (Ord.compare a b)
  | _, _ => none

/-- A string contains a string that occurs in it, an array every value equal to an item. -/
def containsValue (foldCase : Bool) : Value → Value → Bool
  | .string field, .string needle =>
      if foldCase then Text.occurs (Text.lower needle).toList (Text.lower field).toList
      else Text.occurs needle.toList field.toList
  | .array items, needle => items.any fun item => equal foldCase item needle
  | _, _ => false

/-- The place of a value's type in the sort order. -/
def rank : Value → Nat
  | .null => 0
  | .bool _ => 1
  | .number _ => 2
  | .string _ => 3
  | .array _ | .object _ => 4

/-- The sort order of two values: by type first, arrays and objects all being equal. -/
def sortCompare : Value → Value → Ordering
  | .bool a, .bool b => Ord.compare a b
  | .number a, .number b => a.compare b
  | .string a, .string b => Ord.compare a b
  | a, b => Ord.compare a.rank b.rank

/-- The sort order of values that may be missing. A missing value comes before all others. -/
def sortCompareOptional : Option Value → Option Value → Ordering
  | none, none => .eq
  | none, some _ => .lt
  | some _, none => .gt
  | some a, some b => sortCompare a b

end FederatedQuery.Value
