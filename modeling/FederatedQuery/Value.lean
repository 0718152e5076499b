import FederatedQuery.Number
import FederatedQuery.Table.Sorted

/-! JSON values. Two values are identical when they agree down to the order of keys and the
sign of zero; they are the same when they agree but for these two.
-/

namespace FederatedQuery

/-- A JSON value. An object's entries keep the order in which its keys came. -/
inductive Value where
  | null
  | bool (value : Bool)
  | number (value : Number)
  | string (value : String)
  | array (items : List Value)
  | object (entries : List (String × Value))

namespace Value

instance : Inhabited Value := ⟨.null⟩

mutual

/-- Identity of values is decidable, by comparing them part by part. -/
def decideIdentical : (a b : Value) → Decidable (a = b)
  | .null, .null => isTrue rfl
  | .bool a, .bool b => decidable_of_iff (a = b) (by simp)
  | .number a, .number b => decidable_of_iff (a = b) (by simp)
  | .string a, .string b => decidable_of_iff (a = b) (by simp)
  | .array a, .array b => @decidable_of_iff _ (a = b) (by simp) (decideItems a b)
  | .object a, .object b => @decidable_of_iff _ (a = b) (by simp) (decideEntries a b)
  | .null, .bool _ | .null, .number _ | .null, .string _ | .null, .array _
  | .null, .object _ => isFalse (by simp)
  | .bool _, .null | .bool _, .number _ | .bool _, .string _ | .bool _, .array _
  | .bool _, .object _ => isFalse (by simp)
  | .number _, .null | .number _, .bool _ | .number _, .string _ | .number _, .array _
  | .number _, .object _ => isFalse (by simp)
  | .string _, .null | .string _, .bool _ | .string _, .number _ | .string _, .array _
  | .string _, .object _ => isFalse (by simp)
  | .array _, .null | .array _, .bool _ | .array _, .number _ | .array _, .string _
  | .array _, .object _ => isFalse (by simp)
  | .object _, .null | .object _, .bool _ | .object _, .number _ | .object _, .string _
  | .object _, .array _ => isFalse (by simp)

/-- Identity of lists of values. -/
def decideItems : (a b : List Value) → Decidable (a = b)
  | [], [] => isTrue rfl
  | x :: xs, y :: ys =>
      @decidable_of_iff _ (x = y ∧ xs = ys) (by simp)
        (@instDecidableAnd _ _ (decideIdentical x y) (decideItems xs ys))
  | [], _ :: _ | _ :: _, [] => isFalse (by simp)

/-- Identity of lists of entries. -/
def decideEntries : (a b : List (String × Value)) → Decidable (a = b)
  | [], [] => isTrue rfl
  | (k, x) :: xs, (l, y) :: ys =>
      @decidable_of_iff _ ((k = l ∧ x = y) ∧ xs = ys) (by simp)
        (@instDecidableAnd _ _ (@instDecidableAnd _ _ _ (decideIdentical x y))
          (decideEntries xs ys))
  | [], _ :: _ | _ :: _, [] => isFalse (by simp)

end

instance : DecidableEq Value := decideIdentical

/-- The value is the JSON null. -/
def isNull : Value → Bool
  | .null => true
  | _ => false

/-- What a reader calls a value of this type. -/
def kind : Value → String
  | .null => "null"
  | .bool _ => "a boolean"
  | .number _ => "a number"
  | .string _ => "a string"
  | .array _ => "an array"
  | .object _ => "an object"

/-- A value that may be missing counts as present unless it is null or an empty string,
array or object.
-/
def isPresent : Option Value → Bool
  | none | some .null => false
  | some (.string s) => s ≠ ""
  | some (.array items) => !items.isEmpty
  | some (.object entries) => !entries.isEmpty
  | some _ => true

mutual

/-- One representative for all values that are the same: keys sorted, zeros unsigned. -/
def normal : Value → Value
  | .null => .null
  | .bool b => .bool b
  | .number n => .number n.unsignZero
  | .string s => .string s
  | .array items => .array (normalItems items)
  | .object entries => .object (normalEntries entries)

/-- The representatives of a list of values. -/
def normalItems : List Value → List Value
  | [] => []
  | v :: rest => normal v :: normalItems rest

/-- The entries of an object by ascending key, each value by its representative. -/
def normalEntries : List (String × Value) → List (String × Value)
  | [] => []
  | (k, v) :: rest => Table.insert (normalEntries rest) k (normal v)

end

/-- Values are the same when they differ at most in the order of keys and the sign of zero.
Numbers have to agree in representation too: an integer is not the same as a float.
-/
def same (a b : Value) : Bool := normal a = normal b

/-- The text under which an object with this identity value is filed: a string as it is, a
number's decimal text. No other value identifies an object.
-/
def identityKey : Value → Option String
  | .string s => some s
  | .number n => some n.text
  | _ => none

end Value

/-- An object returned by a runner. -/
abbrev Row := Value

/-- A row of correlated values that a query may refer to. -/
abbrev ParamRow := Value

end FederatedQuery
