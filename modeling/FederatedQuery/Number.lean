import FederatedQuery.Number.Shortest
import FederatedQuery.Number.Word

/-! JSON numbers: integers of 64 bits, signed or unsigned, and finite binary64 numbers. An
integer and the float to which it is rounded are different numbers that compare as equal.
-/

namespace FederatedQuery

/-- A JSON number. -/
inductive Number where
  | int (value : Int) (fits : FitsWord value)
  | float (value : Binary64)
deriving DecidableEq

namespace Number

/-- The number is a float. -/
def isFloat : Number → Bool
  | .int _ _ => false
  | .float _ => true

/-- The number read as a float, in units of 2⁻¹⁰⁷⁴. An integer is rounded to the nearest float. -/
def units : Number → Int
  | .int n _ => Binary64.nearestInt n * (Binary64.one : Int)
  | .float x => x.units

/-- Integers compare exactly. As soon as one side is a float, both are read as floats. -/
def compare : Number → Number → Ordering
  | .int m _, .int n _ => Ord.compare m n
  | a, b => Ord.compare a.units b.units

/-- The same number with the two float zeros taken for one. -/
def unsignZero : Number → Number
  | .int n fits => .int n fits
  | .float x => .float x.unsignZero

/-- Decimal text of an integer. -/
def intText (n : Int) : String :=
  if n < 0 then "-" ++ Nat.repr n.natAbs else Nat.repr n.natAbs

/-- The number's JSON text. A float's text always has a point or an exponent. -/
def text : Number → String
  | .int n _ => intText n
  | .float x => binary64Text x

/-- A natural number as a JSON number, if it fits in a word. -/
def ofNat? (n : Nat) : Option Number :=
  if h : FitsWord n then some (.int n h) else none

end Number

end FederatedQuery
