import FederatedQuery.Number.Rounding

/-! Finite binary64 numbers, held as whole multiples of the smallest positive one. Order and
rounding are then exact arithmetic on integers.
-/

namespace FederatedQuery

/-- Mantissas lie below 2⁵³. -/
def Binary64.mantissaLimit : Nat := 0x20000000000000

/-- Mantissas of numbers with a positive exponent are at least 2⁵², which is half the limit. -/
def Binary64.leastNormal : Nat := 0x10000000000000

/-- A finite binary64 number: the mantissa shifted left by the exponent, in units of 2⁻¹⁰⁷⁴,
with a sign that a zero has too. The bounds leave exactly one form for every number.
-/
structure Binary64 where
  negative : Bool
  mantissa : Nat
  exponent : Nat
  mantissa_lt : mantissa < Binary64.mantissaLimit
  normal : exponent = 0 ∨ Binary64.leastNormal ≤ mantissa
  exponent_le : exponent ≤ 2045
deriving DecidableEq

namespace Binary64

/-- The number of bits by which a unit is smaller than one. -/
def unitBits : Nat := 1074

/-- One, as a multiple of the unit. -/
def one : Nat := 1 <<< unitBits

/-- The number as a multiple of the unit, without its sign. -/
def magnitude (x : Binary64) : Nat := x.mantissa <<< x.exponent

/-- The number as a multiple of the unit. Both zeros are 0. -/
def units (x : Binary64) : Int :=
  if x.negative then -(x.magnitude : Int) else x.magnitude

/-- Zero with a sign. -/
def zero (negative : Bool) : Binary64 := ⟨negative, 0, 0, by decide, by decide, by decide⟩

/-- The same number with the two zeros taken for one. -/
def unsignZero (x : Binary64) : Binary64 :=
  if x.mantissa = 0 then zero false else x

/-- The number in its only form, if the parts keep the bounds. -/
def ofParts? (negative : Bool) (mantissa exponent : Nat) : Option Binary64 :=
  if h : mantissa < mantissaLimit ∧ (exponent = 0 ∨ leastNormal ≤ mantissa)
      ∧ exponent ≤ 2045 then
    some ⟨negative, mantissa, exponent, h.1, h.2.1, h.2.2⟩
  else none

/-- The number nearest to a quotient of whole numbers, a half going to the even mantissa.
There is none when the quotient rounds beyond the largest finite number.
-/
def ofRatio? (negative : Bool) (numerator denominator : Nat) : Option Binary64 :=
  let scaled := numerator <<< unitBits
  let exponent := (scaled / denominator).log2 - 52
  let mantissa := Number.nearest scaled (denominator <<< exponent)
  if mantissa = mantissaLimit then ofParts? negative leastNormal (exponent + 1)
  else ofParts? negative mantissa exponent

/-- The number nearest to `digits * 10 ^ power`. Powers far outside the range are settled
without computing them.
-/
def ofDecimal? (negative : Bool) (digits : Nat) (power : Int) : Option Binary64 :=
  let leading := power + (Nat.log2 digits : Int) / 4
  if digits = 0 ∨ power + (Nat.log2 digits : Int) < -1100 then some (zero negative)
  else if 400 < leading then none
  else if 0 ≤ power then ofRatio? negative (digits * Number.tenTo power.toNat) 1
  else ofRatio? negative digits (Number.tenTo (-power).toNat)

/-- The integer nearest to a given one among those with at most 53 significant bits. This is
the value that an integer has once it is read as a binary64 number.
-/
def nearestInt (n : Int) : Int :=
  let step := 1 <<< (n.natAbs.log2 - 52)
  let magnitude := Number.nearest n.natAbs step * step
  if n < 0 then -(magnitude : Int) else magnitude

end Binary64

end FederatedQuery
