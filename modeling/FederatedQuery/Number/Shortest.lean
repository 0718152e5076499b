import FederatedQuery.Number.Binary64

/-! The shortest decimal that reads back as a given binary64 number. For one digit, two
digits and so on, the two neighbours of the number on that decimal grid are tested against
the interval of reals that round to it; the first grid with a hit wins.
-/

namespace FederatedQuery.Number

/-- A decimal `digits * 10 ^ power` without a sign. -/
structure Decimal where
  digits : Nat
  power : Int
deriving DecidableEq, Repr

/-- Count of decimal digits, at least one. -/
def digitCount (n : Nat) : Nat := (Nat.toDigits 10 n).length

/-- Drops trailing zeros, at most `fuel` of them. -/
def Decimal.dropZeros : Nat → Decimal → Decimal
  | 0, d => d
  | fuel + 1, d =>
      if d.digits ≠ 0 ∧ d.digits % 10 = 0 then dropZeros fuel ⟨d.digits / 10, d.power + 1⟩
      else d

/-- The power of ten of the leading digit. -/
def Decimal.leading (d : Decimal) : Int := d.power + (digitCount d.digits : Int) - 1

/-- The power of ten of the leading digit of `magnitude` units, for a positive magnitude. -/
def leadingPower (magnitude : Nat) : Int :=
  if Binary64.one ≤ magnitude then (digitCount (magnitude / Binary64.one) : Int) - 1
  else -(digitCount (Binary64.one / magnitude) : Int)

/-- The interval of reals that round to a positive number, in quarters of a unit, and
whether its ends belong to it. A half goes to the even mantissa, so they do if the mantissa
is even; below a power of two the neighbour is half as far away.
-/
structure Rounding where
  low : Nat
  high : Nat
  closed : Bool

/-- The reals that round to `x`. -/
def Rounding.of (x : Binary64) : Rounding :=
  let below := if x.mantissa = Binary64.leastNormal ∧ 0 < x.exponent then 1 else 2
  ⟨(4 * x.mantissa - below) <<< x.exponent, (4 * x.mantissa + 2) <<< x.exponent,
    x.mantissa % 2 = 0⟩

/-- A positive quotient, as a multiple of a quarter unit, lies in the interval. -/
def Rounding.holds (r : Rounding) (numerator denominator : Nat) : Bool :=
  if r.closed then
    r.low * denominator ≤ numerator && numerator ≤ r.high * denominator
  else
    r.low * denominator < numerator && numerator < r.high * denominator

/-- The nearest decimal to `x` with its last digit at `power`, among the two grid points
around it that read back as `x`. An exact tie goes to the even digit.
-/
def onGrid? (x : Binary64) (power : Int) : Option Decimal :=
  let quarters := 4 * x.magnitude
  let one := 4 * Binary64.one
  -- one grid step is `stepUp / stepDown` quarters of a unit
  let stepUp := if 0 ≤ power then one * tenTo power.toNat else one
  let stepDown := if 0 ≤ power then 1 else tenTo (-power).toNat
  let floor := quarters * stepDown / stepUp
  let left := quarters * stepDown - floor * stepUp
  let right := (floor + 1) * stepUp - quarters * stepDown
  let interval := Rounding.of x
  let lowFits := interval.holds (floor * stepUp) stepDown
  let highFits := interval.holds ((floor + 1) * stepUp) stepDown
  let preferLow := left < right || (left == right && floor % 2 == 0)
  if lowFits && (preferLow || !highFits) then some ⟨floor, power⟩
  else if highFits then some ⟨floor + 1, power⟩
  else none

/-- Tries grids from `count` digits on, at most `fuel` of them. -/
def shortestFrom (x : Binary64) (leading : Int) : Nat → Nat → Decimal
  | 0, count => ⟨x.magnitude, leading - count⟩
  | fuel + 1, count =>
      match onGrid? x (leading - count + 1) with
      | some d => d
      | none => shortestFrom x leading fuel (count + 1)

/-- The shortest decimal that reads back as the positive number `x`, and of those the
nearest to it. Seventeen digits always suffice.
-/
def shortest (x : Binary64) : Decimal :=
  (shortestFrom x (leadingPower x.magnitude) 17 1).dropZeros 17

/-- The least and the greatest power of ten that are written without an exponent mark. -/
structure PlainRange where
  least : Int
  greatest : Int

/-- Numbers from 0.00001 up to, and without, 10¹⁶ are written plainly. -/
def plainRange : PlainRange := ⟨-5, 15⟩

/-- Digits with a point inside or zeros around them; there is always a digit on each side of
the point.
-/
def plainText (d : Decimal) : String :=
  let digits := Nat.repr d.digits
  if 0 ≤ d.power then digits ++ String.ofList (List.replicate d.power.toNat '0') ++ ".0"
  else if 0 ≤ d.leading then
    let whole := d.leading.toNat + 1
    String.ofList (digits.toList.take whole) ++ "."
      ++ String.ofList (digits.toList.drop whole)
  else
    "0." ++ String.ofList (List.replicate ((-d.leading).toNat - 1) '0') ++ digits

/-- One digit, the others after a point, and the signed power of ten after an `e`. -/
def exponentText (d : Decimal) : String :=
  let sign := if 0 ≤ d.leading then "+" else "-"
  let mantissa :=
    match (Nat.repr d.digits).toList with
    | [] => ""
    | [only] => String.ofList [only]
    | first :: rest => String.ofList (first :: '.' :: rest)
  mantissa ++ "e" ++ sign ++ Nat.repr d.leading.natAbs

/-- The text of a binary64 number: its shortest decimal, plain if its leading digit stands
in the plain range. Zero keeps its sign.
-/
def binary64Text (x : Binary64) : String :=
  let sign := if x.negative then "-" else ""
  if x.mantissa = 0 then sign ++ "0.0"
  else
    let d := shortest x
    sign ++
      if plainRange.least ≤ d.leading ∧ d.leading ≤ plainRange.greatest then plainText d
      else exponentText d

end FederatedQuery.Number
