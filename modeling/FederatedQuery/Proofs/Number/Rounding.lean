import FederatedQuery.Number.Shortest
import Mathlib.Algebra.Order.Field.Rat
import Mathlib.Tactic.Linarith
import Mathlib.Tactic.NormNum
import Mathlib.Tactic.Positivity
import Mathlib.Tactic.Ring

/-! The reals that round to a binary64 number form an interval, and those of different numbers have
none in common: neighbouring intervals share an end, which belongs to the one with the even mantissa.
-/

namespace FederatedQuery

namespace Number

-----------------------------------------------------------------------------------------
-- Membership
-----------------------------------------------------------------------------------------

namespace Rounding

/-- The rational, in quarters of a unit, lies in the interval. -/
def Contains (r : Rounding) (q : ℚ) : Prop :=
  if r.closed then r.low ≤ q ∧ q ≤ r.high else r.low < q ∧ q < r.high

variable {r : Rounding} {q : ℚ}

theorem Contains.low_le (inside : r.Contains q) : r.low ≤ q := by
  rw [Contains] at inside
  split at inside
  · exact inside.1
  · exact inside.1.le

theorem Contains.le_high (inside : r.Contains q) : q ≤ r.high := by
  rw [Contains] at inside
  split at inside
  · exact inside.2
  · exact inside.2.le

/-- Only a closed interval contains one of its ends. -/
theorem Contains.closed_of_end (inside : r.Contains q) (atEnd : q = r.low ∨ q = r.high)
    : r.closed = true := by
  by_contra notClosed
  rw [Contains, if_neg notClosed] at inside
  rcases atEnd with rfl | rfl
  · exact absurd inside.1 (lt_irrefl _)
  · exact absurd inside.2 (lt_irrefl _)

theorem contains_of_between (above : r.low < q) (below : q < r.high) : r.Contains q := by
  rw [Contains]
  split
  · exact ⟨above.le, below.le⟩
  · exact ⟨above, below⟩

/-- The test on whole numbers is the one on their quotient. -/
theorem holds_iff_contains {numerator denominator : Nat} (positive : 0 < denominator)
    : r.holds numerator denominator = true ↔ r.Contains (numerator / denominator) := by
  have positive' : (0 : ℚ) < denominator := Nat.cast_pos.mpr positive
  rw [holds, Contains]
  split
  · rw [Bool.and_eq_true, decide_eq_true_eq, decide_eq_true_eq, le_div_iff₀ positive',
      div_le_iff₀ positive']
    norm_cast
  · rw [Bool.and_eq_true, decide_eq_true_eq, decide_eq_true_eq, lt_div_iff₀ positive',
      div_lt_iff₀ positive']
    norm_cast

-----------------------------------------------------------------------------------------
-- Different numbers
-----------------------------------------------------------------------------------------

/-- The number comes before the other one in the order of their magnitudes. -/
def Before (x y : Binary64) : Prop :=
  x.exponent < y.exponent ∨ x.exponent = y.exponent ∧ x.mantissa < y.mantissa

theorem before_or_before {x y : Binary64}
    (differ : ¬(x.exponent = y.exponent ∧ x.mantissa = y.mantissa))
    : Before x y ∨ Before y x := by
  simp only [Before]
  omega

/-- The lower neighbour of a number is half as far away only below a power of two. -/
def below (x : Binary64) : Nat :=
  if x.mantissa = Binary64.leastNormal ∧ 0 < x.exponent then 1 else 2

theorem below_pos (x : Binary64) : (0 : ℚ) < below x := by
  rw [below]
  split <;> norm_num

theorem low_of (x : Binary64)
    : (of x).low = (4 * x.mantissa - below x) * 2 ^ x.exponent := Nat.shiftLeft_eq ..

theorem high_of (x : Binary64) : (of x).high = (4 * x.mantissa + 2) * 2 ^ x.exponent :=
  Nat.shiftLeft_eq ..

theorem closed_of (x : Binary64) : (of x).closed = true ↔ x.mantissa % 2 = 0 := decide_eq_true_iff

/-- The first interval ends where the second begins, or before. If they share an end, one of them is
open there.
-/
structure EndsBefore (first second : Rounding) : Prop where
  ordered : first.high ≤ second.low
  apart : first.high = second.low → ¬(first.closed = true ∧ second.closed = true)

/-- With the same exponent, neighbours have mantissas of different parity. -/
theorem endsBefore_of_mantissa_lt {x y : Binary64} (same : x.exponent = y.exponent)
    (less : x.mantissa < y.mantissa)
    : EndsBefore (of x) (of y) := by
  -- the mantissa before the least normal one has no such exponent
  have whole : below y = 2 := by
    rw [below, if_neg]
    rintro ⟨least, shifted⟩
    have normal := x.normal
    omega
  have step : 4 * x.mantissa + 2 ≤ 4 * y.mantissa - 2 := by omega
  constructor <;> rw [low_of, high_of, whole, same]
  · exact Nat.mul_le_mul_right _ step
  · intro meet
    have next := Nat.eq_of_mul_eq_mul_right (Nat.two_pow_pos _) meet
    rw [closed_of, closed_of]
    omega

/-- With different exponents, neighbours are the greatest mantissa, which is odd, and the least
normal one, below which numbers are half as far apart.
-/
theorem endsBefore_of_exponent_lt {x y : Binary64} (lower : x.exponent < y.exponent)
    : EndsBefore (of x) (of y) := by
  have bounded := x.mantissa_lt
  have normal := y.normal
  rw [Binary64.mantissaLimit] at bounded
  rw [Binary64.leastNormal] at normal
  have coefficients : 4 * x.mantissa + 2 ≤ (4 * y.mantissa - below y) * 2 := by
    rw [below, Binary64.leastNormal]
    split <;> omega
  have scales : 2 * 2 ^ x.exponent ≤ 2 ^ y.exponent := by
    rw [← Nat.pow_succ']
    exact Nat.pow_le_pow_right Nat.two_pos lower
  have ends : (4 * x.mantissa + 2) * 2 ^ x.exponent
      ≤ (4 * y.mantissa - below y) * 2 * 2 ^ x.exponent := Nat.mul_le_mul_right _ coefficients
  have doubled : (4 * y.mantissa - below y) * 2 * 2 ^ x.exponent
      ≤ (4 * y.mantissa - below y) * 2 ^ y.exponent := by
    rw [Nat.mul_assoc]
    exact Nat.mul_le_mul_left _ scales
  constructor <;> rw [low_of, high_of]
  · exact ends.trans doubled
  · intro meet
    have greatest := Nat.le_of_mul_le_mul_right (meet ▸ doubled) (Nat.two_pow_pos _)
    rw [below, Binary64.leastNormal] at greatest
    rw [closed_of, closed_of]
    split at greatest <;> omega

theorem endsBefore_of_before {x y : Binary64} (before : Before x y)
    : EndsBefore (of x) (of y) := by
  rcases before with lower | ⟨same, less⟩
  · exact endsBefore_of_exponent_lt lower
  · exact endsBefore_of_mantissa_lt same less

/-- Only a shared end could be in both intervals, and then both would be closed. -/
theorem EndsBefore.disjoint {first second : Rounding} (before : EndsBefore first second)
    (inFirst : first.Contains q)
    : ¬second.Contains q := by
  intro inSecond
  have order : (first.high : ℚ) ≤ second.low := Nat.cast_le.mpr before.ordered
  have atHigh : q = first.high := le_antisymm inFirst.le_high (order.trans inSecond.low_le)
  have atLow : q = second.low := le_antisymm (inFirst.le_high.trans order) inSecond.low_le
  exact before.apart (Nat.cast_injective (atHigh.symm.trans atLow))
    ⟨inFirst.closed_of_end (Or.inr atHigh), inSecond.closed_of_end (Or.inl atLow)⟩

/-- Numbers to which the same rational rounds have the same magnitude. -/
theorem eq_of_contains {x y : Binary64} (inFirst : (of x).Contains q)
    (inSecond : (of y).Contains q)
    : x.exponent = y.exponent ∧ x.mantissa = y.mantissa := by
  by_contra differ
  rcases before_or_before differ with first | second
  · exact (endsBefore_of_before first).disjoint inFirst inSecond
  · exact (endsBefore_of_before second).disjoint inSecond inFirst

-----------------------------------------------------------------------------------------
-- The number itself
-----------------------------------------------------------------------------------------

/-- The interval reaches two quarters of a step of the mantissa up from the number, and as many down
or half of them.
-/
theorem bounds_of {x : Binary64} (positive : 0 < x.mantissa)
    : ((of x).low : ℚ) = (4 * x.magnitude : Nat) - below x * 2 ^ x.exponent
      ∧ ((of x).high : ℚ) = (4 * x.magnitude : Nat) + 2 * 2 ^ x.exponent := by
  have small : below x ≤ 4 * x.mantissa := by
    rw [below]
    split <;> omega
  rw [low_of, high_of, Binary64.magnitude, Nat.shiftLeft_eq]
  push_cast [small]
  constructor <;> ring

/-- A positive number rounds to itself. -/
theorem contains_magnitude {x : Binary64} (positive : 0 < x.mantissa)
    : (of x).Contains (4 * x.magnitude : Nat) := by
  obtain ⟨low, high⟩ := bounds_of positive
  have scale : (0 : ℚ) < 2 ^ x.exponent := by positivity
  have reaches := mul_pos (below_pos x) scale
  refine contains_of_between ?_ ?_
  · rw [low]
    linarith
  · rw [high]
    linarith

end Rounding

end Number

namespace Binary64

theorem magnitude_pos {x : Binary64} (positive : 0 < x.mantissa) : 0 < x.magnitude := by
  rw [magnitude, Nat.shiftLeft_eq]
  exact Nat.mul_pos positive (Nat.two_pow_pos _)

theorem ext_of_eq {x y : Binary64} (negative : x.negative = y.negative)
    (parts : x.exponent = y.exponent ∧ x.mantissa = y.mantissa)
    : x = y := by
  cases x
  cases y
  simp_all

/-- A mantissa of zero has only one form. -/
theorem exponent_eq_zero {x : Binary64} (vanishes : x.mantissa = 0) : x.exponent = 0 := by
  have normal := x.normal
  rw [vanishes] at normal
  exact normal.resolve_right (by decide)

theorem eq_zero_of_mantissa {x : Binary64} (vanishes : x.mantissa = 0) : x = zero x.negative :=
  ext_of_eq rfl ⟨exponent_eq_zero vanishes, vanishes⟩

theorem magnitude_eq_zero_iff {x : Binary64} : x.magnitude = 0 ↔ x.mantissa = 0 := by
  rw [magnitude, Nat.shiftLeft_eq, Nat.mul_eq_zero]
  exact or_iff_left (Nat.two_pow_pos _).ne'

/-- Numbers with the same magnitude have it in the same form, since it rounds to both. -/
theorem eq_of_magnitude_eq {x y : Binary64} (same : x.magnitude = y.magnitude)
    : x.exponent = y.exponent ∧ x.mantissa = y.mantissa := by
  rcases Nat.eq_zero_or_pos x.mantissa with zero | positive
  · have zero' : y.mantissa = 0 := by
      rwa [← magnitude_eq_zero_iff, ← same, magnitude_eq_zero_iff]
    exact ⟨(exponent_eq_zero zero).trans (exponent_eq_zero zero').symm, zero.trans zero'.symm⟩
  · have positive' : 0 < y.mantissa := by
      refine Nat.pos_of_ne_zero fun zero' => positive.ne' ?_
      rwa [← magnitude_eq_zero_iff, same, magnitude_eq_zero_iff]
    have rounds := Number.Rounding.contains_magnitude positive
    rw [same] at rounds
    exact Number.Rounding.eq_of_contains rounds (Number.Rounding.contains_magnitude positive')

/-- Numbers with the same units are the same, but for the sign of zero. -/
theorem units_eq_iff {x y : Binary64}
    : x.units = y.units ↔ x = y ∨ x = zero x.negative ∧ y = zero !x.negative := by
  constructor
  · intro same
    rw [units, units] at same
    by_cases signs : x.negative = y.negative
    · have magnitudes : x.magnitude = y.magnitude := by
        rw [signs] at same
        split at same <;> omega
      exact Or.inl (ext_of_eq signs (eq_of_magnitude_eq magnitudes))
    · have opposite : y.negative = !x.negative := Bool.eq_not.mpr (Ne.symm signs)
      have zeros : x.magnitude = 0 ∧ y.magnitude = 0 := by
        rw [opposite] at same
        cases sign : x.negative <;>
          simp only [sign, Bool.not_false, Bool.not_true, Bool.false_eq_true, ↓reduceIte]
            at same <;>
          omega
      rw [← opposite]
      exact Or.inr ⟨eq_zero_of_mantissa (magnitude_eq_zero_iff.mp zeros.1),
        eq_zero_of_mantissa (magnitude_eq_zero_iff.mp zeros.2)⟩
  · rintro (rfl | ⟨zero, zero'⟩)
    · rfl
    · rw [zero, zero']
      cases x.negative <;> rfl

end Binary64

end FederatedQuery
