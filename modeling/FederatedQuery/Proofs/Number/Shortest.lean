import FederatedQuery.Proofs.Number.Rounding
import Mathlib.Tactic.FieldSimp
import Mathlib.Tactic.Positivity

/-! The shortest decimal of a number rounds to that number: the search on coarser and then finer grids
only takes a grid point in the interval of the number, and a grid of seventeen digits has one. So
different numbers have different decimals.
-/

namespace FederatedQuery.Number

-----------------------------------------------------------------------------------------
-- Decimals and grids
-----------------------------------------------------------------------------------------

/-- What the decimal stands for. -/
def Decimal.value (d : Decimal) : ℚ := d.digits * 10 ^ d.power

/-- A rational in quarters of a unit. -/
def inQuarters (q : ℚ) : ℚ := q * (4 * Binary64.one : Nat)

theorem one_pos : 0 < Binary64.one := by
  rw [Binary64.one, Nat.one_shiftLeft]
  exact Nat.two_pow_pos _

/-- A zero that is dropped from the digits is counted in the power, by induction on the fuel. -/
theorem Decimal.value_dropZeros (fuel : Nat) (d : Decimal)
    : (d.dropZeros fuel).value = d.value := by
  induction fuel generalizing d with
  | zero => rfl
  | succ fuel ih =>
      rw [dropZeros]
      split
      · next trailing =>
        have whole : d.digits = d.digits / 10 * 10 := by omega
        rw [ih, value, value, zpow_add_one₀ (by norm_num)]
        nth_rewrite 2 [whole]
        push_cast
        ring
      · rfl

/-- One step of the grid is this many quarters of a unit, divided by `stepDown`. -/
def stepUp (power : Int) : Nat :=
  if 0 ≤ power then 4 * Binary64.one * tenTo power.toNat else 4 * Binary64.one

/-- By what `stepUp` is to be divided. -/
def stepDown (power : Int) : Nat := if 0 ≤ power then 1 else tenTo (-power).toNat

/-- The grid point at the magnitude or before it. -/
def gridFloor (x : Binary64) (power : Int) : Nat :=
  4 * x.magnitude * stepDown power / stepUp power

theorem tenTo_pos (exponent : Nat) : 0 < tenTo exponent := Nat.pow_pos (by decide)

theorem stepUp_pos (power : Int) : 0 < stepUp power := by
  have scale : 0 < 4 * Binary64.one := Nat.mul_pos (by decide) one_pos
  rw [stepUp]
  split
  · exact Nat.mul_pos scale (tenTo_pos _)
  · exact scale

theorem stepDown_pos (power : Int) : 0 < stepDown power := by
  rw [stepDown]
  split
  · exact Nat.one_pos
  · exact tenTo_pos _

theorem cast_tenTo (exponent : Nat) : ((tenTo exponent : Nat) : ℚ) = 10 ^ exponent := by
  rw [tenTo, Nat.pow_eq, Nat.cast_pow, Nat.cast_ofNat]

/-- The step of the grid is a power of ten. -/
theorem stepUp_div_stepDown (power : Int)
    : (stepUp power : ℚ) / stepDown power = inQuarters (10 ^ power) := by
  rw [stepUp, stepDown, inQuarters]
  split
  · next whole =>
    obtain ⟨exponent, rfl⟩ := Int.eq_ofNat_of_zero_le whole
    rw [Int.toNat_natCast, zpow_natCast, Nat.cast_mul, cast_tenTo, Nat.cast_one, div_one, mul_comm]
  · next fraction =>
    obtain ⟨exponent, rfl⟩ := Int.exists_eq_neg_ofNat (by omega : power ≤ 0)
    rw [neg_neg, Int.toNat_natCast, zpow_neg, zpow_natCast, cast_tenTo, div_eq_inv_mul]

theorem inQuarters_value (d : Decimal)
    : inQuarters d.value = d.digits * inQuarters (10 ^ d.power) := mul_assoc _ _ _

/-- The number has the decimal in its interval. -/
def RoundsTo (d : Decimal) (x : Binary64) : Prop := (Rounding.of x).Contains (inQuarters d.value)

/-- What the search tests is whether a grid point rounds to the number. -/
theorem holds_step_iff (x : Binary64) (d : Decimal)
    : (Rounding.of x).holds (d.digits * stepUp d.power) (stepDown d.power) = true
      ↔ RoundsTo d x := by
  rw [Rounding.holds_iff_contains (stepDown_pos d.power), Nat.cast_mul, mul_div_assoc,
    stepUp_div_stepDown, RoundsTo, inQuarters_value]

-----------------------------------------------------------------------------------------
-- The search on one grid
-----------------------------------------------------------------------------------------

/-- Which of the two grid points is preferred makes no difference to whether one is found. -/
theorem exists_onGrid?_eq (x : Binary64) (power : Int)
    : ∃ preferLow : Bool,
        onGrid? x power
        = let floor := gridFloor x power
          let fits := fun digits =>
            (Rounding.of x).holds (digits * stepUp power) (stepDown power)
          if fits floor && (preferLow || !fits (floor + 1)) then some ⟨floor, power⟩
          else if fits (floor + 1) then some ⟨floor + 1, power⟩
          else none :=
  ⟨_, rfl⟩

/-- A grid point that is found rounds to the number, and one is found if one of those around the
number does.
-/
theorem onGrid?_spec (x : Binary64) (power : Int)
    : (∀ d, onGrid? x power = some d → RoundsTo d x)
      ∧ (RoundsTo ⟨gridFloor x power, power⟩ x ∨ RoundsTo ⟨gridFloor x power + 1, power⟩ x
        → ∃ d, onGrid? x power = some d) := by
  obtain ⟨preferLow, searched⟩ := exists_onGrid?_eq x power
  rw [← holds_step_iff, ← holds_step_iff]
  simp only [searched]
  split
  · next lowFits =>
    refine ⟨fun d found => ?_, fun _ => ⟨_, rfl⟩⟩
    obtain rfl := Option.some.inj found
    exact (holds_step_iff x _).mp (Bool.and_eq_true_iff.mp lowFits).1
  · next lowLeft =>
    split
    · next highFits =>
      refine ⟨fun d found => ?_, fun _ => ⟨_, rfl⟩⟩
      obtain rfl := Option.some.inj found
      exact (holds_step_iff x _).mp highFits
    · next highMisses =>
      refine ⟨nofun, fun fits => absurd ?_ lowLeft⟩
      rw [Bool.and_eq_true_iff, Bool.or_eq_true_iff]
      exact ⟨fits.resolve_right highMisses, Or.inr (by simpa using highMisses)⟩

-----------------------------------------------------------------------------------------
-- Seventeen digits
-----------------------------------------------------------------------------------------

theorem lt_tenTo_digitCount (n : Nat) : n < tenTo (digitCount n) := by
  have positive : 0 < digitCount n := Nat.length_toDigits_pos
  exact (Nat.length_toDigits_le_iff (by decide) positive).mp (Nat.le_refl _)

theorem tenTo_le_of_pos {n : Nat} (positive : 0 < n) : tenTo (digitCount n - 1) ≤ n := by
  rcases Nat.eq_zero_or_pos (digitCount n - 1) with single | several
  · rw [single]
    exact positive
  · by_contra less
    have short := (Nat.length_toDigits_le_iff (by decide) several).mpr (Nat.not_le.mp less)
    have counted : (Nat.toDigits 10 n).length = digitCount n := rfl
    omega

/-- The power of the leading digit is not above the number. -/
theorem leadingPower_le {magnitude : Nat} (positive : 0 < magnitude)
    : inQuarters (10 ^ leadingPower magnitude) ≤ (4 * magnitude : Nat) := by
  rw [leadingPower, inQuarters]
  split
  · next whole =>
    have quotient : 0 < magnitude / Binary64.one := Nat.div_pos whole one_pos
    have exponent : (digitCount (magnitude / Binary64.one) : Int) - 1
        = (digitCount (magnitude / Binary64.one) - 1 : Nat) := by
      have counted : 0 < digitCount (magnitude / Binary64.one) := Nat.length_toDigits_pos
      omega
    rw [exponent, zpow_natCast, ← cast_tenTo, ← Nat.cast_mul, Nat.cast_le]
    calc tenTo (digitCount (magnitude / Binary64.one) - 1) * (4 * Binary64.one)
      _ ≤ magnitude / Binary64.one * (4 * Binary64.one) :=
          Nat.mul_le_mul_right _ (tenTo_le_of_pos quotient)
      _ = 4 * (magnitude / Binary64.one * Binary64.one) := Nat.mul_left_comm ..
      _ ≤ 4 * magnitude := Nat.mul_le_mul_left _ (Nat.div_mul_le_self ..)
  · have digits := lt_tenTo_digitCount (Binary64.one / magnitude)
    rw [zpow_neg, zpow_natCast, ← cast_tenTo,
      inv_mul_le_iff₀ (Nat.cast_pos.mpr (tenTo_pos _)), ← Nat.cast_mul, Nat.cast_le]
    calc 4 * Binary64.one
      _ ≤ 4 * (tenTo (digitCount (Binary64.one / magnitude)) * magnitude) :=
          Nat.mul_le_mul_left _ ((Nat.div_lt_iff_lt_mul positive).mp digits).le
      _ = tenTo (digitCount (Binary64.one / magnitude)) * (4 * magnitude) :=
          Nat.mul_left_comm ..

/-- The number lies between two neighbours on each grid. -/
theorem gridFloor_spec (x : Binary64) (power : Int)
    : gridFloor x power * inQuarters (10 ^ power) ≤ (4 * x.magnitude : Nat)
      ∧ (4 * x.magnitude : Nat) < (gridFloor x power + 1) * inQuarters (10 ^ power) := by
  have down : (0 : ℚ) < stepDown power := Nat.cast_pos.mpr (stepDown_pos power)
  rw [← stepUp_div_stepDown, ← mul_div_assoc, ← mul_div_assoc, div_le_iff₀ down,
    lt_div_iff₀ down]
  constructor
  · exact_mod_cast Nat.div_mul_le_self (4 * x.magnitude * stepDown power) (stepUp power)
  · have next := Nat.lt_mul_div_succ (4 * x.magnitude * stepDown power) (stepUp_pos power)
    rw [Nat.mul_comm (stepUp power)] at next
    exact_mod_cast next

/-- On a grid of seventeen digits the steps are shorter than the interval, because mantissas have 53
bits.
-/
theorem step_lt {x : Binary64} (positive : 0 < x.mantissa)
    : inQuarters (10 ^ (leadingPower x.magnitude - 16))
      < (Rounding.below x + 2) * 2 ^ x.exponent := by
  have coarse : inQuarters (10 ^ (leadingPower x.magnitude - 16)) * 10 ^ 16
      = inQuarters (10 ^ leadingPower x.magnitude) := by
    rw [zpow_sub₀ (by norm_num), inQuarters, inQuarters]
    field_simp
  have bits : 4 * x.mantissa < (Rounding.below x + 2) * 10 ^ 16 := by
    have bounded := x.mantissa_lt
    rw [Binary64.mantissaLimit] at bounded
    rw [Rounding.below, Binary64.leastNormal]
    split <;> omega
  have product : 4 * x.magnitude < (Rounding.below x + 2) * 2 ^ x.exponent * 10 ^ 16 :=
    calc 4 * x.magnitude
      _ = 4 * x.mantissa * 2 ^ x.exponent := by
          rw [Binary64.magnitude, Nat.shiftLeft_eq, Nat.mul_assoc]
      _ < (Rounding.below x + 2) * 10 ^ 16 * 2 ^ x.exponent :=
          Nat.mul_lt_mul_of_pos_right bits (Nat.two_pow_pos _)
      _ = (Rounding.below x + 2) * 2 ^ x.exponent * 10 ^ 16 := Nat.mul_right_comm ..
  have scaled : ((4 * x.magnitude : Nat) : ℚ)
      < (Rounding.below x + 2) * 2 ^ x.exponent * 10 ^ 16 := by
    exact_mod_cast product
  have leading := leadingPower_le (Binary64.magnitude_pos positive)
  rw [← coarse] at leading
  exact lt_of_mul_lt_mul_right (leading.trans_lt scaled) (by positivity)

/-- A number has one of its neighbours in its interval, if these are so close that both cannot be
beyond its ends.
-/
theorem roundsTo_or_roundsTo {x : Binary64} (positive : 0 < x.mantissa) {power : Int}
    (fine : inQuarters (10 ^ power) < (Rounding.below x + 2) * 2 ^ x.exponent)
    : RoundsTo ⟨gridFloor x power, power⟩ x ∨ RoundsTo ⟨gridFloor x power + 1, power⟩ x := by
  obtain ⟨low, high⟩ := Rounding.bounds_of positive
  obtain ⟨above, below⟩ := gridFloor_spec x power
  have scale : (0 : ℚ) < 2 ^ x.exponent := by positivity
  have reaches := mul_pos (Rounding.below_pos x) scale
  by_cases near
      : ((Rounding.of x).low : ℚ) < gridFloor x power * inQuarters (10 ^ power)
  · refine Or.inl (Rounding.contains_of_between ?_ ?_)
    · rw [inQuarters_value]
      exact near
    · rw [inQuarters_value, high]
      linarith
  · refine Or.inr (Rounding.contains_of_between ?_ ?_)
    · rw [inQuarters_value, low]
      push_cast at below ⊢
      linarith
    · rw [inQuarters_value, high]
      rw [low] at near
      push_cast at near ⊢
      linarith

-----------------------------------------------------------------------------------------
-- The search on finer and finer grids
-----------------------------------------------------------------------------------------

/-- The search ends on the last grid at the latest, by induction on the number of grids. -/
theorem roundsTo_shortestFrom {x : Binary64} {leading : Int} {fuel count : Nat}
    (last : ∃ d, onGrid? x (leading - (count + fuel : Nat) + 1) = some d)
    : RoundsTo (shortestFrom x leading (fuel + 1) count) x := by
  induction fuel generalizing count with
  | zero =>
      obtain ⟨d, found⟩ := last
      rw [shortestFrom, ← Nat.add_zero count, found]
      exact (onGrid?_spec x _).1 d found
  | succ fuel ih =>
      rw [shortestFrom]
      split
      · next d found => exact (onGrid?_spec x _).1 d found
      · refine ih ?_
        rw [Nat.add_right_comm]
        exact last

/-- The shortest decimal of a positive number rounds to it. -/
theorem roundsTo_shortest {x : Binary64} (positive : 0 < x.mantissa)
    : RoundsTo (shortest x) x := by
  have seventeen : leadingPower x.magnitude - (1 + 16 : Nat) + 1
      = leadingPower x.magnitude - 16 := by omega
  rw [RoundsTo, shortest, Decimal.value_dropZeros]
  refine roundsTo_shortestFrom ?_
  rw [seventeen]
  exact (onGrid?_spec x _).2 (roundsTo_or_roundsTo positive (step_lt positive))

/-- A positive number has no decimal that stands for zero. -/
theorem value_shortest_pos {x : Binary64} (positive : 0 < x.mantissa) : 0 < (shortest x).value := by
  have low : 0 < (Rounding.of x).low := by
    rw [Rounding.low_of, Rounding.below]
    refine Nat.mul_pos ?_ (Nat.two_pow_pos _)
    split <;> omega
  have above : 0 < inQuarters (shortest x).value :=
    (Nat.cast_pos.mpr low).trans_le (roundsTo_shortest positive).low_le
  exact pos_of_mul_pos_left above (Nat.cast_nonneg _)

/-- Numbers with the same shortest decimal have the same magnitude. -/
theorem eq_of_value_shortest {x y : Binary64} (positive : 0 < x.mantissa)
    (positive' : 0 < y.mantissa) (same : (shortest x).value = (shortest y).value)
    : x.exponent = y.exponent ∧ x.mantissa = y.mantissa := by
  have rounds := roundsTo_shortest positive
  rw [RoundsTo, same] at rounds
  exact Rounding.eq_of_contains rounds (roundsTo_shortest positive')

end FederatedQuery.Number
