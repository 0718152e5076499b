import FederatedQuery.Number
import Mathlib.Order.Basic

/-! The order of numbers. Rounding keeps the order of integers, so numbers that are compared as
floats are in an order like any other; what is lost is that two integers next to each other can
both be equal to a float between them, although they differ.
-/

namespace FederatedQuery

-----------------------------------------------------------------------------------------
-- Rounding
-----------------------------------------------------------------------------------------

namespace Number

/-- Quotients of a common denominator are rounded in the order of their numerators: the whole parts
are, and for equal ones the remainders decide.
-/
theorem nearest_mono {m n : Nat} (below : m ≤ n) (denominator : Nat)
    : nearest m denominator ≤ nearest n denominator := by
  have wholes : m / denominator ≤ n / denominator := Nat.div_le_div_right below
  rcases Nat.lt_or_eq_of_le wholes with less | same
  · have upper := (nearest_bounds m denominator).2
    have lower := (nearest_bounds n denominator).1
    omega
  · have remainders : m % denominator ≤ n % denominator := by
      have ofM := Nat.div_add_mod m denominator
      have ofN := Nat.div_add_mod n denominator
      rw [same] at ofM
      omega
    simp only [nearest, same]
    split_ifs <;> omega

end Number

namespace Binary64

open Number

theorem leastNormal_lt : leastNormal < mantissaLimit := by
  decide

/-- A natural number rounded to at most 53 significant bits. -/
def nearestNat (n : Nat) : Nat :=
  nearest n (1 <<< (n.log2 - 52)) * (1 <<< (n.log2 - 52))

theorem nearestInt_eq (n : Int)
    : nearestInt n
      = if n < 0 then -(nearestNat n.natAbs : Int) else (nearestNat n.natAbs : Int) := rfl

/-- A power of two is a multiple of those below it, so it is rounded to itself. -/
theorem nearest_shiftLeft {step power : Nat} (fine : step ≤ power)
    : nearest (1 <<< power) (1 <<< step) * (1 <<< step) = 1 <<< power := by
  have multiple : 1 <<< power = 1 <<< (power - step) * 1 <<< step := by
    simp only [Nat.one_shiftLeft, ← Nat.pow_add, Nat.sub_add_cancel fine]
  have positive : 0 < 1 <<< step := Nat.one_shiftLeft step ▸ Nat.two_pow_pos step
  rw [multiple, nearest_mul_right _ positive]

/-- A number that is not above a power of two is not rounded beyond it. -/
theorem nearest_mul_le {n step power : Nat} (fine : step ≤ power) (below : n ≤ 1 <<< power)
    : nearest n (1 <<< step) * (1 <<< step) ≤ 1 <<< power :=
  calc nearest n (1 <<< step) * (1 <<< step)
    _ ≤ nearest (1 <<< power) (1 <<< step) * (1 <<< step) :=
        Nat.mul_le_mul_right _ (nearest_mono below _)
    _ = 1 <<< power := nearest_shiftLeft fine

/-- A number that is not below a power of two is not rounded beyond it. -/
theorem le_nearest_mul {n step power : Nat} (fine : step ≤ power) (above : 1 <<< power ≤ n)
    : 1 <<< power ≤ nearest n (1 <<< step) * (1 <<< step) :=
  calc 1 <<< power
    _ = nearest (1 <<< power) (1 <<< step) * (1 <<< step) := (nearest_shiftLeft fine).symm
    _ ≤ nearest n (1 <<< step) * (1 <<< step) := Nat.mul_le_mul_right _ (nearest_mono above _)

/-- Rounding keeps the order of natural numbers: with as many bits they are rounded in the same
steps, otherwise there is a power of two between them.
-/
theorem nearestNat_mono {m n : Nat} (below : m ≤ n) : nearestNat m ≤ nearestNat n := by
  rcases Nat.eq_zero_or_pos m with rfl | positive
  · simp [nearestNat, nearest]
  have nonzero : m ≠ 0 := by omega
  have nonzero' : n ≠ 0 := by omega
  have bits : m.log2 ≤ n.log2 :=
    (Nat.le_log2 nonzero').mpr (Nat.le_trans (Nat.log2_self_le nonzero) below)
  rcases Nat.lt_or_eq_of_le bits with fewer | same
  · have lower : m ≤ 1 <<< n.log2 := by
      rw [Nat.one_shiftLeft]
      exact Nat.le_of_lt ((Nat.log2_lt nonzero).mp fewer)
    have upper : 1 <<< n.log2 ≤ n := by
      rw [Nat.one_shiftLeft]
      exact Nat.log2_self_le nonzero'
    calc nearestNat m
      _ ≤ 1 <<< n.log2 := nearest_mul_le (by omega) lower
      _ ≤ nearestNat n := le_nearest_mul (by omega) upper
  · simp only [nearestNat, same]
    exact Nat.mul_le_mul_right _ (nearest_mono below _)

/-- Natural numbers below 2⁵³ are rounded to themselves. -/
theorem nearestNat_of_lt {n : Nat} (small : n < mantissaLimit) : nearestNat n = n := by
  have exact : n.log2 - 52 = 0 := by
    rcases Nat.eq_zero_or_pos n with rfl | positive
    · rfl
    · have bits : n.log2 < 53 := (Nat.log2_lt (by omega)).mpr small
      omega
  simpa [nearestNat, exact] using nearest_mul_right n Nat.one_pos

theorem nearestInt_mono {m n : Int} (below : m ≤ n) : nearestInt m ≤ nearestInt n := by
  simp only [nearestInt_eq]
  split_ifs with mNegative nNegative nNegative
  · have rounded := nearestNat_mono (m := n.natAbs) (n := m.natAbs) (by omega)
    omega
  · omega
  · omega
  · have rounded := nearestNat_mono (m := m.natAbs) (n := n.natAbs) (by omega)
    omega

theorem nearestInt_of_natAbs_lt {n : Int} (small : n.natAbs < mantissaLimit)
    : nearestInt n = n := by
  rw [nearestInt_eq, nearestNat_of_lt small]
  split_ifs <;> omega

end Binary64

-----------------------------------------------------------------------------------------
-- Comparison
-----------------------------------------------------------------------------------------

namespace Number

variable {a b c : Number}

/-- As soon as one number is a float, both are compared as floats. -/
theorem compare_of_isFloat (float : a.isFloat = true ∨ b.isFloat = true)
    : a.compare b = Ord.compare a.units b.units := by
  cases a with
  | float => rfl
  | int m fits =>
      cases b with
      | float => rfl
      | int n fits' => simp [isFloat] at float

@[simp]
theorem compare_self (a : Number) : a.compare a = .eq := by
  cases a <;> simp [compare]

theorem compare_swap (a b : Number) : b.compare a = (a.compare b).swap := by
  cases a <;> cases b <;> exact Std.OrientedOrd.eq_swap

theorem units_int_mono {m n : Int} (below : m ≤ n) (fits : FitsWord m) (fits' : FitsWord n)
    : (int m fits).units ≤ (int n fits').units :=
  Int.mul_le_mul_of_nonneg_right (Binary64.nearestInt_mono below) (by decide)

/-- The order of numbers is never turned round by reading them as floats. -/
theorem units_le_of_isLE (ordered : (a.compare b).isLE) : a.units ≤ b.units := by
  by_cases float : a.isFloat = true ∨ b.isFloat = true
  · rw [compare_of_isFloat float] at ordered
    exact Int.isLE_compare.mp ordered
  · match a, b, float with
    | .int m _, .int n _, _ => exact units_int_mono (Int.isLE_compare.mp ordered) _ _
    | .float _, _, float => simp [isFloat] at float
    | .int _ _, .float _, float => simp [isFloat] at float

/-- The number is not an integer of more than 53 bits. -/
def isShort : Number → Bool
  | .int n _ => n.natAbs < Binary64.mantissaLimit
  | .float _ => true

/-- A float is equal to two integers that differ. -/
structure Conflates (between a c : Number) : Prop where
  float : between.isFloat = true
  first : a.isFloat = false
  second : c.isFloat = false
  different : a ≠ c
  units_first : a.units = between.units
  units_second : c.units = between.units

namespace Conflates

/-- Neither integer is told from the float, but each from the other: their order is that of the
integers, which is exact.
-/
theorem compare_eq (conflates : b.Conflates a c)
    : a.compare b = .eq ∧ b.compare c = .eq ∧ a.compare c ≠ .eq := by
  obtain ⟨float, first, second, different, unitsFirst, unitsSecond⟩ := conflates
  refine ⟨?_, ?_, fun same => ?_⟩
  · rw [compare_of_isFloat (Or.inr float)]
    exact Int.compare_eq_eq.mpr unitsFirst
  · rw [compare_of_isFloat (Or.inl float)]
    exact Int.compare_eq_eq.mpr unitsSecond.symm
  · match a, c with
    | .int m _, .int n _ =>
        obtain rfl : m = n := Int.compare_eq_eq.mp same
        exact different rfl
    | .float _, _ => cases first
    | .int _ _, .float _ => cases second

theorem symm (conflates : b.Conflates a c) : b.Conflates c a where
  float := conflates.float
  first := conflates.second
  second := conflates.first
  different := conflates.different.symm
  units_first := conflates.units_second
  units_second := conflates.units_first

/-- Integers that a float is equal to differ only if one of them has more than 53 bits. -/
theorem not_isShort (conflates : b.Conflates a c)
    : ¬(a.isShort = true ∧ c.isShort = true) := by
  rintro ⟨short, short'⟩
  have units := conflates.units_first.trans conflates.units_second.symm
  match a, c with
  | .int m _, .int n _ =>
      have roundings : Binary64.nearestInt m = Binary64.nearestInt n :=
        Int.eq_of_mul_eq_mul_right (by decide) units
      rw [Binary64.nearestInt_of_natAbs_lt (of_decide_eq_true short),
        Binary64.nearestInt_of_natAbs_lt (of_decide_eq_true short')] at roundings
      subst roundings
      exact conflates.different rfl
  | .float _, _ => cases conflates.first
  | .int _ _, .float _ => cases conflates.second

end Conflates

/-- Numbers in order one after the other are in order, unless they are two integers that the one
between them conflates: the only integers that floats cannot put in order.
-/
theorem isLE_trans (first : (a.compare b).isLE) (second : (b.compare c).isLE)
    : (a.compare c).isLE ∨ b.Conflates a c := by
  have below := units_le_of_isLE first
  have above := units_le_of_isLE second
  by_cases float : a.isFloat = true ∨ c.isFloat = true
  · rw [compare_of_isFloat float]
    exact Or.inl (Int.isLE_compare.mpr (Int.le_trans below above))
  · match a, b, c, float with
    | .int l _, .int m _, .int n _, _ =>
        have total : l ≤ n :=
          Int.le_trans (Int.isLE_compare.mp first) (Int.isLE_compare.mp second)
        exact Or.inl (Int.isLE_compare.mpr total)
    | .int l fits, .float x, .int n fits', _ =>
        rcases Int.lt_or_le n l with reversed | ordered
        · have back := units_int_mono (Int.le_of_lt reversed) fits' fits
          refine Or.inr ⟨rfl, rfl, rfl, ?_, by omega, by omega⟩
          intro same
          cases same
          omega
        · exact Or.inl (Int.isLE_compare.mpr ordered)
    | .float _, _, _, float => simp [isFloat] at float
    | .int _ _, _, .float _, float => simp [isFloat] at float

end Number

end FederatedQuery
