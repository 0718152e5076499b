/-! Rounding of quotients to whole numbers, and the powers that scale them. -/

namespace FederatedQuery.Number

/-- The power of ten with an exponent. -/
def tenTo (exponent : Nat) : Nat := Nat.pow 10 exponent

/-- The whole number nearest to a quotient. A half goes to the even neighbour. -/
def nearest (numerator denominator : Nat) : Nat :=
  let whole := numerator / denominator
  let twice := 2 * (numerator % denominator)
  if twice < denominator then whole
  else if denominator < twice then whole + 1
  else if whole % 2 = 0 then whole
  else whole + 1

/-- The rounded quotient is the whole part or the number after it. -/
theorem nearest_bounds (numerator denominator : Nat)
    : numerator / denominator ≤ nearest numerator denominator
      ∧ nearest numerator denominator ≤ numerator / denominator + 1 := by
  unfold nearest
  simp only
  split <;> try split <;> try split
  all_goals omega

/-- A whole quotient is its own rounding. -/
theorem nearest_mul_right (n : Nat) {denominator : Nat} (positive : 0 < denominator)
    : nearest (n * denominator) denominator = n := by
  simp [nearest, Nat.mul_div_cancel _ positive, positive]

end FederatedQuery.Number
