/-! The limits of 64-bit words, within which integers, offsets and limits stay. -/

namespace FederatedQuery

namespace Word

/-- Unsigned words lie below 2⁶⁴. -/
def limit : Nat := 0x10000000000000000

/-- The greatest unsigned word. -/
def greatest : Nat := 0xFFFFFFFFFFFFFFFF

/-- Signed words lie below 2⁶³, and down to its negative. -/
def signedLimit : Nat := 0x8000000000000000

end Word

/-- The integer fits in 64 bits, with a sign or without. -/
def FitsWord (n : Int) : Prop := -(Word.signedLimit : Int) ≤ n ∧ n < (Word.limit : Int)

instance (n : Int) : Decidable (FitsWord n) := inferInstanceAs (Decidable (_ ∧ _))

end FederatedQuery
