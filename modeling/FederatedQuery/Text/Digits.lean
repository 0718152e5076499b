import FederatedQuery.Number.Word

/-! Natural numbers written in ASCII decimal digits. -/

namespace FederatedQuery.Text

/-- The value of decimal digits, most significant first, continuing from `start`. -/
def digitsFrom (start : Nat) (digits : List Char) : Nat :=
  digits.foldl (fun value digit => 10 * value + (digit.toNat - 48)) start

/-- The number that a text of at least one digit, and nothing else, stands for. -/
def natural? (text : List Char) : Option Nat :=
  if !text.isEmpty && text.all Char.isDigit then some (digitsFrom 0 text) else none

/-- Numbers above the greatest unsigned word are not read. -/
def word? (text : List Char) : Option Nat :=
  (natural? text).filter (· < Word.limit)

end FederatedQuery.Text
