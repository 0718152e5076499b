/-! Sets of characters given by the code points at which membership changes. -/

namespace FederatedQuery.Text

/-- Ascending boundaries: the first starts a run of members, the second ends it, the third
starts the next run, and so on.
-/
structure CharSet where
  boundaries : List Nat

/-- Membership of a code point in the runs that a list of boundaries describes. -/
def CharSet.between : List Nat → Nat → Bool
  | [], _ => false
  | [start], n => start ≤ n
  | start :: stop :: rest, n => (start ≤ n && n < stop) || between rest n

/-- The character lies in one of the set's runs. -/
def CharSet.contains (set : CharSet) (c : Char) : Bool :=
  CharSet.between set.boundaries c.toNat

end FederatedQuery.Text
