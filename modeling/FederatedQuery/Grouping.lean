/-! Gathering the elements of a list that share a key, in first-seen order. -/

namespace FederatedQuery

variable {α κ : Type} [DecidableEq κ]

/-- Puts an element into the class of its key, or into a new class behind all others. -/
def addToClass (key : κ) (x : α) : List (κ × List α) → List (κ × List α)
  | [] => [(key, [x])]
  | (k, members) :: rest =>
      if k = key then (k, members ++ [x]) :: rest else (k, members) :: addToClass key x rest

/-- The classes of elements with one key. Classes stand in the order of their first elements,
elements in the order of the list.
-/
def classes (key : α → κ) (xs : List α) : List (κ × List α) :=
  xs.foldl (fun found x => addToClass (key x) x found) []

end FederatedQuery
