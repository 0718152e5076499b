import FederatedQuery.Pagination
import FederatedQuery.Value.Path

/-! Rows found for one parameter row, and pages of them. -/

namespace FederatedQuery

/-- The values found at a path in a list of rows, where it can be followed. -/
def column (rows : List Row) (path : String) : List Value :=
  rows.filterMap fun row => row.at? path

/-- The distinct values at a path in a list of rows, without nulls, in first-seen order. -/
def distinctColumn (rows : List Row) (path : String) : List Value :=
  ((column rows path).filter fun value => !value.isNull).eraseDups

/-- Rows after pagination, and how many there were before. -/
structure RowSet where
  rows : List Row
  total : Nat
deriving DecidableEq

namespace RowSet

/-- No rows at all. -/
def empty : RowSet := ⟨[], 0⟩

instance : Inhabited RowSet := ⟨empty⟩

/-- All rows, on one page. -/
def ofRows (rows : List Row) : RowSet := ⟨rows, rows.length⟩

/-- The rows of a page. The total is the number of rows before pagination. -/
def paginate (rows : List Row) : Option Pagination → RowSet
  | none => ofRows rows
  | some pagination =>
      let rest := rows.drop pagination.offset
      match pagination.limit with
      | none => ⟨rest, rows.length⟩
      | some limit => ⟨rest.take limit, rows.length⟩

/-- The rows of both sets one after the other, with the sum of their totals. -/
def append (left right : RowSet) : RowSet :=
  ⟨left.rows ++ right.rows, left.total + right.total⟩

/-- All the rows of several sets in one. -/
def concat (sets : List RowSet) : RowSet := sets.foldl append empty

end RowSet

/-- One page of a result. -/
structure Page where
  data : List Row
  total : Nat
  offset : Nat
  perPage : Int
  hasMore : Bool
deriving DecidableEq

/-- The page that a paginated row set makes. There is more exactly when the rows skipped and
the rows shown are fewer than all rows.
-/
def Page.ofRowSet (set : RowSet) (pagination : Pagination) : Page :=
  {
    data := set.rows
    total := set.total
    offset := pagination.offset
    perPage := pagination.perPage
    hasMore := pagination.offset + set.rows.length < set.total
  }

end FederatedQuery
