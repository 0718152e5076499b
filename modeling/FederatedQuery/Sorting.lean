import FederatedQuery.RowSet
import FederatedQuery.SortKey
import FederatedQuery.Sorting.Stable
import FederatedQuery.Value.Comparison

/-! Sorting rows by several keys. -/

namespace FederatedQuery

/-- The order of two rows under one key. -/
def SortKey.compareRows (key : SortKey) (a b : Row) : Ordering :=
  let ascending := Value.sortCompareOptional (a.at? key.path) (b.at? key.path)
  match key.direction with
  | .asc => ascending
  | .desc => ascending.swap

/-- The order of two rows under several keys, the first of which counts most. -/
def compareRows : List SortKey → Row → Row → Ordering
  | [], _, _ => .eq
  | key :: rest, a, b => (key.compareRows a b).then (compareRows rest a b)

/-- The rows in the order of the keys; rows that are equal under all keys stay as they are. There
is nothing if the sort gives up, which it may do only if the keys tell the rows apart by no order.
Without keys, nothing is sorted.
-/
def sortRows (sorter : StableSort Row) (keys : List SortKey) (rows : List Row)
    : Option (List Row) :=
  if keys.isEmpty then some rows else sorter.sort? (compareRows keys) rows

/-- The rows sorted and then paginated, unless the sort gives up. -/
def finishRows (sorter : StableSort Row) (keys : List SortKey) (pagination : Option Pagination)
    (rows : List Row) : Option RowSet :=
  (sortRows sorter keys rows).map fun sorted => RowSet.paginate sorted pagination

end FederatedQuery
