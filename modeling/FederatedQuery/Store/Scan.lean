import FederatedQuery.Binding
import FederatedQuery.Runner
import FederatedQuery.Sorting
import FederatedQuery.Store

/-! Answering rule trees from the store. A tree's sub-queries are answered first and replaced
by the values found; then the objects of its bucket are tried one after the other.
-/

namespace FederatedQuery.Store

/-- The rows that satisfy a tree. An unbound rule that is tried on any of them is an error. -/
def selectRows (tree : RuleTree) : List Row → Except UnboundRule (List Row)
  | [] => .ok []
  | row :: rest => do
      let holds ← tree.holds row
      let others ← selectRows tree rest
      return if holds then row :: others else others

/-- The objects of a tree's bucket that satisfy the tree, by ascending identity. -/
def select (store : Store) (tree : RuleTree) : Except StoreError (List Row) :=
  match store.bucket? tree.bucket with
  | none => .error (.unknownBucket tree.bucket)
  | some bucket =>
      match selectRows tree (bucket.objects.map Prod.snd) with
      | .ok rows => .ok rows
      | .error rule => .error (.unbound rule)

mutual

/-- The objects that satisfy a tree, sub-queries included. -/
def scan (store : Store) : RuleTree → Except StoreError (List Row)
  | .anyOf bucket scope alternatives => do
      let resolved ← resolveAlternatives store alternatives
      select store (.anyOf bucket scope resolved)

/-- Alternatives with the sub-queries replaced by the values that they find. -/
def resolveAlternatives (store : Store)
    : List (List Member) → Except StoreError (List (List Member))
  | [] => .ok []
  | members :: rest => do
      let first ← resolveMembers store members
      let others ← resolveAlternatives store rest
      return first :: others

/-- Members with the sub-queries replaced. -/
def resolveMembers (store : Store) : List Member → Except StoreError (List Member)
  | [] => .ok []
  | member :: rest => do
      let first ← resolveMember store member
      let others ← resolveMembers store rest
      return first :: others

/-- A member with its sub-queries replaced. A sub-query on this bucket becomes the distinct
values of its field.
-/
def resolveMember (store : Store) : Member → Except StoreError Member
  | .rule test operand => .ok (.rule test operand)
  | .subQuery test _ field tree => do
      let rows ← scan store tree
      return .rule test (.values (distinctColumn rows field))
  | .group (.anyOf bucket scope alternatives) => do
      let resolved ← resolveAlternatives store alternatives
      return .group (.anyOf bucket scope resolved)

end

/-- The rows that satisfy a tree, sorted and paginated, or nothing if the sort gives up. -/
def query (store : Store) (sorter : StableSort Row) (tree : RuleTree) (sort : List SortKey)
    (pagination : Option Pagination) : Except StoreError (Option RowSet) := do
  let rows ← store.scan tree
  return finishRows sorter sort pagination rows

/-- Evaluates a part for its parameter rows. Without any, references read as null; otherwise
each row gets the shares of the calls that serve it. Everything is found before anything is
sorted. There is nothing if the sort gives up for one of the rows.
-/
def evaluate (store : Store) (sorter : StableSort Row) (request : RunRequest)
    : Except StoreError (Option (List RowSet)) :=
  let finish := finishRows sorter request.sort request.pagination
  if request.params.isEmpty then do
    let rows ← store.scan (request.part.tree.bind .null request.templates.head?)
    return (finish rows).map fun set => [set]
  else do
    let calls :=
      (request.part.tree.bindPlan request.params request.templates request.coalesce).calls
    let found ← calls.mapM fun call => store.scan call.tree
    return (List.range request.params.length).mapM fun place =>
      finish ((calls.zip found).flatMap fun (call, rows) => call.share rows place)

/-- What a runner on this store replies. There is no reply if the sort gives up. -/
def reply? (store : Store) (sorter : StableSort Row) (request : RunRequest) : Option Reply :=
  match store.evaluate sorter request with
  | .ok sets => sets.map .sets
  | .error error => some (.failure error.message)

end FederatedQuery.Store
