import FederatedQuery.Number
import FederatedQuery.Query

/-! A cache of compiled plans. A plan is kept under the bucket and the query that it was
compiled from, together with the version of the catalog, and is only good for that version.
-/

namespace FederatedQuery

/-- What a plan is compiled from: a bucket, and a query down to the order of its keys. -/
structure Fingerprint where
  bucket : String
  query : Query
deriving DecidableEq

/-- A plan in the cache. -/
structure CachedPlan (π : Type) where
  plan : π
  version : Nat
  hits : Nat

namespace CachedPlan

variable {π : Type}

/-- A plan just stored. -/
def new (plan : π) (version : Nat) : CachedPlan π := ⟨plan, version, 0⟩

/-- The plan after one more hit. -/
def recordHit (cached : CachedPlan π) : CachedPlan π :=
  { cached with hits := cached.hits + 1 }

end CachedPlan

/-- What the cache has counted. -/
structure CacheStats where
  hits : Nat
  misses : Nat
  evictions : Nat
deriving DecidableEq

/-- The part of the lookups that were hits, and zero before the first lookup. -/
def CacheStats.hitRate (stats : CacheStats) : Binary64 :=
  if stats.hits + stats.misses = 0 then .zero false
  else (Binary64.ofRatio? false stats.hits (stats.hits + stats.misses)).getD (.zero false)

/-- An order in which stored plans are gone through. A hash table has any order, and may have
another one each time.
-/
structure PlanOrder (π : Type) where
  arrange : Nat → Table Fingerprint (CachedPlan π) → Table Fingerprint (CachedPlan π)
  perm : ∀ time entries, (arrange time entries).Perm entries

/-- Plans in the order in which they were stored. -/
def PlanOrder.asStored {π : Type} : PlanOrder π := ⟨fun _ entries => entries, fun _ _ => .refl _⟩

/-- Stored plans, at most `capacity` of them. -/
structure PlanCache (π : Type) where
  capacity : Nat
  order : PlanOrder π
  entries : Table Fingerprint (CachedPlan π)
  stats : CacheStats

namespace PlanCache

variable {π : Type}

/-- The cache that holds nothing yet. -/
def new (capacity : Nat) (order : PlanOrder π) : PlanCache π := ⟨capacity, order, [], ⟨0, 0, 0⟩⟩

/-- A cache of capacity zero stores and counts nothing. -/
def isEnabled (cache : PlanCache π) : Bool := 0 < cache.capacity

/-- Number of stored plans. -/
def size (cache : PlanCache π) : Nat := cache.entries.length

/-- The plan stored for a fingerprint, if it was compiled in this version of the catalog. -/
def get (cache : PlanCache π) (fingerprint : Fingerprint) (version : Nat)
    : Option π × PlanCache π :=
  if cache.isEnabled then
    match (Table.get? cache.entries fingerprint).filter (·.version = version) with
    | some cached =>
        (some cached.plan,
          { cache with
            entries := Table.put cache.entries fingerprint cached.recordHit
            stats := { cache.stats with hits := cache.stats.hits + 1 } })
    | none =>
        (none, { cache with stats := { cache.stats with misses := cache.stats.misses + 1 } })
  else (none, cache)

/-- The plan with the fewest hits, and of several the first. -/
def leastUsed? : Table Fingerprint (CachedPlan π) → Option (Fingerprint × CachedPlan π)
  | [] => none
  | entry :: rest =>
      match leastUsed? rest with
      | none => some entry
      | some other => if entry.2.hits ≤ other.2.hits then some entry else some other

/-- Makes room in a full cache: drops the plans of other versions of the catalog or, if that
leaves the cache full, the least used plan. Which of several that is depends on the order in
which the plans are gone through at the time.
-/
def makeRoom (cache : PlanCache π) (version : Nat) : PlanCache π :=
  let current := cache.entries.filter fun entry => entry.2.version = version
  let dropped := cache.entries.length - current.length
  let leastUsed :=
    if cache.capacity ≤ current.length then
      leastUsed? (cache.order.arrange cache.stats.evictions current)
    else none
  match leastUsed with
  | some (fingerprint, _) =>
      { cache with
        entries := Table.erase current fingerprint
        stats := { cache.stats with evictions := cache.stats.evictions + dropped + 1 } }
  | none =>
      { cache with
        entries := current
        stats := { cache.stats with evictions := cache.stats.evictions + dropped } }

/-- Stores a plan, in the place of an earlier one with the same fingerprint. Only a new
fingerprint needs room.
-/
def insert (cache : PlanCache π) (fingerprint : Fingerprint) (plan : π) (version : Nat)
    : PlanCache π :=
  if cache.isEnabled then
    let isNew := (Table.get? cache.entries fingerprint).isNone
    let roomy :=
      if cache.capacity ≤ cache.size ∧ isNew then cache.makeRoom version else cache
    { roomy with entries := Table.put roomy.entries fingerprint (CachedPlan.new plan version) }
  else cache

/-- Forgets all plans. The counts stay. -/
def clear (cache : PlanCache π) : PlanCache π := { cache with entries := [] }

end PlanCache

end FederatedQuery
