import FederatedQuery.Value.Record

/-! The engine's settings. -/

namespace FederatedQuery

/-- Bounds that keep runaway queries from being compiled. -/
structure Limits where
  /-- How deep sub-queries may nest; the query itself has depth 0. -/
  maxDepth : Nat
  /-- How many parts a query may be split into. -/
  maxParts : Nat
deriving DecidableEq

namespace Limits

/-- The limits of an engine that is told no others. -/
def default : Limits := ⟨8, 64⟩

/-- The greatest limits there are. -/
def unlimited : Limits := ⟨Word.greatest, Word.greatest⟩

/-- Reads the record form; missing fields have their defaults. -/
def ofValue? (value : Value) : Option Limits := do
  let fields ← value.fields? ["max_depth", "max_parts"]
  let maxDepth ← Value.optional fields "max_depth" default.maxDepth Value.word?
  let maxParts ← Value.optional fields "max_parts" default.maxParts Value.word?
  return ⟨maxDepth, maxParts⟩

/-- The record form. -/
def toValue (limits : Limits) : Value :=
  .object [("max_depth", .ofNat limits.maxDepth), ("max_parts", .ofNat limits.maxParts)]

end Limits

/-- Settings of an engine. -/
structure Settings where
  limits : Limits
  /-- Number of plans the cache holds. Zero turns the cache off. -/
  planCacheCapacity : Nat
  /-- Whether a lone equality on a parameter is evaluated once for all parameter rows. -/
  coalesceParams : Bool
deriving DecidableEq

namespace Settings

/-- The settings of an engine that is told no others. -/
def default : Settings := ⟨Limits.default, 256, true⟩

/-- Reads the record form; missing fields have their defaults. -/
def ofValue? (value : Value) : Option Settings := do
  let fields ← value.fields? ["limits", "plan_cache_capacity", "coalesce_params"]
  let limits ← Value.optional fields "limits" default.limits Limits.ofValue?
  let capacity ←
    Value.optional fields "plan_cache_capacity" default.planCacheCapacity Value.word?
  let coalesce ← Value.optional fields "coalesce_params" default.coalesceParams Value.bool?
  return ⟨limits, capacity, coalesce⟩

/-- The record form. -/
def toValue (settings : Settings) : Value :=
  .object
    [
      ("limits", settings.limits.toValue),
      ("plan_cache_capacity", .ofNat settings.planCacheCapacity),
      ("coalesce_params", .bool settings.coalesceParams)
    ]

end Settings

end FederatedQuery
