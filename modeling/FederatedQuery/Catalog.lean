import FederatedQuery.Bucket
import FederatedQuery.Table.Sorted

/-! The catalog: which buckets there are, which runner serves each of them, and in which
scope that runner works. Every change gives the catalog a new version.
-/

namespace FederatedQuery

/-- A bucket, the runner that serves it and that runner's scope. -/
structure Registration (ρ : Type) where
  definition : BucketDef
  scope : String
  runner : ρ

/-- The registered buckets by name, and the number of changes made so far. -/
structure Catalog (ρ : Type) where
  buckets : Table String (Registration ρ)
  version : Nat

namespace Catalog

variable {ρ : Type}

/-- The catalog without buckets. -/
def empty : Catalog ρ := ⟨[], 0⟩

/-- Registers a bucket under its name, in the place of an earlier one of that name. -/
def register (catalog : Catalog ρ) (registration : Registration ρ) : Catalog ρ :=
  ⟨Table.put catalog.buckets registration.definition.name registration, catalog.version + 1⟩

/-- The registration of a bucket. -/
def get? (catalog : Catalog ρ) (bucket : String) : Option (Registration ρ) :=
  Table.get? catalog.buckets bucket

/-- Removes a bucket. Removing an unknown one is no change. -/
def unregister (catalog : Catalog ρ) (bucket : String) : Catalog ρ :=
  if (catalog.get? bucket).isSome then
    ⟨Table.erase catalog.buckets bucket, catalog.version + 1⟩
  else catalog

/-- The scope of a bucket's runner. -/
def scopeOf? (catalog : Catalog ρ) (bucket : String) : Option String :=
  (catalog.get? bucket).map Registration.scope

/-- The bucket is registered. -/
def contains (catalog : Catalog ρ) (bucket : String) : Bool := (catalog.get? bucket).isSome

/-- The names of the registered buckets in ascending order. -/
def names (catalog : Catalog ρ) : List String :=
  Table.keys (catalog.buckets.foldl (fun sorted entry => Table.insert sorted entry.1 ()) [])

/-- Number of registered buckets. -/
def size (catalog : Catalog ρ) : Nat := catalog.buckets.length

/-- A registration is found under its name and hides no other. -/
theorem get?_register (catalog : Catalog ρ) (registration : Registration ρ) (bucket : String)
    : (catalog.register registration).get? bucket
      = if bucket = registration.definition.name then some registration
        else catalog.get? bucket :=
  Table.get?_put ..

/-- An unregistered bucket is not found any more and every other one stays. -/
theorem get?_unregister (catalog : Catalog ρ) (name bucket : String)
    : (catalog.unregister name).get? bucket
      = if bucket = name then none else catalog.get? bucket := by
  simp only [unregister]
  split
  · exact Table.get?_erase ..
  · next unknown =>
    split
    · next same => subst same; simpa using unknown
    · rfl

end Catalog

end FederatedQuery
