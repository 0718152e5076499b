import FederatedQuery.Catalog

/-! Catalogs that come about by registering and unregistering buckets. Such a catalog files
every bucket under the name in its definition.
-/

namespace FederatedQuery.Catalog

variable {ρ : Type}

/-- The catalog comes from the empty one by changes. -/
inductive Reachable : Catalog ρ → Prop where
  | empty : Reachable empty
  | register {catalog : Catalog ρ} (before : Reachable catalog) (registration : Registration ρ)
      : Reachable (catalog.register registration)
  | unregister {catalog : Catalog ρ} (before : Reachable catalog) (bucket : String)
      : Reachable (catalog.unregister bucket)

/-- A bucket is found under the name in its definition, since no change files it elsewhere. -/
theorem Reachable.name_eq {catalog : Catalog ρ} (reachable : catalog.Reachable)
    {bucket : String} {registration : Registration ρ}
    (found : catalog.get? bucket = some registration)
    : registration.definition.name = bucket := by
  induction reachable with
  | empty => cases found
  | register _ added ih =>
      rw [get?_register] at found
      split at found
      · next same => exact Option.some.inj found ▸ same.symm
      · exact ih found
  | unregister _ removed ih =>
      rw [get?_unregister] at found
      split at found
      · cases found
      · exact ih found

theorem scopeOf?_eq_some {catalog : Catalog ρ} {bucket scope : String}
    (known : catalog.scopeOf? bucket = some scope)
    : ∃ registration, catalog.get? bucket = some registration ∧ registration.scope = scope := by
  simpa [scopeOf?] using known

end FederatedQuery.Catalog
