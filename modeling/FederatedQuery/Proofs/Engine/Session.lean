import FederatedQuery.Engine
import FederatedQuery.Proofs.PlanCache

/-! An engine at work while its catalog changes. In every session the cached plans for the
catalog's version are those that the catalog would yield now, so that nobody can tell a cached
plan from a fresh one.
-/

namespace FederatedQuery

/-- A compilation returns the plan found in the cache or, if there is none, fails like the
compiler or issues the compiler's plan and stores it.
-/
theorem Engine.compile_cases {ρ : Type} (engine : Engine) (catalog : Catalog ρ) (bucket : String)
    (query : Query)
    : let looked := engine.cache.get ⟨bucket, query⟩ catalog.version
      (∃ issued,
        looked.1 = some issued
        ∧ engine.compile catalog bucket query = (.ok issued, { engine with cache := looked.2 }))
      ∨ (∃ error,
        Plan.compile catalog engine.settings.limits bucket query = .error error
        ∧ engine.compile catalog bucket query
          = (.error error, { engine with cache := looked.2 }))
      ∨ ∃ plan,
        Plan.compile catalog engine.settings.limits bucket query = .ok plan
        ∧ engine.compile catalog bucket query
          = (.ok ⟨engine.issued, plan⟩,
            {
              engine with
              cache := looked.2.insert ⟨bucket, query⟩ ⟨engine.issued, plan⟩ catalog.version
              issued := engine.issued + 1
            }) := by
  simp only [compile]
  split
  · next issued cache found =>
    exact Or.inl ⟨issued, by simp [found], by simp [found]⟩
  · next cache missed =>
    cases compiled : Plan.compile catalog engine.settings.limits bucket query with
    | error error => exact Or.inr (Or.inl ⟨error, rfl, by simp [missed]⟩)
    | ok plan => exact Or.inr (Or.inr ⟨plan, rfl, by simp [missed]⟩)

/-- What can happen to a catalog and to an engine that compiles for it. -/
inductive Operation (ρ : Type) where
  | register (registration : Registration ρ)
  | unregister (bucket : String)
  | compile (bucket : String) (query : Query)

/-- A catalog, an engine and, for every plan by its serial number, what it was compiled from and
for which version of the catalog.
-/
structure Session (ρ : Type) where
  catalog : Catalog ρ
  engine : Engine
  origins : List (Fingerprint × Nat)

namespace Session

variable {ρ : Type}

def start (catalog : Catalog ρ) (settings : Settings) (order : PlanOrder IssuedPlan) : Session ρ :=
  ⟨catalog, Engine.new settings order, []⟩

def step (session : Session ρ) : Operation ρ → Session ρ
  | .register registration =>
      { session with catalog := session.catalog.register registration }
  | .unregister bucket => { session with catalog := session.catalog.unregister bucket }
  | .compile bucket query =>
      let engine := (session.engine.compile session.catalog bucket query).2
      let origin : Fingerprint × Nat := (⟨bucket, query⟩, session.catalog.version)
      {
        session with
        engine
        origins :=
          if engine.issued = session.engine.issued then session.origins
          else session.origins ++ [origin]
      }

/-- The session after operations, one after the other. -/
def run (session : Session ρ) (operations : List (Operation ρ)) : Session ρ :=
  operations.foldl step session

/-- The plan was compiled for the fingerprint and the version, and if this is the current
version of the catalog, it is what would be compiled now.
-/
structure Current (catalog : Catalog ρ) (limits : Limits) (origins : List (Fingerprint × Nat))
    (fingerprint : Fingerprint) (version : Nat) (issued : IssuedPlan)
    : Prop where
  origin : origins[issued.serial]? = some (fingerprint, version)
  past : version ≤ catalog.version
  fresh
    : version = catalog.version
      → Plan.compile catalog limits fingerprint.bucket fingerprint.query = .ok issued.plan

/-- The engine has its settings, counts the plans that it compiles, and keeps none for a version
of the catalog that does not yield it.
-/
structure Coherent (settings : Settings) (session : Session ρ) : Prop where
  configured : session.engine.settings = settings
  issued : session.origins.length = session.engine.issued
  cache : session.engine.cache.All (Current session.catalog settings.limits session.origins)

variable {settings : Settings} {session : Session ρ}

theorem coherent_start (catalog : Catalog ρ) (settings : Settings) (order : PlanOrder IssuedPlan)
    : (start catalog settings order).Coherent settings where
  configured := rfl
  issued := rfl
  cache := PlanCache.all_new _ _

/-- A change gives the catalog a version for which no plan is kept. -/
theorem Coherent.change (coherent : session.Coherent settings) {catalog : Catalog ρ}
    (later : session.catalog.version < catalog.version)
    : ({ session with catalog } : Session ρ).Coherent settings where
  configured := coherent.configured
  issued := coherent.issued
  cache := coherent.cache.imp fun _ _ _ current =>
    {
      origin := current.origin
      past := Nat.le_of_lt (Nat.lt_of_le_of_lt current.past later)
      fresh := fun same => absurd (same ▸ current.past) (Nat.not_le.mpr later)
    }

/-- A compilation returns what would be compiled now, and leaves a coherent engine that knows
the origin of the plan.
-/
theorem Coherent.compile (coherent : session.Coherent settings) (bucket : String)
    (query : Query)
    : (session.step (.compile bucket query)).Coherent settings
      ∧ (session.engine.compile session.catalog bucket query).1.map IssuedPlan.plan
        = Plan.compile session.catalog settings.limits bucket query
      ∧ ∀ issued,
          (session.engine.compile session.catalog bucket query).1 = .ok issued
          → (session.step (.compile bucket query)).origins[issued.serial]?
            = some (⟨bucket, query⟩, session.catalog.version) := by
  obtain ⟨rfl, issued, cache⟩ := coherent
  have looked := cache.get ⟨bucket, query⟩ session.catalog.version
  rcases session.engine.compile_cases session.catalog bucket query with
    ⟨found, hit, returned⟩ | ⟨error, failed, returned⟩ | ⟨plan, compiled, returned⟩
  · have current := cache.of_get hit
    simp only [step, returned, ↓reduceIte]
    refine ⟨⟨rfl, issued, looked⟩, ?_, fun other same => ?_⟩
    · rw [current.fresh rfl]
      rfl
    · exact Except.ok.inj same ▸ current.origin
  · simp only [step, returned, ↓reduceIte]
    refine ⟨⟨rfl, issued, looked⟩, ?_, by simp⟩
    rw [failed]
    rfl
  · have renewed : session.engine.issued + 1 ≠ session.engine.issued := by omega
    simp only [step, returned, renewed, ↓reduceIte]
    refine ⟨⟨rfl, by simp [issued], ?_⟩, ?_, fun other same => ?_⟩
    · refine PlanCache.All.insert (looked.imp fun fingerprint version other current => ?_) ?_
      · have known := (List.getElem?_eq_some_iff.mp current.origin).1
        exact ⟨(List.getElem?_append_left known).trans current.origin, current.past,
          current.fresh⟩
      · exact ⟨by simp [← issued], Nat.le_refl _, fun _ => compiled⟩
    · rw [compiled]
      rfl
    · obtain rfl := Except.ok.inj same
      simp [← issued]

theorem Coherent.step (coherent : session.Coherent settings) (operation : Operation ρ)
    : (session.step operation).Coherent settings := by
  cases operation with
  | register registration => exact coherent.change (Nat.lt_succ_self _)
  | unregister bucket =>
      simp only [Session.step, Catalog.unregister]
      split
      · exact coherent.change (Nat.lt_succ_self _)
      · exact coherent
  | compile bucket query => exact (coherent.compile bucket query).1

/-- Every run leaves a coherent engine, by induction on the operations. -/
theorem Coherent.run (coherent : session.Coherent settings) (operations : List (Operation ρ))
    : (session.run operations).Coherent settings := by
  induction operations generalizing session with
  | nil => exact coherent
  | cons operation rest ih => exact ih (coherent.step operation)

/-- The plan cache is transparent, in whatever order it goes through its plans. After any changes of
the catalog and any compilations, a compilation returns the plan or the error that the compiler makes
of the bucket and the query in the current catalog. The plan that it returns was compiled from this
bucket, from this query down to the order of its keys, and for this version of the catalog.
-/
theorem compile_transparent (catalog : Catalog ρ) (settings : Settings)
    (order : PlanOrder IssuedPlan) (operations : List (Operation ρ)) (bucket : String)
    (query : Query)
    : let session := (start catalog settings order).run operations
      let returned := (session.engine.compile session.catalog bucket query).1
      returned.map IssuedPlan.plan = Plan.compile session.catalog settings.limits bucket query
      ∧ ∀ issued,
          returned = .ok issued
          → (session.step (.compile bucket query)).origins[issued.serial]?
            = some (⟨bucket, query⟩, session.catalog.version) :=
  (((coherent_start catalog settings order).run operations).compile bucket query).2

end Session

end FederatedQuery
