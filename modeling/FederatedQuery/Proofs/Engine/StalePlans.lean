import FederatedQuery.Proofs.Engine.Federation
import FederatedQuery.Proofs.Execution.StalePlans

/-! Executing a plan after its catalog has changed. Every part is run on the runner that is
registered for the part's bucket then. Sub-queries inside a part are run there, too, and so on the
runner of their own bucket unless that has moved to another scope.
-/

namespace FederatedQuery

variable {ρ : Type}

/-- The call goes to the runner that is registered for the bucket. -/
def Call.GoesTo (call : Call ρ) (catalog : Catalog ρ) (bucket : String) : Prop :=
  ∃ registration, catalog.get? bucket = some registration ∧ call.runner = registration.runner

/-- Buckets are in the scopes that their runners report, and there is one runner for each scope. -/
structure Catalog.ByScope (catalog : Catalog ρ) (scopes : ρ → String) : Prop where
  reported
    : ∀ bucket registration,
        catalog.get? bucket = some registration → registration.scope = scopes registration.runner
  shared : catalog.Shared

/-- It is enough to look at all registrations that there are. -/
theorem Catalog.byScope_of_forall {catalog : Catalog ρ} {scopes : ρ → String}
    (reported : ∀ entry ∈ catalog.buckets, entry.2.scope = scopes entry.2.runner)
    (shared
      : ∀ first ∈ catalog.buckets, ∀ second ∈ catalog.buckets,
          first.2.scope = second.2.scope → first.2.runner = second.2.runner)
    : catalog.ByScope scopes where
  reported _ _ known := reported _ (Table.mem_of_get? known)
  shared _ _ _ _ left right := shared _ (Table.mem_of_get? left) _ (Table.mem_of_get? right)

/-- A runner of a scope serves a bucket if and only if the bucket is in the scope. -/
theorem Catalog.ByScope.goesTo_iff {catalog : Catalog ρ} {scopes : ρ → String}
    (byScope : catalog.ByScope scopes) {call : Call ρ} {root : String}
    {registration : Registration ρ} (known : catalog.get? root = some registration)
    (runner : call.runner = registration.runner) (bucket : String)
    : call.GoesTo catalog bucket ↔ catalog.scopeOf? bucket = some registration.scope := by
  constructor
  · intro goes
    obtain ⟨other, there, sameRunner⟩ := goes
    rw [scopeOf?, there, Option.map_some, byScope.reported _ _ there, ← sameRunner, runner,
      byScope.reported _ _ known]
  · intro inScope
    obtain ⟨other, there, sameScope⟩ := scopeOf?_eq_some inScope
    exact ⟨other, there, runner.trans (byScope.shared _ _ _ _ known there sameScope.symm)⟩

namespace Session

variable {settings : Settings} {session : Session ρ}

/-- A stale plan is run on the registered runners or not at all, but for buckets that have moved.
Take a plan and any changes of the catalog since it was compiled. Its execution is an error, or it
has run every part once for every parameter row, on the runner that is registered now for the part's
bucket. Any bucket that the part reads was read from the runner registered for that bucket if and
only if the bucket is in the scope in which it was when the plan was compiled.
-/
theorem executePlan_stale (reached : session.Reached settings) {bucket : String} {query : Query}
    {plan : Plan}
    (compiled : Plan.compile session.catalog settings.limits bucket query = .ok plan)
    (operations : List (Operation ρ)) (scopes : ρ → String)
    (byScope : (session.run operations).catalog.ByScope scopes) (respond : Respond ρ)
    (request : Request) (progress : Progress ρ)
    : let later := session.run operations
      let outcome := later.engine.executePlan later.catalog respond plan request progress
      (∃ error, outcome.result = .error error)
      ∨ ∃ services : List (Service ρ),
          (⟨services, none⟩ : History ρ).Records respond progress outcome.progress
          ∧ ∀ part ∈ plan.parts,
              (∀ place < max 1 request.params.length,
                (services.countP fun service => service.serves part.id place) = 1)
              ∧ ∀ service ∈ services,
                  service.part.id = part.id
                  → service.part.tree.bucketsRead = part.tree.bucketsRead
                    ∧ service.call.GoesTo later.catalog part.bucket
                    ∧ ∀ name ∈ part.tree.bucketsRead,
                        service.call.GoesTo later.catalog name
                        ↔ later.catalog.scopeOf? name = session.catalog.scopeOf? name := by
  intro later outcome
  obtain ⟨tree, -, -, wellFormed⟩ :=
    (Plan.yields_compile reached.reachable _ _ _).of_eq_ok compiled
  cases ended : outcome.result with
  | error error => exact .inl ⟨error, rfl⟩
  | ok sets =>
      have ran : (Execution.runPlan later.catalog respond later.engine.settings.coalesceParams plan
          request).run.run progress = (.ok sets, outcome.progress) := by
        rw [← ended]
        rfl
      obtain ⟨services, records, through, runs⟩ := Execution.runPlan_stale wellFormed ran
      refine .inr ⟨services, records, fun part inside => ⟨through.once part inside, ?_⟩⟩
      intro service among same
      obtain ⟨reads, registration, known, scope, runner⟩ := runs service among part inside same
      refine ⟨reads, ⟨registration, known, runner⟩, fun name read => ?_⟩
      rw [byScope.goesTo_iff known runner, (wellFormed.placed part inside).scopeOf?_eq name read,
        scope]

/-- The runner for the west is in the west, and all others are in the east. -/
def scopeNamed (runner : String) : String := if runner = "west" then "west" else "east"

/-- The first runner in the east and the others disagree about what is red. -/
def tintStores (runner : String) : Store :=
  let colors :=
    if runner = "east" then
      [.object [("id", .string "r"), ("name", .string "red")]]
    else [.object [("id", .string "g"), ("name", .string "red")]]
  let shapes : List Value :=
    [
      .object [("id", .string "a"), ("tint", .string "r")],
      .object [("id", .string "b"), ("tint", .string "g")]
    ]
  ((Store.empty.extend "shape" shapes).1.extend "color" colors).1

/-- Shapes and their colors on one runner. -/
def eastSession : Session String :=
  (start Catalog.empty Settings.default .asStored).run
    [
      .register ⟨⟨"shape", "id", []⟩, "east", "east"⟩,
      .register ⟨⟨"color", "id", []⟩, "east", "east"⟩
    ]

/-- The shapes of the color that is named red. -/
def shapesOfRed : Request where
  bucket := "shape"
  query := ⟨[("tint", .object [("@color.id", .object [("name", .string "red")])])]⟩
  params := []
  templates := []
  sort := []
  pagination := none

/-- Another runner in the east gets both buckets. -/
def takenOver : List (Operation String) :=
  [
    .unregister "shape",
    .unregister "color",
    .register ⟨⟨"shape", "id", []⟩, "east", "new east"⟩,
    .register ⟨⟨"color", "id", []⟩, "east", "new east"⟩
  ]

set_option maxRecDepth 100000 in
/-- The plan of the query is run on the new runner, from which it reads both buckets. -/
theorem executePlan_stale_takenOver
    : let later := eastSession.run takenOver
      later.catalog.ByScope scopeNamed
      ∧ ∃ plan part, ∃ services : List (Service String),
          Plan.compile eastSession.catalog Limits.default "shape" shapesOfRed.query = .ok plan
          ∧ plan.parts = [part]
          ∧ part.tree.bucketsRead = ["shape", "color"]
          ∧ (⟨services, none⟩ : History String).Records (Store.respond .insertion tintStores)
            ⟨false, []⟩
            (later.engine.executePlan later.catalog (Store.respond .insertion tintStores) plan
              shapesOfRed ⟨false, []⟩).progress
          ∧ ∃ service ∈ services,
              service.serves part.id 0 = true
              ∧ service.call.GoesTo later.catalog "shape"
              ∧ service.call.GoesTo later.catalog "color" := by
  intro later
  have seen : (Plan.compile eastSession.catalog Limits.default "shape"
      shapesOfRed.query).toOption.map (fun plan =>
        (plan.parts.map fun part => part.tree.bucketsRead,
          ((eastSession.run takenOver).engine.executePlan (eastSession.run takenOver).catalog
            (Store.respond .insertion tintStores) plan shapesOfRed
            ⟨false, []⟩).result.toOption.isSome))
      = some ([["shape", "color"]], true) := by
    decide +kernel
  obtain ⟨plan, compiled, same⟩ := toOption_map_eq_some_iff.mp seen
  obtain ⟨reads, succeeds⟩ := Prod.mk.inj same
  obtain ⟨part, parts, buckets⟩ := List.map_eq_singleton_iff.mp reads
  have byScope : later.catalog.ByScope scopeNamed :=
    Catalog.byScope_of_forall (by decide +kernel) (by decide +kernel)
  have reached : eastSession.Reached Settings.default := ⟨_, _, rfl⟩
  rcases executePlan_stale reached compiled takenOver scopeNamed byScope
    (Store.respond .insertion tintStores) shapesOfRed ⟨false, []⟩ with
    ⟨error, failed⟩ | ⟨services, records, each⟩
  · rw [failed] at succeeds
    cases succeeds
  · obtain ⟨once, runs⟩ := each part (by simp [parts])
    have some : 0 < services.countP fun service => service.serves part.id 0 :=
      once 0 (by decide) ▸ Nat.one_pos
    obtain ⟨service, among, serves⟩ := List.countP_pos_iff.mp some
    obtain ⟨-, -, goes⟩ := runs service among ((service.serves_iff _ _).mp serves).1
    refine ⟨byScope, plan, part, services, compiled, parts, buckets, records, service, among,
      serves, (goes "shape" (by simp [buckets])).mpr ?_, (goes "color" (by simp [buckets])).mpr ?_⟩
    · decide +kernel
    · decide +kernel

set_option maxRecDepth 100000 in
/-- The colors have moved to the west since the query was compiled, and nothing is red there but
what the second shape has. Executing the plan succeeds all the same. It reads the colors in the
east and finds the first shape.
-/
theorem executePlan_movedColors
    : let later := eastSession.run [.register ⟨⟨"color", "id", []⟩, "west", "west"⟩]
      later.catalog.ByScope scopeNamed
      ∧ ∃ plan call sets,
          Plan.compile eastSession.catalog Limits.default "shape" shapesOfRed.query = .ok plan
          ∧ (later.engine.executePlan later.catalog (Store.respond .insertion tintStores) plan
              shapesOfRed ⟨false, []⟩).result
            = .ok sets
          ∧ sets.map (fun set => column set.rows "id") = [[.string "a"]]
          ∧ (later.engine.executePlan later.catalog (Store.respond .insertion tintStores) plan
              shapesOfRed ⟨false, []⟩).progress.calls
            = [call]
          ∧ "color" ∈ call.request.part.tree.bucketsRead
          ∧ ¬call.GoesTo later.catalog "color" := by
  intro later
  have seen : (Plan.compile eastSession.catalog Limits.default "shape"
      shapesOfRed.query).toOption.map (fun plan =>
        let outcome := later.engine.executePlan later.catalog
          (Store.respond .insertion tintStores) plan shapesOfRed ⟨false, []⟩
        (outcome.result.toOption.map (List.map fun set => column set.rows "id"),
          outcome.progress.calls.map fun call =>
            (call.runner, call.request.part.tree.bucketsRead)))
      = some (some [[.string "a"]], [("east", ["shape", "color"])]) := by
    decide +kernel
  obtain ⟨plan, compiled, same⟩ := toOption_map_eq_some_iff.mp seen
  obtain ⟨found, made⟩ := Prod.mk.inj same
  obtain ⟨sets, succeeded, rows⟩ := toOption_map_eq_some_iff.mp found
  obtain ⟨call, calls, seenCall⟩ := List.map_eq_singleton_iff.mp made
  obtain ⟨runner, reads⟩ := Prod.mk.inj seenCall
  refine ⟨Catalog.byScope_of_forall (by decide +kernel) (by decide +kernel), plan, call, sets,
    compiled, succeeded, rows, calls, by simp [reads], ?_⟩
  intro goes
  obtain ⟨registration, known, sameRunner⟩ := goes
  have west : (later.catalog.get? "color").map Registration.runner = some "west" := by
    decide +kernel
  rw [known, Option.map_some, ← sameRunner, runner] at west
  simp at west

end Session

end FederatedQuery
