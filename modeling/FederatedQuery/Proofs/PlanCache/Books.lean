import FederatedQuery.Proofs.PlanCache.Eviction

/-! The books of the plan cache. Whatever lookups, insertions and clearings it has seen, its counts
agree with them, it holds no more plans than it has room for, and every plan in it is the one that
was inserted last for its fingerprint.
-/

namespace FederatedQuery.PlanCache

variable {π : Type}

/-- What can be done to a cache. -/
inductive Operation (π : Type) where
  | get (fingerprint : Fingerprint) (version : Nat)
  | insert (fingerprint : Fingerprint) (plan : π) (version : Nat)
  | clear

def step (cache : PlanCache π) : Operation π → PlanCache π
  | .get fingerprint version => (cache.get fingerprint version).2
  | .insert fingerprint plan version => cache.insert fingerprint plan version
  | .clear => cache.clear

/-- The cache after operations, one after the other. -/
def run (cache : PlanCache π) (operations : List (Operation π)) : PlanCache π :=
  operations.foldl step cache

-----------------------------------------------------------------------------------------
-- What the operations say
-----------------------------------------------------------------------------------------

namespace Operation

def isGet : Operation π → Bool
  | get _ _ => true
  | _ => false

/-- The operation looks for a plan of the version. -/
def asks (fingerprint : Fingerprint) (version : Nat) : Operation π → Bool
  | get other asked => other = fingerprint ∧ asked = version
  | _ => false

/-- The plan and the version that the operation inserts for the fingerprint. -/
def inserted? (fingerprint : Fingerprint) : Operation π → Option (π × Nat)
  | insert other plan version => if other = fingerprint then some (plan, version) else none
  | _ => none

/-- The number of fingerprints that the operation inserts and that are absent from the cache. -/
def added (cache : PlanCache π) : Operation π → Nat
  | insert fingerprint _ _ => if (cache.cached? fingerprint).isSome then 0 else 1
  | _ => 0

/-- The number of plans that the operation clears away. -/
def cleared (cache : PlanCache π) : Operation π → Nat
  | clear => cache.size
  | _ => 0

end Operation

/-- The plan inserted last for the fingerprint, and its version. -/
def latest? (fingerprint : Fingerprint) (history : List (Operation π)) : Option (π × Nat) :=
  (history.filterMap (Operation.inserted? fingerprint)).getLast?

/-- How often a plan of the version was looked for since a plan was inserted for the fingerprint. -/
def uses (fingerprint : Fingerprint) (version : Nat) (history : List (Operation π)) : Nat :=
  (history.reverse.takeWhile fun operation =>
    (operation.inserted? fingerprint).isNone).countP (Operation.asks fingerprint version)

/-- How many insertions find their fingerprint absent. -/
def additions (cache : PlanCache π) : List (Operation π) → Nat
  | [] => 0
  | operation :: rest => operation.added cache + additions (cache.step operation) rest

/-- How many plans are cleared away. -/
def clearings (cache : PlanCache π) : List (Operation π) → Nat
  | [] => 0
  | operation :: rest => operation.cleared cache + clearings (cache.step operation) rest

theorem latest?_concat (fingerprint : Fingerprint) (history : List (Operation π))
    (operation : Operation π)
    : latest? fingerprint (history ++ [operation])
      = (operation.inserted? fingerprint).or (latest? fingerprint history) := by
  rw [latest?, List.filterMap_append, List.getLast?_append]
  cases inserted : operation.inserted? fingerprint with
  | none => simp [inserted, latest?]
  | some last => simp [inserted]

theorem uses_concat (fingerprint : Fingerprint) (version : Nat) (history : List (Operation π))
    (operation : Operation π)
    : uses fingerprint version (history ++ [operation])
      = if (operation.inserted? fingerprint).isSome then 0
        else
          uses fingerprint version history
            + if operation.asks fingerprint version then 1 else 0 := by
  rw [uses, List.reverse_append, List.reverse_singleton, List.singleton_append,
    List.takeWhile_cons]
  cases inserted : operation.inserted? fingerprint with
  | none => simp [uses, List.countP_cons]
  | some last => simp

-----------------------------------------------------------------------------------------
-- Single operations
-----------------------------------------------------------------------------------------

variable {cache : PlanCache π} {capacity : Nat}

/-- A hit leaves as many plans as there were. -/
theorem size_put_recordHit {fingerprint : Fingerprint} {cached : CachedPlan π}
    (known : cache.cached? fingerprint = some cached)
    : (Table.put cache.entries fingerprint cached.recordHit).length = cache.size := by
  simp only [cached?] at known
  simp [Table.length_put, known, size]

theorem capacity_step (tidy : cache.Tidy) (enabled : 0 < cache.capacity)
    (operation : Operation π)
    : (cache.step operation).capacity = cache.capacity := by
  cases operation with
  | get fingerprint version =>
      rcases get_cases enabled fingerprint version with ⟨_, _, _, looked⟩ | ⟨_, looked⟩
      · simp only [step, looked]
      · simp only [step, looked]
  | insert fingerprint plan version =>
      obtain ⟨kept, _, stored⟩ := insert_cases tidy enabled fingerprint plan version
      simp only [step, stored, keeping]
  | clear => rfl

theorem Tidy.step (tidy : cache.Tidy) (enabled : 0 < cache.capacity) (operation : Operation π)
    : (cache.step operation).Tidy := by
  cases operation with
  | get fingerprint version =>
      rcases get_cases enabled fingerprint version with ⟨cached, known, _, looked⟩ | ⟨_, looked⟩
      · simp only [PlanCache.step, looked]
        exact ⟨Nat.le_trans (Nat.le_of_eq (size_put_recordHit known)) tidy.bounded,
          Table.nodup_keys_put tidy.distinct _ _⟩
      · simp only [PlanCache.step, looked]
        exact ⟨tidy.bounded, tidy.distinct⟩
  | insert fingerprint plan version =>
      obtain ⟨kept, keeps, stored⟩ := insert_cases tidy enabled fingerprint plan version
      simp only [PlanCache.step, stored]
      refine ⟨?_, Table.nodup_keys_put (keeps.distinct tidy) _ _⟩
      have counted := Table.length_put kept fingerprint (CachedPlan.new plan version)
      have bounded := tidy.bounded
      simp only [size, keeping] at counted bounded ⊢
      cases known : cache.cached? fingerprint with
      | none =>
          obtain ⟨absent, room⟩ := keeps.room tidy known
          simp only [absent, Option.isSome_none, Bool.false_eq_true, ↓reduceIte] at counted
          omega
      | some cached =>
          obtain rfl := keeps.eq_entries (by simp [known])
          simp only [cached?] at known
          simp only [known, Option.isSome_some, ↓reduceIte] at counted
          omega
  | clear => exact ⟨Nat.zero_le _, List.nodup_nil⟩

/-- A lookup is a hit or a miss, and nothing else is. -/
theorem lookups_step (tidy : cache.Tidy) (enabled : 0 < cache.capacity)
    (operation : Operation π)
    : (cache.step operation).stats.hits + (cache.step operation).stats.misses
      = cache.stats.hits + cache.stats.misses + if operation.isGet then 1 else 0 := by
  cases operation with
  | get fingerprint version =>
      rcases get_cases enabled fingerprint version with ⟨_, _, _, looked⟩ | ⟨_, looked⟩
      · simp only [step, looked, Operation.isGet, ↓reduceIte]
        omega
      · simp only [step, looked, Operation.isGet, ↓reduceIte]
        omega
  | insert fingerprint plan version =>
      obtain ⟨kept, _, stored⟩ := insert_cases tidy enabled fingerprint plan version
      simp [step, stored, keeping, Operation.isGet]
  | clear => rfl

/-- Every plan that was added is stored, evicted or cleared away. -/
theorem balance_step (tidy : cache.Tidy) (enabled : 0 < cache.capacity)
    (operation : Operation π)
    : (cache.step operation).stats.evictions + operation.cleared cache
        + (cache.step operation).size
      = cache.stats.evictions + cache.size + operation.added cache := by
  cases operation with
  | get fingerprint version =>
      rcases get_cases enabled fingerprint version with ⟨cached, known, _, looked⟩ | ⟨_, looked⟩
      · have counted := size_put_recordHit known
        simp only [step, looked, Operation.cleared, Operation.added, size] at counted ⊢
        omega
      · simp only [step, looked, Operation.cleared, Operation.added]
        rfl
  | insert fingerprint plan version =>
      obtain ⟨kept, keeps, stored⟩ := insert_cases tidy enabled fingerprint plan version
      have fewer := keeps.sublist.length_le
      have counted := Table.length_put kept fingerprint (CachedPlan.new plan version)
      simp only [step, stored, keeping, Operation.cleared, Operation.added, size] at fewer counted ⊢
      cases known : cache.cached? fingerprint with
      | none =>
          obtain ⟨absent, -⟩ := keeps.room tidy known
          simp only [absent, Option.isSome_none, Bool.false_eq_true, ↓reduceIte] at counted ⊢
          omega
      | some cached =>
          obtain rfl := keeps.eq_entries (by simp [known])
          simp only [cached?] at known
          simp only [known, Option.isSome_some, ↓reduceIte] at counted ⊢
          omega
  | clear => rfl

-----------------------------------------------------------------------------------------
-- Runs
-----------------------------------------------------------------------------------------

/-- The cache agrees with the operations that it has seen. -/
structure Agrees (cache : PlanCache π) (history : List (Operation π)) : Prop where
  tidy : cache.Tidy
  /-- A stored plan is the one inserted last, with the hits that it has had since. -/
  stored
    : ∀ fingerprint cached,
        cache.cached? fingerprint = some cached
        → latest? fingerprint history = some (cached.plan, cached.version)
          ∧ cached.hits = uses fingerprint cached.version history
  lookups : cache.stats.hits + cache.stats.misses = history.countP Operation.isGet

theorem agrees_new (capacity : Nat) (order : PlanOrder π) : (new capacity order).Agrees [] where
  tidy := tidy_new capacity order
  stored _ _ known := by cases known
  lookups := rfl

/-- A lookup changes no plan, and counts a hit where it finds one. -/
theorem Agrees.stored_get {history : List (Operation π)} (agrees : cache.Agrees history)
    (enabled : 0 < cache.capacity) {fingerprint other : Fingerprint} {version : Nat}
    {cached : CachedPlan π}
    (known : (cache.get fingerprint version).2.cached? other = some cached)
    : latest? other (history ++ [.get fingerprint version])
        = some (cached.plan, cached.version)
      ∧ cached.hits = uses other cached.version (history ++ [.get fingerprint version]) := by
  rw [latest?_concat, uses_concat]
  simp only [Operation.inserted?, Operation.asks, Option.none_or, Option.isSome_none,
    Bool.false_eq_true, ↓reduceIte, decide_eq_true_eq]
  rcases get_cases enabled fingerprint version with ⟨hit, found, rfl, looked⟩ | ⟨missed, looked⟩
  · rw [looked] at known
    simp only [cached?, Table.get?_put] at known
    split at known
    · next same =>
      obtain rfl := Option.some.inj known
      obtain ⟨latest, counted⟩ := agrees.stored fingerprint hit found
      simp [same, CachedPlan.recordHit, latest, counted]
    · next differs =>
      obtain ⟨latest, counted⟩ := agrees.stored other cached known
      simp [Ne.symm differs, latest, counted]
  · rw [looked] at known
    obtain ⟨latest, counted⟩ := agrees.stored other cached known
    have unasked : ¬(fingerprint = other ∧ version = cached.version) := by
      intro asked
      exact missed cached (asked.1 ▸ known) asked.2.symm
    simp [unasked, latest, counted]

/-- An insertion stores its plan with no hits, and keeps others with those that they have. -/
theorem Agrees.stored_insert {history : List (Operation π)} (agrees : cache.Agrees history)
    (enabled : 0 < cache.capacity) {fingerprint other : Fingerprint} {plan : π} {version : Nat}
    {cached : CachedPlan π}
    (known : (cache.insert fingerprint plan version).cached? other = some cached)
    : latest? other (history ++ [.insert fingerprint plan version])
        = some (cached.plan, cached.version)
      ∧ cached.hits
        = uses other cached.version (history ++ [.insert fingerprint plan version]) := by
  obtain ⟨kept, keeps, stored⟩ := insert_cases agrees.tidy enabled fingerprint plan version
  rw [stored] at known
  simp only [cached?, Table.get?_put] at known
  rw [latest?_concat, uses_concat]
  split at known
  · next same =>
    obtain rfl := Option.some.inj known
    simp [Operation.inserted?, same, CachedPlan.new]
  · next differs =>
    obtain ⟨latest, counted⟩ :=
      agrees.stored other cached (keeps.cached?_of_some agrees.tidy known)
    simp [Operation.inserted?, Operation.asks, Ne.symm differs, latest, counted]

theorem Agrees.step {history : List (Operation π)} (agrees : cache.Agrees history)
    (enabled : 0 < cache.capacity) (operation : Operation π)
    : (cache.step operation).Agrees (history ++ [operation]) where
  tidy := agrees.tidy.step enabled operation
  lookups := by
    rw [lookups_step agrees.tidy enabled, agrees.lookups, List.countP_append,
      List.countP_singleton]
  stored other cached known := by
    cases operation with
    | get fingerprint version => exact agrees.stored_get enabled known
    | insert fingerprint plan version => exact agrees.stored_insert enabled known
    | clear => cases known

/-- Every run keeps the cache in agreement with its history, and adds no plan that is not stored,
evicted or cleared away in the end. By induction on the operations.
-/
theorem Agrees.run {history : List (Operation π)} (agrees : cache.Agrees history)
    (enabled : 0 < cache.capacity) (operations : List (Operation π))
    : (cache.run operations).Agrees (history ++ operations)
      ∧ (cache.run operations).capacity = cache.capacity
      ∧ (cache.run operations).stats.evictions + clearings cache operations
          + (cache.run operations).size
        = cache.stats.evictions + cache.size + additions cache operations := by
  induction operations generalizing cache history with
  | nil => exact ⟨by simpa [PlanCache.run] using agrees, rfl, rfl⟩
  | cons operation rest ih =>
      have capacity := capacity_step agrees.tidy enabled operation
      have balance := balance_step agrees.tidy enabled operation
      obtain ⟨after, same, total⟩ := ih (agrees.step enabled operation) (capacity ▸ enabled)
      refine ⟨by simpa [PlanCache.run] using after, same.trans capacity, ?_⟩
      simp only [PlanCache.run, List.foldl_cons, clearings, additions] at total ⊢
      omega

-----------------------------------------------------------------------------------------
-- What a cache that agrees with its history returns and removes
-----------------------------------------------------------------------------------------

/-- A lookup returns a plan if one is stored in the version, which is then the one inserted last. -/
theorem Agrees.get_spec {history : List (Operation π)} (agrees : cache.Agrees history)
    (enabled : 0 < cache.capacity) (fingerprint : Fingerprint) (version : Nat)
    : ((cache.get fingerprint version).1.isSome = true
        ↔ ∃ cached, cache.cached? fingerprint = some cached ∧ cached.version = version)
      ∧ ∀ plan,
          (cache.get fingerprint version).1 = some plan
          → latest? fingerprint history = some (plan, version) := by
  rcases get_cases enabled fingerprint version with
    ⟨cached, known, rfl, looked⟩ | ⟨missed, looked⟩
  · rw [looked]
    refine ⟨iff_of_true rfl ⟨cached, known, rfl⟩, fun plan same => ?_⟩
    exact Option.some.inj same ▸ (agrees.stored fingerprint cached known).1
  · rw [looked]
    refine ⟨iff_of_false (by simp) ?_, fun plan same => by cases same⟩
    intro stored
    obtain ⟨cached, known, current⟩ := stored
    exact missed cached known current

/-- A plan just inserted is found. -/
theorem get_insert (tidy : cache.Tidy) (enabled : 0 < cache.capacity)
    (fingerprint : Fingerprint) (plan : π) (version : Nat)
    : ((cache.insert fingerprint plan version).get fingerprint version).1 = some plan := by
  have capacity := capacity_step tidy enabled (.insert fingerprint plan version)
  simp only [step] at capacity
  obtain ⟨kept, _, stored⟩ := insert_cases tidy enabled fingerprint plan version
  have known : (cache.insert fingerprint plan version).cached? fingerprint
      = some (CachedPlan.new plan version) := by
    rw [stored]
    simp [cached?, Table.get?_put]
  rcases get_cases (capacity ▸ enabled) fingerprint version with
    ⟨cached, found, _, looked⟩ | ⟨missed, _⟩
  · obtain rfl := Option.some.inj (found.symm.trans known)
    rw [looked]
    rfl
  · exact absurd rfl (missed _ known)

/-- Of the plans under other fingerprints, exactly those that are accepted are left. -/
def Leaves (cache : PlanCache π) (fingerprint : Fingerprint) (after : PlanCache π)
    (accepted : Fingerprint → CachedPlan π → Prop) : Prop :=
  ∀ other ≠ fingerprint, ∀ cached,
    after.cached? other = some cached ↔ cache.cached? other = some cached ∧ accepted other cached

/-- An insertion removes other plans only if the cache is full and the fingerprint new: those of
other versions or, if there are none, one that was used least since it was stored.
-/
structure MakesRoom (cache : PlanCache π) (history : List (Operation π))
    (fingerprint : Fingerprint) (version : Nat) (after : PlanCache π) : Prop where
  all
    : cache.size < cache.capacity ∨ (cache.cached? fingerprint).isSome = true
      → cache.Leaves fingerprint after fun _ _ => True
  current
    : cache.size = cache.capacity
      → cache.cached? fingerprint = none
      → (∃ other cached, cache.cached? other = some cached ∧ cached.version ≠ version)
      → cache.Leaves fingerprint after fun _ cached => cached.version = version
  others
    : cache.size = cache.capacity
      → cache.cached? fingerprint = none
      → (∀ other cached, cache.cached? other = some cached → cached.version = version)
      → ∃ least,
          (cache.cached? least).isSome = true
          ∧ (∀ other,
              (cache.cached? other).isSome = true
              → uses least version history ≤ uses other version history)
          ∧ cache.Leaves fingerprint after fun other _ => other ≠ least

/-- After an insertion, other plans are there if they were kept. -/
theorem leaves_of_kept {kept : Table Fingerprint (CachedPlan π)} {fingerprint : Fingerprint}
    {plan : π} {version : Nat} {accepted : Fingerprint → CachedPlan π → Prop}
    (stored
      : cache.insert fingerprint plan version
        = {
            cache.keeping kept with
            entries := Table.put kept fingerprint (CachedPlan.new plan version)
          })
    (left
      : ∀ other cached,
          Table.get? kept other = some cached
          ↔ cache.cached? other = some cached ∧ accepted other cached)
    : cache.Leaves fingerprint (cache.insert fingerprint plan version) accepted := by
  intro other differs cached
  rw [stored, ← left]
  simp only [cached?, Table.get?_put, if_neg differs]

theorem Agrees.makesRoom {history : List (Operation π)} (agrees : cache.Agrees history)
    (enabled : 0 < cache.capacity) (fingerprint : Fingerprint) (plan : π) (version : Nat)
    : cache.MakesRoom history fingerprint version (cache.insert fingerprint plan version) := by
  obtain ⟨kept, keeps, stored⟩ := insert_cases agrees.tidy enabled fingerprint plan version
  have lookup := fun entry (inside : entry ∈ cache.entries) =>
    Table.get?_of_mem agrees.tidy.distinct inside
  cases keeps with
  | all room =>
      have full_absent : ¬(cache.size = cache.capacity ∧ cache.cached? fingerprint = none) := by
        intro both
        simp [both.1, both.2] at room
      constructor
      · intro _
        exact leaves_of_kept stored fun other cached => by simp [cached?]
      · intro full absent
        exact absurd ⟨full, absent⟩ full_absent
      · intro full absent
        exact absurd ⟨full, absent⟩ full_absent
  | current full absent stale =>
      constructor
      · intro room
        simp [full, absent] at room
      · intro _ _ _
        refine leaves_of_kept stored fun other cached => ?_
        have filtered := Table.get?_filter agrees.tidy.distinct
          (fun cached : CachedPlan π => decide (cached.version = version)) other
        simp only [PlanCache.current, filtered, cached?, Option.filter_eq_some_iff,
          decide_eq_true_eq]
      · intro _ _ fresh
        obtain ⟨entry, inside, other⟩ := stale
        exact absurd (fresh entry.1 entry.2 (lookup entry inside)) other
  | @others full absent fresh least among fewest =>
      constructor
      · intro room
        simp [full, absent] at room
      · intro _ _ stale
        obtain ⟨other, cached, known, differs⟩ := stale
        exact absurd (fresh _ (Table.mem_of_get? known)) differs
      · intro _ _ _
        have known : cache.cached? least.1 = some least.2 := lookup least among
        refine ⟨least.1, by simp [known], fun other present => ?_, ?_⟩
        · obtain ⟨cached, found⟩ := Option.isSome_iff_exists.mp present
          have inside := Table.mem_of_get? found
          rw [← fresh least among, ← (agrees.stored least.1 least.2 known).2,
            fresh least among, ← fresh _ inside, ← (agrees.stored other cached found).2]
          exact fewest _ inside
        · refine leaves_of_kept stored fun other cached => ?_
          simp only [Table.get?_erase, cached?]
          split
          · next same => simp [same]
          · next differs => simp [differs]

/-- A cache without room stores and counts nothing. -/
theorem run_new_zero (order : PlanOrder π) (operations : List (Operation π))
    : (new 0 order).run operations = new 0 order := by
  induction operations with
  | nil => rfl
  | cons operation rest ih =>
      have still : (new 0 order).step operation = new 0 order := by
        cases operation <;> rfl
      rw [run, List.foldl_cons, still]
      exact ih

/-- The cache keeps its books over any run, in whatever order it goes through its plans. It never
holds more plans than it has room for. It returns a plan if and only if one is stored in the version,
which is the one inserted last for the fingerprint, and it finds what was just inserted. Hits and
misses add up to the lookups; plans that are stored, were evicted or were cleared away, to the
insertions that found their fingerprint absent. Insertions remove no more than they have to. A cache
without room stores and counts nothing.
-/
theorem run_books (capacity : Nat) (order : PlanOrder π) (history : List (Operation π))
    : let cache := (new capacity order).run history
      (0 < capacity
        → cache.size ≤ capacity
          ∧ (∀ fingerprint version,
              ((cache.get fingerprint version).1.isSome = true
                ↔ ∃ cached, cache.cached? fingerprint = some cached ∧ cached.version = version)
              ∧ ∀ plan,
                  (cache.get fingerprint version).1 = some plan
                  → latest? fingerprint history = some (plan, version))
          ∧ (∀ fingerprint plan version,
              ((cache.insert fingerprint plan version).get fingerprint version).1 = some plan)
          ∧ cache.stats.hits + cache.stats.misses = history.countP Operation.isGet
          ∧ cache.stats.evictions + clearings (new capacity order) history + cache.size
            = additions (new capacity order) history
          ∧ ∀ fingerprint plan version,
              cache.MakesRoom history fingerprint version
                (cache.insert fingerprint plan version))
      ∧ (capacity = 0
        → cache = new 0 order
          ∧ ∀ fingerprint version, (cache.get fingerprint version).1 = none) := by
  intro cache
  constructor
  · intro enabled
    obtain ⟨agrees, same, balance⟩ := (agrees_new capacity order).run enabled history
    have room : cache.capacity = capacity := same
    have enabled : 0 < cache.capacity := room ▸ enabled
    refine ⟨room ▸ agrees.tidy.bounded, agrees.get_spec enabled, get_insert agrees.tidy enabled,
      agrees.lookups, ?_, agrees.makesRoom enabled⟩
    rwa [show (new capacity order).stats.evictions + (new capacity order).size = 0 from rfl,
      Nat.zero_add] at balance
  · intro none
    subst none
    have nothing : cache = new 0 order := run_new_zero order history
    exact ⟨nothing, fun fingerprint version => by rw [nothing]; rfl⟩

/-- Two plans of which only the first is found, because the second is asked for in a later version. -/
def foundAndMissed : List (Operation String) :=
  [
    .insert ⟨"shape", ⟨[]⟩⟩ "shapes" 1,
    .insert ⟨"color", ⟨[]⟩⟩ "colors" 1,
    .get ⟨"shape", ⟨[]⟩⟩ 1,
    .get ⟨"color", ⟨[]⟩⟩ 2
  ]

/-- A third plan takes the room of the plan that was missed. -/
theorem run_books_foundAndMissed
    : let cache := (new 2 .asStored).run foundAndMissed
      let after := cache.insert ⟨"maker", ⟨[]⟩⟩ "makers" 1
      cache.size = 2
      ∧ (cache.stats.hits, cache.stats.misses) = (1, 1)
      ∧ foundAndMissed.countP Operation.isGet = 2
      ∧ cache.stats.evictions + clearings (new 2 .asStored) foundAndMissed + cache.size
        = additions (new 2 .asStored) foundAndMissed
      ∧ additions (new 2 .asStored) foundAndMissed = 2
      ∧ (uses ⟨"shape", ⟨[]⟩⟩ 1 foundAndMissed, uses ⟨"color", ⟨[]⟩⟩ 1 foundAndMissed) = (1, 0)
      ∧ cache.MakesRoom foundAndMissed ⟨"maker", ⟨[]⟩⟩ 1 after
      ∧ ((after.cached? ⟨"shape", ⟨[]⟩⟩).isSome, (after.cached? ⟨"color", ⟨[]⟩⟩).isSome)
        = (true, false) := by
  obtain ⟨_, _, _, _, balance, makesRoom⟩ := (run_books 2 .asStored foundAndMissed).1 (by decide)
  refine ⟨by decide +kernel, by decide +kernel, by decide, balance, by decide +kernel,
    by decide +kernel, makesRoom _ _ _, by decide +kernel⟩

end FederatedQuery.PlanCache
