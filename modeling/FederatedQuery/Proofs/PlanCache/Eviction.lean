import FederatedQuery.PlanCache
import FederatedQuery.Proofs.Table

/-! What single operations on the plan cache do. An insertion makes room if the cache is full and
the fingerprint is new: it drops all plans of other versions of the catalog or, if there are none,
one plan that was hit least often.
-/

namespace FederatedQuery.PlanCache

variable {π : Type} {cache : PlanCache π} {fingerprint : Fingerprint} {version : Nat}

/-- The plan stored for a fingerprint, of whatever version. -/
def cached? (cache : PlanCache π) (fingerprint : Fingerprint) : Option (CachedPlan π) :=
  Table.get? cache.entries fingerprint

/-- No more plans are stored than there is room for, and one for each fingerprint. -/
structure Tidy (cache : PlanCache π) : Prop where
  bounded : cache.size ≤ cache.capacity
  distinct : (Table.keys cache.entries).Nodup

theorem tidy_new (capacity : Nat) (order : PlanOrder π) : (new capacity order).Tidy :=
  ⟨Nat.zero_le _, List.nodup_nil⟩

theorem isEnabled_of_pos (enabled : 0 < cache.capacity) : cache.isEnabled = true :=
  decide_eq_true enabled

-----------------------------------------------------------------------------------------
-- Lookups
-----------------------------------------------------------------------------------------

/-- A lookup returns a plan stored in the version and counts a hit on it, or counts a miss. -/
theorem get_cases (enabled : 0 < cache.capacity) (fingerprint : Fingerprint) (version : Nat)
    : (∃ cached,
        cache.cached? fingerprint = some cached
        ∧ cached.version = version
        ∧ cache.get fingerprint version
          = (some cached.plan,
              {
                cache with
                entries := Table.put cache.entries fingerprint cached.recordHit
                stats := { cache.stats with hits := cache.stats.hits + 1 }
              }))
      ∨ (∀ cached, cache.cached? fingerprint = some cached → cached.version ≠ version)
        ∧ cache.get fingerprint version
          = (none,
              { cache with stats := { cache.stats with misses := cache.stats.misses + 1 } }) := by
  simp only [get, isEnabled_of_pos enabled, ↓reduceIte]
  split
  · next cached found =>
    obtain ⟨known, current⟩ := Option.filter_eq_some_iff.mp found
    exact Or.inl ⟨cached, known, of_decide_eq_true current, rfl⟩
  · next missed =>
    refine Or.inr ⟨fun cached known current => ?_, rfl⟩
    simp only [cached?] at known
    simp [known, current] at missed

-----------------------------------------------------------------------------------------
-- Insertions
-----------------------------------------------------------------------------------------

/-- The least used plan is one of the plans, and none of them has fewer hits. By induction on the
plans.
-/
theorem leastUsed?_spec {entries : Table Fingerprint (CachedPlan π)} (some : entries ≠ [])
    : ∃ least,
        leastUsed? entries = Option.some least
        ∧ least ∈ entries
        ∧ ∀ entry ∈ entries, least.2.hits ≤ entry.2.hits := by
  induction entries with
  | nil => exact absurd rfl some
  | cons entry rest ih =>
      by_cases alone : rest = []
      · subst alone
        exact ⟨entry, rfl, by simp, by simp⟩
      · obtain ⟨other, found, among, fewest⟩ := ih alone
        simp only [leastUsed?, found]
        split
        · next fewer =>
          refine ⟨entry, rfl, List.mem_cons_self, fun third inside => ?_⟩
          rcases List.mem_cons.mp inside with rfl | later
          · exact Nat.le_refl _
          · exact Nat.le_trans fewer (fewest third later)
        · next more =>
          refine ⟨other, rfl, List.mem_cons_of_mem _ among, fun third inside => ?_⟩
          rcases List.mem_cons.mp inside with rfl | later
          · exact Nat.le_of_not_le more
          · exact fewest third later

/-- It is so in whatever order the plans are gone through. -/
theorem leastUsed?_arrange_spec (order : PlanOrder π) (time : Nat)
    {entries : Table Fingerprint (CachedPlan π)} (some : entries ≠ [])
    : ∃ least,
        leastUsed? (order.arrange time entries) = Option.some least
        ∧ least ∈ entries
        ∧ ∀ entry ∈ entries, least.2.hits ≤ entry.2.hits := by
  have perm := order.perm time entries
  have someArranged : order.arrange time entries ≠ [] := fun none =>
    some (List.nil_perm.mp (none ▸ perm))
  obtain ⟨least, found, among, fewest⟩ := leastUsed?_spec someArranged
  refine ⟨least, found, perm.mem_iff.mp among, fun entry inside => ?_⟩
  exact fewest entry (perm.mem_iff.mpr inside)

/-- The cache with these plans left of those that it stores, the others having been evicted. -/
def keeping (cache : PlanCache π) (kept : Table Fingerprint (CachedPlan π)) : PlanCache π :=
  {
    cache with
    entries := kept
    stats :=
      { cache.stats with evictions := cache.stats.evictions + (cache.size - kept.length) }
  }

/-- The plans stored in a version of the catalog. -/
def current (cache : PlanCache π) (version : Nat) : Table Fingerprint (CachedPlan π) :=
  cache.entries.filter fun entry => entry.2.version = version

/-- Which plans an insertion keeps before it stores its own. -/
inductive Keeps (cache : PlanCache π) (fingerprint : Fingerprint) (version : Nat)
    : Table Fingerprint (CachedPlan π) → Prop
  /-- There is room for the plan, or it takes the place of another. -/
  | all (room : cache.size < cache.capacity ∨ (cache.cached? fingerprint).isSome = true)
    : Keeps cache fingerprint version cache.entries
  /-- All plans of other versions are dropped. -/
  | current (full : cache.size = cache.capacity) (absent : cache.cached? fingerprint = none)
      (stale : ∃ entry ∈ cache.entries, entry.2.version ≠ version)
    : Keeps cache fingerprint version (cache.current version)
  /-- One plan with fewest hits is dropped. -/
  | others (full : cache.size = cache.capacity) (absent : cache.cached? fingerprint = none)
      (fresh : ∀ entry ∈ cache.entries, entry.2.version = version)
      {least : Fingerprint × CachedPlan π} (among : least ∈ cache.entries)
      (fewest : ∀ entry ∈ cache.entries, least.2.hits ≤ entry.2.hits)
    : Keeps cache fingerprint version (Table.erase cache.entries least.1)

/-- Dropping plans of other versions leaves room, so that no further plan has to go. -/
theorem length_current_lt (stale : ∃ entry ∈ cache.entries, entry.2.version ≠ version)
    : (cache.current version).length < cache.size := by
  apply List.length_filter_lt_length_iff_exists.mpr
  obtain ⟨entry, inside, other⟩ := stale
  exact ⟨entry, inside, by simpa using other⟩

/-- Dropping one plan leaves room. -/
theorem length_erase_add_one (tidy : cache.Tidy) {entry : Fingerprint × CachedPlan π}
    (among : entry ∈ cache.entries)
    : (Table.erase cache.entries entry.1).length + 1 = cache.size := by
  have known := Table.get?_of_mem tidy.distinct among
  exact Table.length_erase tidy.distinct (by simp [known])

/-- A full cache loses its plans of other versions or, if it has none, one with fewest hits. -/
theorem makeRoom_cases (tidy : cache.Tidy) (enabled : 0 < cache.capacity)
    (full : cache.size = cache.capacity) (absent : cache.cached? fingerprint = none)
    : ∃ kept,
        cache.Keeps fingerprint version kept ∧ cache.makeRoom version = cache.keeping kept := by
  by_cases stale : ∃ entry ∈ cache.entries, entry.2.version ≠ version
  · have fewer : (cache.current version).length < cache.capacity :=
      full ▸ length_current_lt stale
    refine ⟨_, .current full absent stale, ?_⟩
    simp only [current] at fewer
    simp only [makeRoom, if_neg (Nat.not_le.mpr fewer), keeping, current, size]
  · have fresh : ∀ entry ∈ cache.entries, entry.2.version = version := by
      simpa using stale
    have whole : cache.entries.filter (fun entry => entry.2.version = version) = cache.entries :=
      List.filter_eq_self.mpr fun entry inside => decide_eq_true (fresh entry inside)
    have some : cache.entries ≠ [] := by
      intro none
      simp only [size, none, List.length_nil] at full
      omega
    obtain ⟨least, found, among, fewest⟩ :=
      leastUsed?_arrange_spec cache.order cache.stats.evictions some
    have erased := length_erase_add_one tidy among
    have needed : cache.capacity ≤ cache.entries.length := Nat.le_of_eq full.symm
    refine ⟨_, .others full absent fresh among fewest, ?_⟩
    simp only [makeRoom, whole, if_pos needed, found, keeping, ← erased]
    simp

/-- An insertion stores its plan beside those that it keeps. -/
theorem insert_cases (tidy : cache.Tidy) (enabled : 0 < cache.capacity)
    (fingerprint : Fingerprint) (plan : π) (version : Nat)
    : ∃ kept,
        cache.Keeps fingerprint version kept
        ∧ cache.insert fingerprint plan version
          = {
              cache.keeping kept with
              entries := Table.put kept fingerprint (CachedPlan.new plan version)
            } := by
  simp only [insert, isEnabled_of_pos enabled, ↓reduceIte]
  split
  · next needs =>
    have full : cache.size = cache.capacity := Nat.le_antisymm tidy.bounded needs.1
    have absent : cache.cached? fingerprint = none := Option.isNone_iff_eq_none.mp needs.2
    obtain ⟨kept, keeps, roomy⟩ := makeRoom_cases tidy enabled full absent
    exact ⟨kept, keeps, by rw [roomy]; rfl⟩
  · next roomy =>
    have room : cache.size < cache.capacity ∨ (cache.cached? fingerprint).isSome = true := by
      rw [Option.isSome_iff_ne_none]
      rw [Option.isNone_iff_eq_none] at roomy
      by_cases absent : cache.cached? fingerprint = none
      · exact Or.inl (Nat.lt_of_not_le fun full => roomy ⟨full, absent⟩)
      · exact Or.inr absent
    exact ⟨cache.entries, .all room, by simp [keeping, size]⟩

namespace Keeps

variable {kept : Table Fingerprint (CachedPlan π)}

/-- No plan is kept that was not stored. -/
theorem sublist (keeps : cache.Keeps fingerprint version kept) : kept.Sublist cache.entries := by
  cases keeps with
  | all => exact List.Sublist.refl _
  | current => exact List.filter_sublist
  | others => exact List.filter_sublist

theorem distinct (keeps : cache.Keeps fingerprint version kept) (tidy : cache.Tidy)
    : (Table.keys kept).Nodup :=
  (keeps.sublist.map Prod.fst).nodup tidy.distinct

/-- Every plan that is kept was stored before. -/
theorem cached?_of_some (keeps : cache.Keeps fingerprint version kept) (tidy : cache.Tidy)
    {other : Fingerprint} {cached : CachedPlan π} (known : Table.get? kept other = some cached)
    : cache.cached? other = some cached :=
  Table.get?_of_mem tidy.distinct (keeps.sublist.subset (Table.mem_of_get? known))

/-- There is room for a plan whose fingerprint is new, and the fingerprint stays new. -/
theorem room (keeps : cache.Keeps fingerprint version kept) (tidy : cache.Tidy)
    (absent : cache.cached? fingerprint = none)
    : Table.get? kept fingerprint = none ∧ kept.length < cache.capacity := by
  constructor
  · rw [Option.eq_none_iff_forall_ne_some]
    intro cached known
    cases absent.symm.trans (keeps.cached?_of_some tidy known)
  · cases keeps with
    | all room => exact room.resolve_right (by simp [absent])
    | current full _ stale => exact full ▸ length_current_lt stale
    | others full _ _ among =>
        have erased := length_erase_add_one tidy among
        omega

/-- A plan keeps its place if its fingerprint was known before. -/
theorem eq_entries (keeps : cache.Keeps fingerprint version kept)
    (present : (cache.cached? fingerprint).isSome = true)
    : kept = cache.entries := by
  cases keeps with
  | all => rfl
  | current _ absent | others _ absent => simp [absent] at present

end Keeps

end FederatedQuery.PlanCache
