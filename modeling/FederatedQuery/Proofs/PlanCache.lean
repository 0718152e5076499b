import FederatedQuery.PlanCache
import FederatedQuery.Proofs.Table

/-! What the plan cache keeps. Lookups, evictions and insertions never pair a plan with another
fingerprint or version, so what holds of all stored plans goes on holding.
-/

namespace FederatedQuery

namespace PlanCache

variable {π : Type}

/-- Every plan in the cache has the property together with its fingerprint and version. -/
def All (P : Fingerprint → Nat → π → Prop) (cache : PlanCache π) : Prop :=
  ∀ entry ∈ cache.entries, P entry.1 entry.2.version entry.2.plan

variable {P : Fingerprint → Nat → π → Prop} {cache : PlanCache π}

theorem all_new (capacity : Nat) (order : PlanOrder π) : (new capacity order).All P := by
  simp [new, All]

theorem All.subset (stored : cache.All P) {smaller : PlanCache π}
    (inside : ∀ entry ∈ smaller.entries, entry ∈ cache.entries)
    : smaller.All P :=
  fun entry among => stored entry (inside entry among)

theorem All.imp {Q : Fingerprint → Nat → π → Prop} (stored : cache.All P)
    (implies : ∀ fingerprint version plan, P fingerprint version plan → Q fingerprint version plan)
    : cache.All Q :=
  fun entry among => implies _ _ _ (stored entry among)

/-- A lookup finds a plan that is stored for the fingerprint and the version. -/
theorem All.of_get (stored : cache.All P) {fingerprint : Fingerprint} {version : Nat} {plan : π}
    (found : (cache.get fingerprint version).1 = some plan)
    : P fingerprint version plan := by
  simp only [get] at found
  split at found
  · split at found
    · next cached known =>
      obtain ⟨known, current⟩ := Option.filter_eq_some_iff.mp known
      obtain rfl := Option.some.inj found
      have holds := stored _ (Table.mem_of_get? known)
      rwa [show cached.version = version by simpa using current] at holds
    · cases found
  · cases found

/-- A lookup counts a hit on the plan that it finds, and changes no plan. -/
theorem All.get (stored : cache.All P) (fingerprint : Fingerprint) (version : Nat)
    : (cache.get fingerprint version).2.All P := by
  simp only [PlanCache.get]
  split
  · split
    · next cached known =>
      have before := stored _ (Table.mem_of_get? (Option.filter_eq_some_iff.mp known).1)
      intro entry among
      rcases Table.mem_put among with rfl | among
      · exact before
      · exact stored entry among
    · exact stored
  · exact stored

/-- Making room only drops plans. -/
theorem All.makeRoom (stored : cache.All P) (version : Nat) : (cache.makeRoom version).All P := by
  refine stored.subset fun entry among => ?_
  simp only [PlanCache.makeRoom] at among
  split at among
  · exact (List.mem_filter.mp (List.mem_filter.mp among).1).1
  · exact (List.mem_filter.mp among).1

/-- A plan is stored for the fingerprint and the version that come with it. -/
theorem All.insert (stored : cache.All P) {fingerprint : Fingerprint} {plan : π} {version : Nat}
    (holds : P fingerprint version plan)
    : (cache.insert fingerprint plan version).All P := by
  have roomy : (if cache.capacity ≤ cache.size ∧ (Table.get? cache.entries fingerprint).isNone
      then cache.makeRoom version else cache).All P := by
    split
    · exact stored.makeRoom version
    · exact stored
  simp only [PlanCache.insert]
  split
  · intro entry among
    rcases Table.mem_put among with rfl | among
    · exact holds
    · exact roomy entry among
  · exact stored

end PlanCache

end FederatedQuery
