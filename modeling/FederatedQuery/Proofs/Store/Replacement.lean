import FederatedQuery.Proofs.Store.Identity
import FederatedQuery.Proofs.Value.Identity

/-! When one inserted object takes the place of another. The store goes by the text of the identity
and rules by its value, so that an equal number that is written differently makes a second object,
and a string that spells out a number takes that number's place.
-/

namespace FederatedQuery

/-- The two values identify the same object: they are equal and are not written differently, or one
of them spells out the other.
-/
def Value.Coincide (a b : Value) : Prop :=
  equal false a b = true ∧ ¬Respelled a b ∨ Spelled a b

namespace Store

/-- In a bucket with the identity field, the object is identified by the value. -/
structure Identifies (identityField : String) (object identity : Value) : Prop where
  isObject : ∃ entries, object = .object entries
  read : object.at? identityField = some identity
  usable : identity.identityKey.isSome = true

theorem Identifies.filing?_eq {identityField : String} {object identity : Value}
    (identifies : Identifies identityField object identity)
    : filing? identityField object = identity.identityKey := by
  obtain ⟨⟨entries, rfl⟩, read, _⟩ := identifies
  rw [filing?, keyOf?, read, Option.bind_some]

/-- An object that has a key is filed under it. -/
theorem insert_of_filing? {store : Store} {name key : String} {object : Value}
    (filed : filing? (store.bucketOrNew name).identityField object = some key)
    : ∃ next,
        store.insert name object = (next, .ok ())
        ∧ next.Holds name
        ∧ next.bucketOrNew name
          = ⟨
              (store.bucketOrNew name).identityField,
              Table.insert (store.bucketOrNew name).objects key object
            ⟩ := by
  rcases insert_cases store name object with ⟨found, filedHere, inserted⟩ | ⟨refused, _⟩
  · obtain rfl := Option.some.inj (filedHere.symm.trans filed)
    refine ⟨_, inserted, ?_, bucketOrNew_putBucket ..⟩
    rw [Holds, bucket?_putBucket, if_pos rfl]
    rfl
  · rw [filed] at refused
    cases refused

/-- An object that is found by some identity is among the objects of the bucket. -/
theorem mem_objects_of_get? {store : Store} {name : String} {identity object : Value}
    (found : store.get? name identity = some object)
    : object ∈ store.objects name := by
  rw [get?_eq] at found
  obtain ⟨key, _, there⟩ := Option.bind_eq_some_iff.mp found
  rw [objects_eq]
  exact List.mem_map.mpr ⟨_, Table.mem_of_get? there, rfl⟩

/-- Of two objects that are inserted one after the other, the second is found by its identity, and it
is found by the identity of the first too if and only if the two coincide. In that case it takes the
place of the first, and nothing else in the bucket changes. Otherwise the first is found by its own
identity as before, and both objects are listed.
-/
theorem insert_insert {store : Store} (reachable : store.Reachable) {name : String}
    {first second identity other : Value}
    (identifies : Identifies (store.bucketOrNew name).identityField first identity)
    (identifies' : Identifies (store.bucketOrNew name).identityField second other)
    : ∃ once twice,
        store.insert name first = (once, .ok ())
        ∧ once.insert name second = (twice, .ok ())
        ∧ twice.get? name other = some second
        ∧ (twice.get? name identity = some second ↔ identity.Coincide other)
        ∧ (identity.Coincide other
          → twice.size name = once.size name
            ∧ ∀ key object,
                (key, object) ∈ (twice.bucketOrNew name).objects
                ↔ if some key = identity.identityKey then object = second
                  else (key, object) ∈ (once.bucketOrNew name).objects)
        ∧ (¬identity.Coincide other
          → twice.get? name identity = some first
            ∧ ∀ sorter tree,
                tree.bucket = name
                → tree.rules = []
                → ∃ set,
                    twice.query sorter tree [] none = .ok (some set)
                    ∧ first ∈ set.rows
                    ∧ second ∈ set.rows) := by
  obtain ⟨key, keyed⟩ := Option.isSome_iff_exists.mp identifies.usable
  obtain ⟨key', keyed'⟩ := Option.isSome_iff_exists.mp identifies'.usable
  have filed := identifies.filing?_eq.trans keyed
  obtain ⟨once, insertedFirst, _, after⟩ := insert_of_filing? filed
  have filed' : filing? (once.bucketOrNew name).identityField second = some key' := by
    rw [after]
    exact identifies'.filing?_eq.trans keyed'
  obtain ⟨twice, insertedSecond, holds, after'⟩ := insert_of_filing? filed'
  have coincide : identity.Coincide other ↔ key' = key := by
    rw [Value.Coincide, ← Value.identityKey_eq_iff_equal keyed, keyed', Option.some_inj]
  have found : ∀ place,
      Table.get? (twice.bucketOrNew name).objects place
      = if place = key' then some second
        else if place = key then some first
        else Table.get? (store.bucketOrNew name).objects place := by
    intro place
    rw [after', after, Table.get?_insert, Table.get?_insert]
  have foundSecond : twice.get? name other = some second := by
    rw [get?_eq, keyed', Option.bind_some, found, if_pos rfl]
  have foundFirst : twice.get? name identity = if key' = key then some second else some first := by
    rw [get?_eq, keyed, Option.bind_some, found, if_pos rfl]
    simp only [eq_comm]
  refine ⟨once, twice, insertedFirst, insertedSecond, foundSecond, ?_, fun alike => ?_,
    fun differ => ?_⟩
  · rw [foundFirst, coincide]
    split
    · next alike => exact iff_of_true rfl alike
    · next differ =>
      refine iff_of_false (fun same => differ ?_) differ
      have read := identifies.read
      rw [Option.some.inj same, identifies'.read] at read
      rw [Option.some.inj read, keyed] at keyed'
      exact (Option.some.inj keyed').symm
  · obtain rfl := coincide.mp alike
    have ascending : (once.bucketOrNew name).objects.Ascending := by
      have next := reachable.insert name first
      rw [insertedFirst] at next
      exact next.ordered.bucketOrNew name
    have known : key' ∈ Table.keys (once.bucketOrNew name).objects := by
      rw [after, Table.mem_keys_insert]
      exact Or.inl rfl
    obtain ⟨next, inserted, size, entries⟩ := insert_replaces ascending known filed'
    obtain rfl : next = twice := congrArg Prod.fst (inserted.symm.trans insertedSecond)
    refine ⟨size, fun place object => ?_⟩
    simp only [entries, keyed, Option.some_inj]
  · have apart : key' ≠ key := fun same => differ (coincide.mpr same)
    rw [if_neg apart] at foundFirst
    refine ⟨foundFirst, fun sorter tree same unconstrained => ?_⟩
    subst same
    exact ⟨_, query_of_rules_eq_nil holds unconstrained sorter, mem_objects_of_get? foundFirst,
      mem_objects_of_get? foundSecond⟩

/-- A shape with the identity and a tint, by which it is told from others. -/
def tintedShape (identity : Value) (tint : String) : Value :=
  .object [("id", identity), ("tint", .string tint)]

/-- A shape that is inserted again in another tint takes the place of the first one. -/
theorem insert_insert_tintedShape
    : ∃ once twice,
        empty.insert "shape" (tintedShape (.string "a") "red") = (once, .ok ())
        ∧ once.insert "shape" (tintedShape (.string "a") "green") = (twice, .ok ())
        ∧ twice.size "shape" = once.size "shape"
        ∧ twice.get? "shape" (.string "a") = some (tintedShape (.string "a") "green") := by
  have identified : ∀ tint,
      Identifies (empty.bucketOrNew "shape").identityField (tintedShape (.string "a") tint)
        (.string "a") :=
    fun tint => ⟨⟨_, rfl⟩, rfl, rfl⟩
  have alike : Value.Coincide (.string "a") (.string "a") :=
    Or.inl ⟨by decide, fun respelled => respelled.ne rfl⟩
  obtain ⟨once, twice, first, second, found, _, replaces, _⟩ :=
    insert_insert Reachable.empty (identified "red") (identified "green")
  exact ⟨once, twice, first, second, (replaces alike).1, found⟩

/-- Seven, as an integer. -/
def intSeven : Value := .number (.int 7 (by decide))

/-- Seven, as a float. -/
def floatSeven : Value :=
  .number (.float ⟨false, 0x1C000000000000, 1024, by decide, by decide, by decide⟩)

/-- A string takes the place of a number to which it is not equal, and a number does not take the
place of a number to which it is equal.
-/
theorem insert_insert_floatSeven
    : let store := (empty.insert "shape" (tintedShape intSeven "red")).1
      let string := (store.insert "shape" (tintedShape (.string "7") "green")).1
      let float := (store.insert "shape" (tintedShape floatSeven "green")).1
      Value.equal false intSeven (.string "7") = false
      ∧ string.size "shape" = 1
      ∧ string.get? "shape" intSeven = some (tintedShape (.string "7") "green")
      ∧ Value.equal false intSeven floatSeven = true
      ∧ float.size "shape" = 2
      ∧ float.get? "shape" intSeven = some (tintedShape intSeven "red")
      ∧ float.get? "shape" floatSeven = some (tintedShape floatSeven "green") := by
  decide +kernel

end Store

end FederatedQuery
