import FederatedQuery.Table.Sorted

/-! The entries of tables: which of them are left or found. -/

namespace FederatedQuery.Table

variable {κ α : Type} [DecidableEq κ]

/-- An entry after a key was given a value is the new one or an earlier one, by induction. -/
theorem mem_put {table : Table κ α} {key : κ} {value : α}
    {entry : κ × α} (inside : entry ∈ put table key value)
    : entry = (key, value) ∨ entry ∈ table := by
  induction table with
  | nil => exact Or.inl (List.mem_singleton.mp inside)
  | cons head rest ih =>
      obtain ⟨k, v⟩ := head
      simp only [put] at inside
      split at inside
      · exact (List.mem_cons.mp inside).imp_right fun later => List.mem_cons_of_mem _ later
      · rcases List.mem_cons.mp inside with rfl | inside
        · exact Or.inr (by simp)
        · exact (ih inside).imp_right fun later => List.mem_cons_of_mem _ later

theorem mem_of_get? {table : Table κ α} {key : κ} {value : α}
    (found : get? table key = some value)
    : (key, value) ∈ table := by
  induction table with
  | nil => cases found
  | cons head rest ih =>
      obtain ⟨k, v⟩ := head
      rw [get?_cons] at found
      split at found
      · next same =>
        obtain rfl := Option.some.inj found
        exact same ▸ List.mem_cons_self
      · exact List.mem_cons_of_mem _ (ih found)

/-- In a table of values of a function, every key that is there has the function's value. -/
theorem get?_of_forall {table : Table κ α} {f : κ → α}
    (values : ∀ entry ∈ table, entry.2 = f entry.1) {key : κ} (known : key ∈ keys table)
    : get? table key = some (f key) := by
  obtain ⟨value, found⟩ := Option.isSome_iff_exists.mp ((isSome_get?_iff table key).mpr known)
  exact found.trans (congrArg some (values _ (mem_of_get? found)))

theorem get?_append (first second : Table κ α) (key : κ)
    : get? (first ++ second) key = (get? first key).or (get? second key) := by
  induction first with
  | nil => rfl
  | cons entry rest ih =>
      obtain ⟨k, v⟩ := entry
      rw [List.cons_append, get?_cons, get?_cons, ih]
      split <;> rfl

theorem get?_flatMap {β : Type} (xs : List β) (f : β → Table κ α) (key : κ)
    : get? (xs.flatMap f) key = xs.findSome? fun x => get? (f x) key := by
  induction xs with
  | nil => rfl
  | cons x rest ih =>
      rw [List.flatMap_cons, get?_append, ih, List.findSome?_cons]
      cases get? (f x) key <;> rfl

/-- Leaving out entries by their keys leaves the values of the other keys. -/
theorem get?_filter_keys (table : Table κ α) (keep : κ → Bool) (key : κ)
    : get? (table.filter fun entry => keep entry.1) key
      = if keep key then get? table key else none := by
  induction table with
  | nil => simp
  | cons entry rest ih =>
      obtain ⟨k, v⟩ := entry
      rw [get?_cons]
      by_cases same : key = k
      · subst same
        cases kept : keep key with
        | true => simp [kept, get?_cons]
        | false => simpa [kept] using ih
      · rw [if_neg same, ← ih]
        cases kept : keep k with
        | true => simp [kept, get?_cons, same]
        | false => simp [kept]

/-- Distinct keys that are given values one by one have them, by induction on the keys. -/
theorem map_get?_zip {keys : List κ} {values : List α} (distinct : keys.Nodup)
    (counted : values.length = keys.length)
    : keys.map (fun key => get? (keys.zip values) key) = values.map some := by
  induction keys generalizing values with
  | nil => simp [List.length_eq_zero_iff.mp counted]
  | cons key rest ih =>
      obtain ⟨fresh, restDistinct⟩ := List.nodup_cons.mp distinct
      cases values with
      | nil => cases counted
      | cons value others =>
          have tail := ih restDistinct (Nat.succ.inj counted)
          have skipped : rest.map (fun other => get? ((key, value) :: rest.zip others) other)
              = rest.map fun other => get? (rest.zip others) other := by
            refine List.map_congr_left fun other inside => ?_
            rw [get?_cons, if_neg fun same : other = key => fresh (same ▸ inside)]
          rw [List.zip_cons_cons, List.map_cons, List.map_cons, skipped, tail, get?_cons,
            if_pos rfl]

/-- A key that is given the value that it has keeps the table as it is. -/
theorem put_of_get? {table : Table κ α} {key : κ} {value : α}
    (found : get? table key = some value)
    : put table key value = table := by
  induction table with
  | nil => cases found
  | cons entry rest ih =>
      obtain ⟨k, v⟩ := entry
      rw [get?_cons] at found
      rw [put]
      by_cases same : key = k
      · rw [if_pos same] at found
        rw [if_pos same.symm, same, Option.some.inj found]
      · rw [if_neg same] at found
        rw [if_neg (Ne.symm same), ih found]

/-- Giving a key a value adds an entry if and only if the key had none. -/
theorem length_put (table : Table κ α) (key : κ) (value : α)
    : (put table key value).length
      = table.length + if (get? table key).isSome then 0 else 1 := by
  induction table with
  | nil => rfl
  | cons entry rest ih =>
      obtain ⟨k, v⟩ := entry
      simp only [put]
      by_cases same : k = key
      · simp [same, get?_cons]
      · rw [if_neg same, List.length_cons, ih, List.length_cons, get?_cons,
          if_neg (Ne.symm same)]
        omega

section distinct

variable {table : Table κ α} (distinct : (keys table).Nodup)

include distinct

/-- An entry of a table with distinct keys is the one that counts for its key. -/
theorem get?_of_mem {key : κ} {value : α} (inside : (key, value) ∈ table)
    : get? table key = some value := by
  induction table with
  | nil => cases inside
  | cons entry rest ih =>
      obtain ⟨k, v⟩ := entry
      obtain ⟨fresh, others⟩ := List.nodup_cons.mp distinct
      rw [get?_cons]
      rcases List.mem_cons.mp inside with same | later
      · rw [(Prod.mk.inj same).1, (Prod.mk.inj same).2, if_pos rfl]
      · have differs : key ≠ k := fun same =>
          fresh (same ▸ List.mem_map.mpr ⟨_, later, rfl⟩)
        rw [if_neg differs, ih others later]

/-- Leaving out entries by their values leaves the others as they are. -/
theorem get?_filter (keep : α → Bool) (key : κ)
    : get? (table.filter fun entry => keep entry.2) key = (get? table key).filter keep := by
  induction table with
  | nil => rfl
  | cons entry rest ih =>
      obtain ⟨k, v⟩ := entry
      obtain ⟨fresh, others⟩ := List.nodup_cons.mp distinct
      rw [get?_cons]
      by_cases same : key = k
      · subst same
        have gone : get? rest key = none := by
          rw [← Option.not_isSome_iff_eq_none, isSome_get?_iff]
          exact fresh
        have after := ih others
        rw [gone] at after
        cases kept : keep v with
        | true => simp [kept, get?_cons, Option.filter]
        | false => simp [kept, after, Option.filter]
      · rw [if_neg same, ← ih others]
        cases kept : keep v with
        | true => simp [kept, get?_cons, same]
        | false => simp [kept]

/-- Erasing a known key removes one entry. -/
theorem length_erase {key : κ} (known : (get? table key).isSome = true)
    : (erase table key).length + 1 = table.length := by
  induction table with
  | nil => cases known
  | cons entry rest ih =>
      obtain ⟨k, v⟩ := entry
      obtain ⟨fresh, others⟩ := List.nodup_cons.mp distinct
      by_cases same : k = key
      · subst same
        have untouched : erase rest k = rest :=
          List.filter_eq_self.mpr fun entry among => decide_eq_true fun same =>
            fresh (same ▸ List.mem_map.mpr ⟨entry, among, rfl⟩)
        have first : erase ((k, v) :: rest) k = erase rest k := by simp [erase]
        rw [first, untouched, List.length_cons]
      · rw [get?_cons, if_neg (Ne.symm same)] at known
        have first : erase ((k, v) :: rest) key = (k, v) :: erase rest key := by
          simp [erase, same]
        rw [first, List.length_cons, ih others known, List.length_cons]

theorem mem_iff_get? {key : κ} {value : α}
    : (key, value) ∈ table ↔ get? table key = some value :=
  ⟨get?_of_mem distinct, mem_of_get?⟩

end distinct

theorem Ascending.nodup {table : Table String α} (ascending : Ascending table)
    : (keys table).Nodup :=
  ascending.imp fun below => Std.ne_of_lt below

/-- A key that is there already keeps its place in the order when it is given another value. -/
theorem keys_insert_of_mem {table : Table String α} (ascending : Ascending table) {key : String}
    (known : key ∈ keys table) (value : α)
    : keys (insert table key value) = keys table := by
  induction table with
  | nil => cases known
  | cons entry rest ih =>
      obtain ⟨k, v⟩ := entry
      obtain ⟨first, others⟩ := List.pairwise_cons.mp ascending
      rw [insert]
      split
      · next same => rw [keys_cons, keys_cons, same]
      · next differs =>
        have later : key ∈ keys rest := (List.mem_cons.mp known).resolve_left differs
        rw [if_neg (String.lt_asymm (first key later)), keys_cons, keys_cons, ih others later]

end FederatedQuery.Table
