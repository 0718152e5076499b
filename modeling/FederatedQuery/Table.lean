/-! Tables: lists of keyed entries in the order in which the keys first came. Objects, store
buckets and catalogs are tables.
-/

namespace FederatedQuery

/-- Keyed entries, at most one for a key that counts: the first. -/
abbrev Table (κ : Type) (α : Type) := List (κ × α)

namespace Table

variable {κ α : Type} [DecidableEq κ]

/-- The value of a key. -/
def get? (table : Table κ α) (key : κ) : Option α := List.lookup key table

/-- Gives a key a value. A known key keeps its place, a new one comes last. -/
def put : Table κ α → κ → α → Table κ α
  | [], key, value => [(key, value)]
  | (k, v) :: rest, key, value =>
      if k = key then (key, value) :: rest else (k, v) :: put rest key value

/-- Forgets a key. -/
def erase (table : Table κ α) (key : κ) : Table κ α :=
  table.filter fun entry => entry.1 ≠ key

/-- The keys in order. -/
def keys (table : Table κ α) : List κ := table.map Prod.fst

omit [DecidableEq κ] in
@[simp]
theorem keys_cons (entry : κ × α) (rest : Table κ α)
    : keys (entry :: rest) = entry.1 :: keys rest := rfl

@[simp]
theorem get?_nil (key : κ) : get? ([] : Table κ α) key = none := rfl

/-- Lookup tries the entries in order. -/
theorem get?_cons (k : κ) (v : α) (rest : Table κ α) (key : κ)
    : get? ((k, v) :: rest) key = if key = k then some v else get? rest key := by
  rw [get?, List.lookup_cons]
  by_cases h : key = k
  · simp [h]
  · have : (key == k) = false := by simpa using h
    simp [get?, h, this]

/-- A key just put has its new value and every other key keeps its own, by induction. -/
theorem get?_put (table : Table κ α) (key : κ) (value : α) (other : κ)
    : get? (put table key value) other
      = if other = key then some value else get? table other := by
  induction table with
  | nil => simp [put, get?_cons]
  | cons entry rest ih =>
      obtain ⟨k, v⟩ := entry
      simp only [put]
      split
      · next h => subst h; simp only [get?_cons]; split <;> simp_all
      · next h => simp only [get?_cons, ih]; split <;> simp_all

/-- An erased key has no value and every other key keeps its own, by induction. -/
theorem get?_erase (table : Table κ α) (key other : κ)
    : get? (erase table key) other = if other = key then none else get? table other := by
  induction table with
  | nil => simp [erase]
  | cons entry rest ih =>
      obtain ⟨k, v⟩ := entry
      by_cases h : k = key
      · have : erase ((k, v) :: rest) key = erase rest key := by simp [erase, h]
        rw [this, ih, get?_cons]
        split <;> simp_all
      · have : erase ((k, v) :: rest) key = (k, v) :: erase rest key := by simp [erase, h]
        rw [this, get?_cons, get?_cons, ih]
        split <;> simp_all

/-- A key has a value exactly when it is among the keys. -/
theorem isSome_get?_iff (table : Table κ α) (key : κ)
    : (get? table key).isSome ↔ key ∈ keys table := by
  induction table with
  | nil => simp [keys]
  | cons entry rest ih =>
      obtain ⟨k, v⟩ := entry
      rw [get?_cons, keys_cons]
      split
      · simp_all
      · simp_all

/-- Putting keeps distinct keys distinct, since a known key is not added again. -/
theorem nodup_keys_put {table : Table κ α} (distinct : (keys table).Nodup) (key : κ)
    (value : α)
    : (keys (put table key value)).Nodup := by
  have mem_put : ∀ (t : Table κ α) k, k ∈ keys (put t key value) → k = key ∨ k ∈ keys t := by
    intro t k
    induction t with
    | nil => simp [put, keys]
    | cons entry rest ih =>
        simp only [put]
        split
        · simp only [keys_cons, List.mem_cons]; rintro (h | h) <;> simp [h]
        · simp only [keys_cons, List.mem_cons]
          rintro (h | h)
          · simp [h]
          · rcases ih h with h | h <;> simp [h]
  induction table with
  | nil => simp [put, keys]
  | cons entry rest ih =>
      obtain ⟨k, v⟩ := entry
      have parts := List.nodup_cons.mp distinct
      simp only [put]
      split
      · next h => subst h; exact distinct
      · next h =>
        refine List.nodup_cons.mpr ⟨fun member => ?_, ih parts.2⟩
        rcases mem_put rest k member with hk | hk
        · exact h hk
        · exact parts.1 hk

end Table

end FederatedQuery
