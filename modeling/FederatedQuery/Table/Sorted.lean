import FederatedQuery.Table

/-! Tables that keep their entries in ascending order of the text that is their key. Texts
are ordered by code points, which is also the order of their bytes in UTF-8.
-/

namespace FederatedQuery.Table

variable {α : Type}

/-- Gives a key a value at its place in the order, in front of the first greater key. -/
def insert : Table String α → String → α → Table String α
  | [], key, value => [(key, value)]
  | (k, v) :: rest, key, value =>
      if key = k then (key, value) :: rest
      else if key < k then (key, value) :: (k, v) :: rest
      else (k, v) :: insert rest key value

/-- The keys ascend strictly, so that no key occurs twice. -/
def Ascending (table : Table String α) : Prop := (keys table).Pairwise (· < ·)

/-- An inserted key has its new value and every other key keeps its own, by induction. -/
theorem get?_insert (table : Table String α) (key : String) (value : α) (other : String)
    : get? (insert table key value) other
      = if other = key then some value else get? table other := by
  induction table with
  | nil => simp [insert, get?_cons]
  | cons entry rest ih =>
      obtain ⟨k, v⟩ := entry
      simp only [insert]
      split
      · next h => subst h; simp only [get?_cons]; split <;> simp_all
      · split
        · simp only [get?_cons]
        · next differs _ =>
          simp only [get?_cons, ih]
          by_cases found : other = k
          · subst found; simp [Ne.symm differs]
          · simp [found]

/-- The keys after an insertion are the earlier ones and the new one. -/
theorem mem_keys_insert (table : Table String α) (key : String) (value : α) (other : String)
    : other ∈ keys (insert table key value) ↔ other = key ∨ other ∈ keys table := by
  induction table with
  | nil => simp [insert, keys]
  | cons entry rest ih =>
      obtain ⟨k, v⟩ := entry
      simp only [insert]
      split
      · next h => subst h; simp [keys]
      · split
        · simp
        · simp only [keys_cons, List.mem_cons, ih]
          constructor
          · rintro (h | h | h) <;> simp [h]
          · rintro (h | h | h) <;> simp [h]

/-- Insertion keeps the order, by induction and totality of the order on texts. -/
theorem ascending_insert {table : Table String α} (ascending : Ascending table)
    (key : String) (value : α)
    : Ascending (insert table key value) := by
  induction table with
  | nil => simp [insert, Ascending, keys]
  | cons entry rest ih =>
      obtain ⟨k, v⟩ := entry
      have parts := List.pairwise_cons.mp ascending
      simp only [insert]
      split
      · next h => subst h; exact ascending
      · next differs =>
        split
        · next below =>
          refine List.pairwise_cons.mpr ⟨fun other member => ?_, ascending⟩
          rcases List.mem_cons.mp member with rfl | member
          · exact below
          · exact String.lt_trans below (parts.1 other member)
        · next above =>
          refine List.pairwise_cons.mpr ⟨fun other member => ?_, ih parts.2⟩
          rcases (mem_keys_insert rest key value other).mp member with rfl | member
          · exact Std.lt_of_le_of_ne (String.not_lt.mp above) (Ne.symm differs)
          · exact parts.1 other member

/-- Erasing keeps the order, because it only leaves entries out. -/
theorem ascending_erase {table : Table String α} (ascending : Ascending table)
    (key : String)
    : Ascending (erase table key) :=
  ascending.sublist (List.filter_sublist.map Prod.fst)

end FederatedQuery.Table
