import FederatedQuery.Proofs.Number.Order
import FederatedQuery.Sorting
import FederatedQuery.Sorting.Insertion

/-! The laws of comparing values. Sorting compares types first, and values of one type by an order
of that type; rules test equality in the same way. All laws of an order and of an equality hold, but
for one exception of transitivity: a float is equal to integers that differ.
-/

namespace FederatedQuery

/-- The relation leads from `a` to `b` and from `b` to `c`, but not from `a` to `c`. -/
def BreaksAt {α : Type} (related : α → α → Prop) (a b c : α) : Prop :=
  related a b ∧ related b c ∧ ¬related a c

namespace Value

/-- The first and the last value are integers that differ, and the one between them is a float to
which both are equal.
-/
inductive Conflated : Option Value → Option Value → Option Value → Prop where
  | numbers {a between c : Number} (conflates : between.Conflates a c)
      : Conflated (some (.number a)) (some (.number between)) (some (.number c))

theorem Conflated.symm {a b c : Option Value} (conflated : Conflated a b c)
    : Conflated c b a := by
  obtain ⟨conflates⟩ := conflated
  exact .numbers conflates.symm

/-- A value in the middle that conflates two others is equal to both. -/
theorem Conflated.sortCompareOptional_eq {a b c : Option Value} (conflated : Conflated a b c)
    : sortCompareOptional a b = .eq
      ∧ sortCompareOptional b c = .eq
      ∧ sortCompareOptional a c ≠ .eq := by
  obtain ⟨conflates⟩ := conflated
  exact conflates.compare_eq

variable {a b c : Value}

-----------------------------------------------------------------------------------------
-- Values of one type
-----------------------------------------------------------------------------------------

theorem exists_bool_of_rank (rank : a.rank = 1) : ∃ x, a = .bool x := by
  cases a with
  | bool x => exact ⟨x, rfl⟩
  | null | number | string | array | object => cases rank

theorem exists_number_of_rank (rank : a.rank = 2) : ∃ n, a = .number n := by
  cases a with
  | number n => exact ⟨n, rfl⟩
  | null | bool | string | array | object => cases rank

theorem exists_string_of_rank (rank : a.rank = 3) : ∃ s, a = .string s := by
  cases a with
  | string s => exact ⟨s, rfl⟩
  | null | bool | number | array | object => cases rank

-----------------------------------------------------------------------------------------
-- The sort order
-----------------------------------------------------------------------------------------

@[simp]
theorem sortCompare_self (a : Value) : sortCompare a a = .eq := by
  cases a <;> simp [sortCompare]

theorem sortCompare_swap (a b : Value) : sortCompare b a = (sortCompare a b).swap := by
  cases a <;> cases b <;>
    first
    | exact Number.compare_swap ..
    | exact Std.OrientedOrd.eq_swap

theorem sortCompare_of_rank_lt (less : a.rank < b.rank) : sortCompare a b = .lt := by
  have ranks : Ord.compare a.rank b.rank = .lt := Nat.compare_eq_lt.mpr less
  cases a <;> cases b <;>
    first
    | exact ranks
    | exact absurd less (Nat.lt_irrefl _)

theorem rank_le_of_isLE (ordered : (sortCompare a b).isLE) : a.rank ≤ b.rank := by
  rcases Nat.lt_or_ge b.rank a.rank with less | ordered'
  · rw [sortCompare_swap, sortCompare_of_rank_lt less] at ordered
    cases ordered
  · exact ordered'

/-- Nulls are equal, and so are arrays and objects. -/
theorem sortCompare_of_rank_eq (same : a.rank = b.rank) (unordered : a.rank = 0 ∨ a.rank = 4)
    : sortCompare a b = .eq := by
  have ranks : Ord.compare a.rank b.rank = .eq := Nat.compare_eq_eq.mpr same
  cases a <;> cases b <;>
    first
    | exact ranks
    | simp [rank] at unordered

/-- Values in order one after the other are in order, unless the one between them conflates the
others. Values of different types are in the order of their types.
-/
theorem isLE_trans (first : (sortCompare a b).isLE) (second : (sortCompare b c).isLE)
    : (sortCompare a c).isLE ∨ Conflated (some a) (some b) (some c) := by
  have below := rank_le_of_isLE first
  have above := rank_le_of_isLE second
  rcases Nat.lt_or_eq_of_le (Nat.le_trans below above) with less | same
  · exact Or.inl (by simp [sortCompare_of_rank_lt less])
  · have sameFirst : b.rank = a.rank := by omega
    cases a with
    | bool x =>
        obtain ⟨y, rfl⟩ := exists_bool_of_rank sameFirst
        obtain ⟨z, rfl⟩ := exists_bool_of_rank same.symm
        exact Or.inl (Std.TransOrd.isLE_trans first second)
    | number m =>
        obtain ⟨n, rfl⟩ := exists_number_of_rank sameFirst
        obtain ⟨k, rfl⟩ := exists_number_of_rank same.symm
        exact (Number.isLE_trans first second).imp_right .numbers
    | string s =>
        obtain ⟨t, rfl⟩ := exists_string_of_rank sameFirst
        obtain ⟨u, rfl⟩ := exists_string_of_rank same.symm
        exact Or.inl (Std.TransOrd.isLE_trans first second)
    | null | array | object =>
        exact Or.inl (by simp [sortCompare_of_rank_eq same, rank])

@[simp]
theorem sortCompareOptional_self (a : Option Value) : sortCompareOptional a a = .eq := by
  cases a with
  | none => rfl
  | some a => exact sortCompare_self a

theorem sortCompareOptional_swap (a b : Option Value)
    : sortCompareOptional b a = (sortCompareOptional a b).swap := by
  match a, b with
  | none, none | none, some _ | some _, none => rfl
  | some a, some b => exact sortCompare_swap a b

/-- Values of which some may be missing are in order like those that are there. -/
theorem optional_isLE_trans {a b c : Option Value} (first : (sortCompareOptional a b).isLE)
    (second : (sortCompareOptional b c).isLE)
    : (sortCompareOptional a c).isLE ∨ Conflated a b c := by
  match a, b, c with
  | none, _, none | none, _, some _ => exact Or.inl rfl
  | some _, none, _ => cases first
  | _, some _, none => cases second
  | some a, some b, some c => exact isLE_trans first second

/-- Ties lead to ties, since they can be read in both directions. -/
theorem optional_eq_trans {a b c : Option Value} (first : sortCompareOptional a b = .eq)
    (second : sortCompareOptional b c = .eq)
    : sortCompareOptional a c = .eq ∨ Conflated a b c := by
  have first' : sortCompareOptional b a = .eq := by rw [sortCompareOptional_swap, first]; rfl
  have second' : sortCompareOptional c b = .eq := by rw [sortCompareOptional_swap, second]; rfl
  have forth : (sortCompareOptional a c).isLE ∨ Conflated a b c :=
    optional_isLE_trans (by rw [first]; rfl) (by rw [second]; rfl)
  have back : (sortCompareOptional c a).isLE ∨ Conflated c b a :=
    optional_isLE_trans (by rw [second']; rfl) (by rw [first']; rfl)
  rcases forth with ordered | conflated
  · rcases back with reversed | conflated
    · rw [sortCompareOptional_swap] at reversed
      cases tie : sortCompareOptional a c with
      | eq => exact Or.inl rfl
      | lt => simp [tie] at reversed
      | gt => simp [tie] at ordered
    · exact Or.inr conflated.symm
  · exact Or.inr conflated

-----------------------------------------------------------------------------------------
-- Equality
-----------------------------------------------------------------------------------------

/-- One representative for all values that are equal, numbers apart. -/
def representative (foldCase : Bool) : Value → Value
  | .string s => .string (if foldCase then Text.lower s else s)
  | a => a.normal

theorem rank_representative (foldCase : Bool) (a : Value)
    : (a.representative foldCase).rank = a.rank := by
  cases a <;> simp [representative, normal, rank]

/-- Values other than numbers are equal if they have the same representative. -/
theorem equal_iff_of_rank (notNumber : a.rank ≠ 2) (foldCase : Bool)
    : equal foldCase a b = true ↔ a.representative foldCase = b.representative foldCase := by
  cases a <;> cases b <;> cases foldCase <;>
    first
    | exact absurd rfl notNumber
    | simp [equal, same, representative, normal]

/-- Only values of one type are equal, since a representative has the type of its value. -/
theorem rank_eq_of_equal {foldCase : Bool} (agree : equal foldCase a b = true)
    : a.rank = b.rank := by
  by_cases number : a.rank = 2
  · obtain ⟨m, rfl⟩ := exists_number_of_rank number
    cases b with
    | number n => rfl
    | null | bool | string | array | object => simp [equal, same, normal] at agree
  · rw [← rank_representative foldCase a, (equal_iff_of_rank number foldCase).mp agree,
      rank_representative]

@[simp]
theorem equal_self (foldCase : Bool) (a : Value) : equal foldCase a a = true := by
  by_cases number : a.rank = 2
  · obtain ⟨m, rfl⟩ := exists_number_of_rank number
    simp [equal]
  · exact (equal_iff_of_rank number foldCase).mpr rfl

theorem equal_symm {foldCase : Bool} (agree : equal foldCase a b = true)
    : equal foldCase b a = true := by
  have same := rank_eq_of_equal agree
  by_cases number : a.rank = 2
  · obtain ⟨m, rfl⟩ := exists_number_of_rank number
    obtain ⟨n, rfl⟩ := exists_number_of_rank same.symm
    have tie : m.compare n = .eq := eq_of_beq agree
    exact beq_iff_eq.mpr (by rw [Number.compare_swap, tie]; rfl)
  · rw [equal_iff_of_rank (same ▸ number)]
    exact ((equal_iff_of_rank number foldCase).mp agree).symm

/-- Values that are equal one after the other are equal, unless the one in the middle conflates the
others.
-/
theorem equal_trans {foldCase : Bool} (first : equal foldCase a b = true)
    (second : equal foldCase b c = true)
    : equal foldCase a c = true ∨ Conflated (some a) (some b) (some c) := by
  have same := rank_eq_of_equal first
  by_cases number : a.rank = 2
  · obtain ⟨m, rfl⟩ := exists_number_of_rank number
    obtain ⟨n, rfl⟩ := exists_number_of_rank same.symm
    obtain ⟨k, rfl⟩ := exists_number_of_rank (rank_eq_of_equal second).symm
    have tie : sortCompareOptional (some (.number m)) (some (.number n)) = .eq := eq_of_beq first
    have tie' : sortCompareOptional (some (.number n)) (some (.number k)) = .eq :=
      eq_of_beq second
    exact (optional_eq_trans tie tie').imp_left beq_iff_eq.mpr
  · refine Or.inl ((equal_iff_of_rank number foldCase).mpr ?_)
    exact ((equal_iff_of_rank number foldCase).mp first).trans
      ((equal_iff_of_rank (same ▸ number) foldCase).mp second)

theorem Conflated.equal_eq {foldCase : Bool} (conflated : Conflated (some a) (some b) (some c))
    : equal foldCase a b = true ∧ equal foldCase b c = true ∧ equal foldCase a c ≠ true := by
  have ties := conflated.sortCompareOptional_eq
  cases conflated
  exact ⟨beq_iff_eq.mpr ties.1, beq_iff_eq.mpr ties.2.1, fun agree => ties.2.2 (eq_of_beq agree)⟩

-----------------------------------------------------------------------------------------
-- Where transitivity fails
-----------------------------------------------------------------------------------------

/-- The value is not an integer of more than 53 bits. -/
def isShort : Option Value → Bool
  | some (.number n) => n.isShort
  | _ => true

/-- The sort order is reflexive and the same from both sides, and equality is reflexive and
symmetric. Both are transitive but for integers that differ and a float that conflates them, and no
float conflates integers of at most 53 bits.
-/
theorem comparisons_break_iff (a b c : Option Value) (x y z : Value) (foldCase : Bool)
    : (sortCompareOptional a a = .eq
        ∧ sortCompareOptional b a = (sortCompareOptional a b).swap
        ∧ (BreaksAt (fun a b => (sortCompareOptional a b).isLE = true) a b c
            ↔ Conflated a b c ∧ sortCompareOptional a c = .gt)
        ∧ (BreaksAt (sortCompareOptional · · = .eq) a b c ↔ Conflated a b c))
      ∧ (equal foldCase x x = true
        ∧ equal foldCase y x = equal foldCase x y
        ∧ (BreaksAt (equal foldCase · · = true) x y z
            ↔ Conflated (some x) (some y) (some z)))
      ∧ ¬(Conflated a b c ∧ isShort a = true ∧ isShort c = true) := by
  refine ⟨⟨sortCompareOptional_self a, sortCompareOptional_swap a b, ?_, ?_⟩,
    ⟨equal_self foldCase x, ?_, ?_⟩, ?_⟩
  · constructor
    · rintro ⟨first, second, broken⟩
      refine ⟨(optional_isLE_trans first second).resolve_left broken, ?_⟩
      simpa using broken
    · rintro ⟨conflated, reversed⟩
      have ties := conflated.sortCompareOptional_eq
      exact ⟨by simp [ties.1], by simp [ties.2.1], by simp [reversed]⟩
  · constructor
    · rintro ⟨first, second, broken⟩
      exact (optional_eq_trans first second).resolve_left broken
    · exact Conflated.sortCompareOptional_eq
  · exact Bool.eq_iff_iff.mpr ⟨equal_symm, equal_symm⟩
  · constructor
    · rintro ⟨first, second, broken⟩
      exact (equal_trans first second).resolve_left broken
    · exact Conflated.equal_eq
  · rintro ⟨⟨conflates⟩, short⟩
    exact conflates.not_isShort short

/-- 2⁵³ + 1. -/
def aboveLimit : Value := .number (.int 0x20000000000001 (by decide))

/-- 2⁵³ as a float. -/
def floatLimit : Value :=
  .number (.float
    ⟨false, Binary64.leastNormal, 1075, Binary64.leastNormal_lt, by decide, by decide⟩)

/-- 2⁵³ as an integer. -/
def intLimit : Value := .number (.int 0x20000000000000 (by decide))

/-- The float is equal to both integers, for sorting and for rules, although the integers are not
equal to each other. Rows with the three numbers are left as they are when they are sorted by
insertion, with the greater integer in front.
-/
theorem comparisons_aroundLimit
    : sortCompareOptional (some aboveLimit) (some floatLimit) = .eq
      ∧ sortCompareOptional (some floatLimit) (some intLimit) = .eq
      ∧ sortCompareOptional (some aboveLimit) (some intLimit) = .gt
      ∧ (∀ foldCase,
          equal foldCase aboveLimit floatLimit = true
          ∧ equal foldCase floatLimit intLimit = true
          ∧ equal foldCase aboveLimit intLimit = false)
      ∧ sortRows .insertion [⟨"n", .asc⟩]
          ([aboveLimit, floatLimit, intLimit].map fun n => .object [("n", n)])
        = some ([aboveLimit, floatLimit, intLimit].map fun n => .object [("n", n)]) := by
  decide +kernel

end Value

end FederatedQuery
