import FederatedQuery.Proofs.Computation
import FederatedQuery.Proofs.RuleTree.Assignment
import FederatedQuery.RuleTree.Building
import Mathlib.Data.List.SplitBy

/-! What a query object says. Its entries are cut into segments where a key begins with `or`;
a segment says all that its entries say, and an `or` group is a choice of its own beside the
segments, wherever it stands. The tree that a query is read as is true under the same
assignments of truth values to the rules.
-/

namespace FederatedQuery

/-- What some part of a query says: whether it asks anything, and whether that is true. -/
structure Saying where
  asks : Bool
  isTrue : Bool
deriving DecidableEq

namespace Saying

/-- Nothing is asked, which is true. -/
def nothing : Saying := ⟨false, true⟩

/-- Everything is asked at once. -/
def allOf (sayings : List Saying) : Saying := ⟨sayings.any asks, sayings.all isTrue⟩

/-- One of the choices is asked. Those that ask nothing do not count; if none counts, nothing is
asked.
-/
def oneOf (choices : List Saying) : Saying :=
  match choices.filter asks with
  | [] => nothing
  | asking => ⟨true, asking.any isTrue⟩

/-- Both are asked. -/
def both (one other : Saying) : Saying := ⟨one.asks || other.asks, one.isTrue && other.isTrue⟩

@[simp]
theorem both_nothing (saying : Saying) : saying.both nothing = saying := by
  simp [both, nothing]

@[simp]
theorem nothing_both (saying : Saying) : nothing.both saying = saying := by
  simp [both, nothing]

theorem oneOf_eq (choices : List Saying)
    : oneOf choices
      = if choices.any asks
        then ⟨true, choices.any fun choice => choice.asks && choice.isTrue⟩ else nothing := by
  rw [← List.any_filter]
  cases asking : choices.filter asks with
  | nil =>
      have silent : choices.any asks = false := by
        simpa [List.filter_eq_nil_iff] using asking
      simp [oneOf, asking, silent]
  | cons first rest =>
      have inside : first ∈ choices.filter asks := by simp [asking]
      have heard : choices.any asks = true :=
        List.any_eq_true.mpr ⟨first, List.mem_filter.mp inside⟩
      simp [oneOf, asking, heard]

/-- Two lists of choices say the same if they agree on whether something is asked and on whether
a choice that asks something is true.
-/
theorem oneOf_congr {choices others : List Saying}
    (asked : choices.any asks = others.any asks)
    (met
      : (choices.any fun choice => choice.asks && choice.isTrue)
        = others.any fun choice => choice.asks && choice.isTrue)
    : oneOf choices = oneOf others := by
  rw [oneOf_eq, oneOf_eq, asked, met]

theorem asks_oneOf (choices : List Saying) : (oneOf choices).asks = choices.any asks := by
  rw [oneOf_eq]
  split
  · next heard => exact heard.symm
  · next silent => simpa [nothing] using silent

/-- Of choices one is asked and true if one of the choices is. -/
theorem asks_and_isTrue_oneOf (choices : List Saying)
    : ((oneOf choices).asks && (oneOf choices).isTrue)
      = choices.any fun choice => choice.asks && choice.isTrue := by
  rw [oneOf_eq]
  split
  · rfl
  · next silent =>
    have quiet : ∀ choice ∈ choices, choice.asks = false := by simpa using silent
    symm
    simp only [nothing, Bool.false_and, List.any_eq_false]
    intro choice inside
    simp [quiet choice inside]

/-- Only choices that ask something count. -/
theorem oneOf_filter (choices : List Saying) : oneOf (choices.filter asks) = oneOf choices := by
  simp [oneOf, List.filter_filter]

end Saying

/-- What an entry of a query object says, and where it stands. -/
structure Clause where
  saying : Saying
  /-- A segment begins with the entry. -/
  opens : Bool
  /-- The entry is a choice of its own beside the segments. -/
  beside : Bool

namespace Clause

/-- The clauses cut in front of each that opens a segment. -/
def segments (clauses : List Clause) : List (List Clause) :=
  clauses.splitBy fun _ next => !next.opens

/-- What a segment says, without the choices beside it. -/
def together (segment : List Clause) : Saying :=
  .allOf ((segment.filter fun clause => !clause.beside).map saying)

/-- The choices of an object: its segments, and what stands beside them. -/
def choices (clauses : List Clause) : List Saying :=
  (segments clauses).map together ++ (clauses.filter beside).map saying

/-- What the entry adds to the segment in which it stands. -/
def joined (clause : Clause) : Saying := if clause.beside then .nothing else clause.saying

theorem together_singleton (clause : Clause) : together [clause] = clause.joined := by
  cases beside : clause.beside <;>
    simp [together, joined, beside, Saying.allOf, Saying.nothing]

theorem together_concat (segment : List Clause) (clause : Clause)
    : together (segment ++ [clause]) = (together segment).both clause.joined := by
  cases beside : clause.beside <;>
    simp [together, joined, beside, Saying.allOf, Saying.both, Saying.nothing]

/-- What the segments say that begin with one that says something already. -/
def onward (current : Saying) : List Clause → List Saying
  | [] => [current]
  | clause :: rest =>
      if clause.opens then current :: onward clause.joined rest
      else onward (current.both clause.joined) rest

/-- Entries of which none but the first may open a segment are one segment. -/
theorem segments_of_joining {first : Clause} {inside : List Clause}
    (joining : ∀ clause ∈ inside, clause.opens = false)
    : segments (first :: inside) = [first :: inside] := by
  refine List.splitBy_of_isChain (by simp) ?_
  induction inside generalizing first with
  | nil => exact .singleton first
  | cons clause rest ih =>
      refine .cons_cons (by simp [joining clause (by simp)]) ?_
      exact ih fun other among => joining other (by simp [among])

/-- Entries that do not open a segment stand in the one before them, by induction on the entries
that are still to come.
-/
theorem map_together_segments (first : Clause) (inside rest : List Clause)
    (joining : ∀ clause ∈ inside, clause.opens = false)
    : (segments (first :: inside ++ rest)).map together
      = onward (together (first :: inside)) rest := by
  induction rest generalizing first inside with
  | nil => simp [segments_of_joining joining, onward]
  | cons clause rest ih =>
      cases opens : clause.opens with
      -- the segment is complete, and the next one begins with this entry alone
      | true =>
          have cut : segments (first :: inside ++ clause :: rest)
              = segments (first :: inside) ++ segments (clause :: rest) :=
            List.splitBy_append_cons rest (by simp [opens])
          have next := ih clause [] (by simp)
          rw [List.singleton_append, together_singleton] at next
          rw [cut, segments_of_joining joining]
          simp [onward, opens, next]
      | false =>
          have next := ih first (inside ++ [clause]) fun other among => by
            rcases List.mem_append.mp among with among | among
            · exact joining other among
            · rw [List.mem_singleton.mp among, opens]
          rw [← List.cons_append, together_concat] at next
          simpa [onward, opens] using next

/-- The segments of an object are those that follow when nothing is said at first. -/
theorem oneOf_choices (clauses : List Clause)
    : Saying.oneOf (choices clauses)
      = Saying.oneOf (onward .nothing clauses ++ (clauses.filter beside).map saying) := by
  cases clauses with
  | nil => simp [choices, segments, onward, Saying.oneOf, Saying.nothing]
  | cons clause rest =>
      have cut := map_together_segments clause [] rest (by simp)
      rw [List.singleton_append, together_singleton] at cut
      rw [choices, cut]
      cases opens : clause.opens with
      | true =>
          simp only [onward, opens, if_true]
          exact Saying.oneOf_congr rfl rfl
      | false => simp [onward, opens]

end Clause

namespace Query

mutual

/-- The clauses of an object under an assignment of truth values to its rules. -/
def clauses (satisfied : String → Value → Bool) : List (String × Value) → List Clause
  | [] => []
  | (key, value) :: rest =>
      let entry := EntryKey.ofText key
      let clause : Clause :=
        match entry.body with
        | .group name =>
            ⟨saidBy satisfied value, entry.opensAlternative, GroupKind.ofName? name = some .any⟩
        | .rule _ => ⟨⟨true, satisfied key value⟩, entry.opensAlternative, false⟩
      clause :: clauses satisfied rest

/-- What an object says: one of its choices. -/
def saidBy (satisfied : String → Value → Bool) : Value → Saying
  | .object entries => .oneOf (Clause.choices (clauses satisfied entries))
  | _ => .nothing

end

/-- The query is true under an assignment of truth values to its rules. -/
def isTrue (satisfied : String → Value → Bool) (query : Query) : Bool :=
  (saidBy satisfied query.toValue).isTrue

end Query

end FederatedQuery
