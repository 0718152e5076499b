import FederatedQuery.Proofs.Plan.WellFormed

/-! Limits let a query through as it is or stop it. Reading counts how deep sub-queries are nested
and splitting counts parts, and each stops before the first thing that would be one too many; neither
makes any other use of its limit.
-/

namespace FederatedQuery

-----------------------------------------------------------------------------------------
-- Computations that limits may stop
-----------------------------------------------------------------------------------------

/-- Where the free computation ends in a value, the limited one ends in it too if the value is within
the limits, and in an error of the kind that says that a limit is exceeded if it is not.
-/
def Limited {α : Type} (message : String) (within : α → Prop)
    (free limited : Except StructuralError α)
    : Prop :=
  ∀ value,
    free = .ok value
    → (within value → limited = .ok value)
      ∧ (¬within value
        → ∃ error,
            limited = .error error
            ∧ error.kind = .limitExceeded
            ∧ error.message = message)

namespace Limited

variable {α β : Type} {message : String} {within : α → Prop}

/-- What ends within the limits is not stopped by them. -/
theorem refl (result : Except StructuralError α)
    (inside : ∀ value, result = .ok value → within value)
    : Limited message within result result :=
  fun value ends => ⟨fun _ => ends, fun beyond => absurd (inside value ends) beyond⟩

theorem ok {value : α} (inside : within value) : Limited message within (.ok value) (.ok value) :=
  refl _ fun _ made => by
    cases made
    exact inside

/-- What uses no limits is not stopped by them. -/
theorem unlimited (result : Except StructuralError α)
    : Limited message (fun _ => True) result result :=
  refl result fun _ _ => trivial

theorem of_error (error : StructuralError) (limited : Except StructuralError α)
    : Limited message within (.error error) limited :=
  nofun

theorem congr {free limited : Except StructuralError α} {within' : α → Prop}
    (first : Limited message within free limited)
    (same : ∀ value, free = .ok value → (within value ↔ within' value))
    : Limited message within' free limited := by
  intro value ends
  obtain ⟨passes, stops⟩ := first value ends
  rw [same value ends] at passes stops
  exact ⟨passes, stops⟩

/-- Two steps are stopped in the first or, if that is within the limits, in the second. -/
theorem bind {free limited : Except StructuralError α}
    {next next' : α → Except StructuralError β} {within' : β → Prop}
    (first : Limited message within free limited)
    (second : ∀ value, within value → Limited message within' (next value) (next' value))
    (narrows
      : ∀ value result, next value = .ok result → within' result → within value)
    : Limited message within' (free >>= next) (limited >>= next') := by
  intro result ends
  obtain ⟨value, made, makes⟩ := bind_eq_ok_iff.mp ends
  obtain ⟨passes, stops⟩ := first value made
  by_cases inside : within value
  · rw [passes inside]
    exact second value inside result makes
  · obtain ⟨error, stopped, exceeded⟩ := stops inside
    refine ⟨fun inside' => absurd (narrows value result makes inside') inside, fun _ => ?_⟩
    exact ⟨error, by rw [stopped]; rfl, exceeded⟩

/-- A step that only makes something of a value is not what is stopped. -/
theorem map {free limited : Except StructuralError α} {within' : β → Prop} {f : α → β}
    (first : Limited message within free limited)
    (same : ∀ value, within' (f value) ↔ within value)
    : Limited message within' (free >>= fun value => .ok (f value))
        (limited >>= fun value => .ok (f value)) := by
  refine first.bind (fun value inside => ok ((same value).mpr inside))
    fun value result makes inside => ?_
  cases makes
  exact (same value).mp inside

end Limited

-----------------------------------------------------------------------------------------
-- Nesting
-----------------------------------------------------------------------------------------

namespace Query

mutual

/-- How deep sub-queries are nested in the entries. Groups do not count. -/
def nestingOf : List (String × Value) → Nat
  | [] => 0
  | (key, value) :: rest =>
      match (EntryKey.ofText key).body with
      | .group _ => max (nestingInside value) (nestingOf rest)
      | .rule _ => max (nestingBelow value) (nestingOf rest)

/-- How deep sub-queries are nested in an object. -/
def nestingInside : Value → Nat
  | .object entries => nestingOf entries
  | _ => 0

/-- How deep sub-queries are nested in a rule's value, which may be a sub-query itself. -/
def nestingBelow : Value → Nat
  | .object [(marker, inner)] =>
      if marker.toList.head? = some '@' then nestingInside inner + 1 else 0
  | _ => 0

end

/-- How deep sub-queries are nested in the query. -/
def nesting (query : Query) : Nat := nestingOf query.entries

end Query

namespace RuleTree

open Query

variable {ρ : Type} (catalog : Catalog ρ) (free limits : Limits)

/-- The message for a sub-query that is nested too deep. -/
def tooDeep : String := "sub-query depth exceeds " ++ Nat.repr limits.maxDepth

/-- The depth is the first thing that is tried of a target, and the only one that limits bear on. -/
theorem limited_subQueryTarget (key : String) (target : List Char) (depth : Nat)
    : Limited (tooDeep limits) (fun _ => depth + 1 ≤ limits.maxDepth)
        (subQueryTarget catalog free key target depth)
        (subQueryTarget catalog limits key target depth) := by
  intro named ends
  simp only [subQueryTarget] at ends ⊢
  split at ends
  · split at ends
    · cases ends
    · constructor
      · intro shallow
        rw [if_neg (by omega)]
        exact ends
      · intro deep
        rw [if_pos (by omega)]
        exact ⟨_, rfl, rfl, rfl⟩
  · cases ends

mutual

/-- Entries are read under a limit as without it, unless a sub-query among them is nested deeper.
By induction on the query.
-/
theorem limited_readEntries {depth : Nat} (shallow : depth ≤ limits.maxDepth)
    (bucket : BucketDef) (entries : List (String × Value)) (draft : Draft)
    : Limited (tooDeep limits) (fun _ => depth + nestingOf entries ≤ limits.maxDepth)
        (readEntries catalog free bucket depth entries draft)
        (readEntries catalog limits bucket depth entries draft) := by
  match entries with
  | [] =>
      simp only [readEntries, nestingOf]
      exact .refl _ fun _ _ => shallow
  | (key, value) :: rest =>
      simp only [readEntries, nestingOf]
      have others (draft : Draft) := limited_readEntries shallow bucket rest draft
      cases (EntryKey.ofText key).body with
      | group name =>
          simp only
          cases GroupKind.ofName? name with
          | none => exact .of_error _ _
          | some kind =>
              refine (limited_readGroup shallow bucket key value).bind
                (fun alternatives inside => ?_) fun _ _ _ within => by omega
              exact (others _).congr fun _ _ => by omega
      | rule text =>
          simp only
          refine (Limited.unlimited _).bind (fun test _ => ?_) fun _ _ _ _ => trivial
          refine (limited_readMember shallow key test value).bind (fun member inside => ?_)
            fun _ _ _ within => by omega
          exact (others _).congr fun _ _ => by omega
termination_by sizeOf entries

theorem limited_readGroup {depth : Nat} (shallow : depth ≤ limits.maxDepth)
    (bucket : BucketDef) (key : String) (value : Value)
    : Limited (tooDeep limits) (fun _ => depth + nestingInside value ≤ limits.maxDepth)
        (readGroup catalog free bucket depth key value)
        (readGroup catalog limits bucket depth key value) := by
  match value with
  | .object entries =>
      simp only [readGroup, nestingInside]
      exact (limited_readEntries shallow bucket entries .start).map fun _ => Iff.rfl
  | .null | .bool _ | .number _ | .string _ | .array _ =>
      simp only [readGroup]
      exact .of_error _ _
termination_by sizeOf value

/-- A sub-query is one level deeper than the query around it, and every other value is read without
regard to limits.
-/
theorem limited_readMember {depth : Nat} (shallow : depth ≤ limits.maxDepth) (key : String)
    (test : Test) (value : Value)
    : Limited (tooDeep limits) (fun _ => depth + nestingBelow value ≤ limits.maxDepth)
        (readMember catalog free depth key test value)
        (readMember catalog limits depth key test value) := by
  have plain (result : Except StructuralError Member) (unasked : nestingBelow value = 0)
      : Limited (tooDeep limits) (fun _ => depth + nestingBelow value ≤ limits.maxDepth) result
          result :=
    .refl result fun _ _ => by simpa [unasked] using shallow
  match value with
  | .object [(marker, inner)] =>
      simp only [readMember]
      split
      · next dot => exact plain _ (by simp [nestingBelow, dot])
      · next dollar => exact plain _ (by simp [nestingBelow, dollar])
      · next target marked =>
        have below : nestingBelow (.object [(marker, inner)]) = nestingInside inner + 1 := by
          simp [nestingBelow, marked]
        rw [below]
        refine (limited_subQueryTarget catalog free limits key target depth).bind
          (fun named deeper => ?_) fun _ _ _ within => by omega
        exact (limited_readSubQuery deeper key test named.1 named.2 inner).congr
          fun _ _ => by omega
      · next unmarked =>
        refine plain _ (if_neg fun marked => ?_)
        obtain ⟨target, found⟩ := List.head?_eq_some_iff.mp marked
        exact unmarked target found
  | .object [] | .object (_ :: _ :: _) | .null | .bool _ | .number _ | .string _ | .array _ =>
      simp only [readMember]
      exact plain _ (by simp [nestingBelow])
termination_by sizeOf value

theorem limited_readSubQuery {depth : Nat} (deeper : depth + 1 ≤ limits.maxDepth)
    (key : String) (test : Test) (bucket : BucketDef) (field : String) (value : Value)
    : Limited (tooDeep limits) (fun _ => depth + 1 + nestingInside value ≤ limits.maxDepth)
        (readSubQuery catalog free depth key test bucket field value)
        (readSubQuery catalog limits depth key test bucket field value) := by
  match value with
  | .object entries =>
      simp only [readSubQuery, nestingInside]
      exact (limited_readEntries deeper bucket entries .start).map fun _ => Iff.rfl
  | .null | .bool _ | .number _ | .string _ | .array _ =>
      simp only [readSubQuery]
      exact .of_error _ _
termination_by sizeOf value

end

/-- A query is read under limits as without them, unless its sub-queries are nested too deep. -/
theorem limited_ofQuery (bucket : String) (query : Query)
    : Limited (tooDeep limits) (fun _ => query.nesting ≤ limits.maxDepth)
        (ofQuery catalog free bucket query) (ofQuery catalog limits bucket query) := by
  refine (Limited.unlimited _).bind (fun bucketDef _ => ?_) fun _ _ _ _ => trivial
  refine (limited_readEntries catalog free limits (Nat.zero_le _) bucketDef query.entries
    .start).map fun _ => ?_
  rw [Query.nesting, Nat.zero_add]

-----------------------------------------------------------------------------------------
-- Splitting
-----------------------------------------------------------------------------------------

/-- The message for a part that is one too many. -/
def tooMany : String := "query needs more than " ++ Nat.repr limits.maxParts ++ " parts"

theorem limited_checkId (id : Nat)
    : Limited (tooMany limits) (fun _ => id < limits.maxParts) (checkId free id)
        (checkId limits id) := by
  rintro ⟨⟩ -
  simp only [checkId]
  constructor
  · intro below
    rw [if_neg (Nat.not_le.mpr below)]
  · intro beyond
    rw [if_pos (Nat.not_lt.mp beyond)]
    exact ⟨_, rfl, rfl, rfl⟩

/-- Two pieces one after the other are split under a limit, each with the ids that are left to it. -/
theorem limited_combine {α β γ : Type} {f : α → β → γ} {next : Nat}
    {first first' : Except StructuralError (Split α)}
    {second second' : Nat → Except StructuralError (Split β)}
    (head : Limited (tooMany limits) (fun split => next + split.parts.length ≤ limits.maxParts)
      first first')
    (tail
      : ∀ next,
          next ≤ limits.maxParts
          → Limited (tooMany limits)
              (fun split => next + split.parts.length ≤ limits.maxParts)
              (second next) (second' next))
    : Limited (tooMany limits) (fun split => next + split.parts.length ≤ limits.maxParts)
        (do
          let first ← first
          let second ← second (next + first.parts.length)
          return first.combine f second)
        (do
          let first ← first'
          let second ← second' (next + first.parts.length)
          return first.combine f second) := by
  have counted (first : Split α) (second : Split β)
      : (first.combine f second).parts.length = first.parts.length + second.parts.length :=
    List.length_append
  refine head.bind (fun first room => ?_) fun first whole made within => ?_
  · refine (tail _ room).map fun second => ?_
    rw [counted, Nat.add_assoc]
  · obtain ⟨second, -, joined⟩ := bind_eq_ok_iff.mp made
    rw [← Except.ok.inj joined, counted] at within
    omega

mutual

/-- A tree is split under a limit as without it, unless it has more parts than there are ids left.
By induction on the tree: each piece leaves the ids after its own to the next.
-/
theorem limited_partsOf (next : Nat) (tree : RuleTree)
    : Limited (tooMany limits) (fun parts => next + parts.length ≤ limits.maxParts)
        (tree.partsOf catalog free next) (tree.partsOf catalog limits next) := by
  match tree with
  | .anyOf bucket known alternatives =>
      simp only [partsOf]
      refine (limited_checkId free limits next).bind (fun _ below => ?_)
        fun _ parts divided within => ?_
      · refine (Limited.unlimited _).bind (fun scope _ => ?_) fun _ _ _ _ => trivial
        refine (limited_splitAlternatives below scope alternatives).map fun split => ?_
        rw [List.length_cons]
        omega
      · simp only [bind_eq_ok_iff] at divided
        obtain ⟨scope, -, split, -, whole⟩ := divided
        rw [← Except.ok.inj whole, List.length_cons] at within
        omega
termination_by sizeOf tree

theorem limited_splitAlternatives {next : Nat} (room : next ≤ limits.maxParts) (scope : String)
    (alternatives : List Alternative)
    : Limited (tooMany limits) (fun split => next + split.parts.length ≤ limits.maxParts)
        (splitAlternatives catalog free scope next alternatives)
        (splitAlternatives catalog limits scope next alternatives) := by
  match alternatives with
  | [] =>
      simp only [splitAlternatives]
      exact .ok room
  | first :: rest =>
      simp only [splitAlternatives]
      exact limited_combine limits (limited_splitMembers room scope first) fun next left =>
        limited_splitAlternatives left scope rest
termination_by sizeOf alternatives

theorem limited_splitMembers {next : Nat} (room : next ≤ limits.maxParts) (scope : String)
    (members : List Member)
    : Limited (tooMany limits) (fun split => next + split.parts.length ≤ limits.maxParts)
        (splitMembers catalog free scope next members)
        (splitMembers catalog limits scope next members) := by
  match members with
  | [] =>
      simp only [splitMembers]
      exact .ok room
  | first :: rest =>
      simp only [splitMembers]
      exact limited_combine limits (limited_splitMember room scope first) fun next left =>
        limited_splitMembers left scope rest
termination_by sizeOf members

theorem limited_splitMember {next : Nat} (room : next ≤ limits.maxParts) (scope : String)
    (member : Member)
    : Limited (tooMany limits) (fun split => next + split.parts.length ≤ limits.maxParts)
        (splitMember catalog free scope next member)
        (splitMember catalog limits scope next member) := by
  match member with
  | .rule test operand =>
      simp only [splitMember]
      exact .ok room
  | .group (.anyOf bucket known alternatives) =>
      simp only [splitMember]
      exact (limited_splitAlternatives room scope alternatives).map fun split => Iff.rfl
  | .subQuery test bucket field (.anyOf inner known alternatives) =>
      simp only [splitMember]
      refine (Limited.unlimited _).bind (fun target _ => ?_) fun _ _ _ _ => trivial
      split
      · exact (limited_splitAlternatives room scope alternatives).map fun split => Iff.rfl
      · exact (limited_partsOf next (.anyOf inner known alternatives)).map fun parts => Iff.rfl
termination_by sizeOf member

end

end RuleTree

-----------------------------------------------------------------------------------------
-- Compiling
-----------------------------------------------------------------------------------------

namespace Plan

open RuleTree

variable {ρ : Type}

/-- A tree has the same plan under limits as without them, unless that has too many parts: the order
of the parts depends on nothing else.
-/
theorem limited_ofTree (catalog : Catalog ρ) (free limits : Limits) (tree : RuleTree)
    : Limited (tooMany limits) (fun plan => plan.parts.length ≤ limits.maxParts)
        (ofTree catalog free tree) (ofTree catalog limits tree) := by
  refine (limited_partsOf catalog free limits 0 tree).bind (fun parts within => ?_)
    fun parts plan planned within => ?_
  · cases executionOrder? (parts.map Part.dependsOn) with
    | none => exact .of_error _ _
    | some order =>
        rw [Nat.zero_add] at within
        exact .ok within
  · cases found : executionOrder? (parts.map Part.dependsOn) with
    | none => simp [found] at planned
    | some order =>
        simp only [found] at planned
        cases planned
        rwa [Nat.zero_add]

/-- Limits accept a query or reject it, and change nothing else. One that compiles without limits
compiles to the same plan if its sub-queries are nested no deeper and its plan has no more parts than
the limits allow; otherwise a limit is exceeded, the one on the nesting if it is.
-/
theorem compile_limited {catalog : Catalog ρ} {bucket : String} {query : Query} {plan : Plan}
    (compiled : compile catalog Limits.unlimited bucket query = .ok plan) (limits : Limits)
    : (query.nesting ≤ limits.maxDepth ∧ plan.parts.length ≤ limits.maxParts
        → compile catalog limits bucket query = .ok plan)
      ∧ (¬(query.nesting ≤ limits.maxDepth ∧ plan.parts.length ≤ limits.maxParts)
        → ∃ error,
            compile catalog limits bucket query = .error error
            ∧ error.kind = .limitExceeded
            ∧ error.message
              = if query.nesting ≤ limits.maxDepth then tooMany limits else tooDeep limits) := by
  obtain ⟨tree, read, planned⟩ := bind_eq_ok_iff.mp compiled
  obtain ⟨reads, readingStops⟩ := limited_ofQuery catalog _ limits bucket query tree read
  obtain ⟨plans, planningStops⟩ := limited_ofTree catalog _ limits tree plan planned
  by_cases shallow : query.nesting ≤ limits.maxDepth
  · have same : compile catalog limits bucket query = ofTree catalog limits tree := by
      rw [compile, reads shallow]
      rfl
    simp only [same, shallow, true_and, if_true]
    exact ⟨plans, planningStops⟩
  · obtain ⟨error, stopped, exceeded⟩ := readingStops shallow
    simp only [shallow, false_and, if_false, not_false_eq_true, forall_const]
    exact ⟨False.elim, error, by rw [compile, stopped]; rfl, exceeded⟩

/-- A query with two levels of sub-queries, each inside a group. -/
def groupedSubQueries : Query :=
  ⟨[("#and", .object [("tint", .object [("@color.id", .object
      [("#or", .object [("maker", .object [("@maker.id", .object [])])])])])])]⟩

set_option maxRecDepth 100000 in
/-- The query compiles to three parts where three parts and two levels are allowed, and to nothing
where either is one less.
-/
theorem compile_limited_groupedSubQueries
    : ∃ plan,
        compile threeBuckets Limits.unlimited "shape" groupedSubQueries = .ok plan
        ∧ compile threeBuckets ⟨2, 3⟩ "shape" groupedSubQueries = .ok plan
        ∧ (∃ error,
            compile threeBuckets ⟨1, 3⟩ "shape" groupedSubQueries = .error error
            ∧ error.message = "sub-query depth exceeds 1")
        ∧ ∃ error,
            compile threeBuckets ⟨2, 2⟩ "shape" groupedSubQueries = .error error
            ∧ error.message = "query needs more than 2 parts" := by
  have counts : (compile threeBuckets Limits.unlimited "shape" groupedSubQueries).toOption.map
      (fun plan => plan.parts.length) = some 3 := by
    decide +kernel
  obtain ⟨plan, compiled, count⟩ := toOption_map_eq_some_iff.mp counts
  have nested : groupedSubQueries.nesting = 2 := by decide +kernel
  obtain ⟨error, stopped, -, message⟩ := (compile_limited compiled ⟨1, 3⟩).2 (by simp [nested])
  obtain ⟨error', stopped', -, message'⟩ := (compile_limited compiled ⟨2, 2⟩).2 (by simp [count])
  rw [nested] at message message'
  exact ⟨plan, compiled, (compile_limited compiled ⟨2, 3⟩).1 (by simp [nested, count]),
    ⟨error, stopped, message⟩, error', stopped', message'⟩

end Plan

end FederatedQuery
