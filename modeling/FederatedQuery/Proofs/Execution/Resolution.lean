import FederatedQuery.Execution
import FederatedQuery.Proofs.Computation
import FederatedQuery.Proofs.Grouping
import FederatedQuery.Proofs.Plan.WellFormed
import FederatedQuery.Proofs.RuleTree.Operands
import FederatedQuery.Proofs.Table

/-! How parameter rows see a part. References to parts that have run are replaced by the values
found for the row, and rows that see the same values see the same part, so that they can share a
call.
-/

namespace FederatedQuery.Execution

/-- The places of all elements of a list give the list. -/
theorem filterMap_getElem?_range {α : Type} (xs : List α)
    : (List.range xs.length).filterMap (fun place => xs[place]?) = xs := by
  have each : (List.range xs.length).map (fun place => xs[place]?) = xs.map some :=
    List.ext_getElem (by simp) fun place below _ => by simp
  calc (List.range xs.length).filterMap (fun place => xs[place]?)
      = ((List.range xs.length).map fun place => xs[place]?).filterMap id := by
        rw [List.filterMap_map]
        rfl
    _ = xs := by rw [each]; simp

/-- The part as a parameter row sees it. -/
def resolvedAt (part : Part) (outputs : Outputs) (place : Nat) : ResolvedPart where
  place := place
  part := { part with tree := part.tree.mapOperands (resolveOperand outputs place) }
  values := part.tree.operands.filterMap (operandValues? outputs place)

/-- Every part to which the part refers has an output for the parameter row. -/
def Available (part : Part) (outputs : Outputs) (place : Nat) : Prop :=
  ∀ id field, Operand.part id field ∈ part.tree.operands
    → (outputs.values? place id field).isSome

variable {part : Part} {outputs : Outputs}

theorem resolvePart_eq_ok {place : Nat} (available : Available part outputs place)
    : resolvePart part outputs place = .ok (resolvedAt part outputs place) := by
  have complete : part.tree.operands.filterMap (missing? outputs place) = [] := by
    rw [List.filterMap_eq_nil_iff]
    intro operand read
    cases operand with
    | part id field =>
        have found := Option.isSome_iff_ne_none.mp (available id field read)
        simp [missing?, found]
    | literal | param | template | values => rfl
  simp only [resolvePart, complete, List.getLast?_nil]
  rfl

theorem resolveAll_eq_ok {count : Nat} (available : ∀ place < count, Available part outputs place)
    : resolveAll part outputs count
      = .ok ((List.range count).map (resolvedAt part outputs)) :=
  mapM_eq_ok fun place inside =>
    resolvePart_eq_ok (available place (List.mem_range.mp inside))

/-- Rows that see the same values see the same for each reference: there is one list of values for
each of them.
-/
theorem values_eq_iff {first second : Nat} (firstAvailable : Available part outputs first)
    (secondAvailable : Available part outputs second)
    : (resolvedAt part outputs first).values = (resolvedAt part outputs second).values
      ↔ ∀ id field,
          Operand.part id field ∈ part.tree.operands
          → outputs.values? first id field = outputs.values? second id field := by
  constructor
  · intro same id field read
    have defined : ∀ operand ∈ part.tree.operands,
        (operandValues? outputs first operand).isSome
        = (operandValues? outputs second operand).isSome := by
      intro operand read
      cases operand with
      | part id field =>
          exact (firstAvailable id field read).trans (secondAvailable id field read).symm
      | literal | param | template | values => rfl
    exact eq_of_filterMap_eq defined same (.part id field) read
  · intro agree
    refine List.filterMap_congr fun operand read => ?_
    cases operand with
    | part id field => exact agree id field read
    | literal | param | template | values => rfl

/-- Rows that see the same values see the same part. -/
theorem part_resolvedAt_congr {first second : Nat} (firstAvailable : Available part outputs first)
    (secondAvailable : Available part outputs second)
    (same : (resolvedAt part outputs first).values = (resolvedAt part outputs second).values)
    : (resolvedAt part outputs first).part = (resolvedAt part outputs second).part := by
  have trees : part.tree.mapOperands (resolveOperand outputs first)
      = part.tree.mapOperands (resolveOperand outputs second) := by
    refine RuleTree.mapOperands_congr part.tree fun operand read => ?_
    cases operand with
    | part id field =>
        have agree := (values_eq_iff firstAvailable secondAvailable).mp same id field read
        simp only [resolveOperand, agree]
    | literal | param | template | values => rfl
  simp only [resolvedAt, trees]

/-- A part that does not depend on others is seen as it is. -/
theorem resolvedAt_of_dependsOn_eq_nil {ρ : Type} {catalog : Catalog ρ} {tree : RuleTree}
    {plan : Plan} (wellFormed : plan.WellFormed catalog tree) (inside : part ∈ plan.parts)
    (none : part.dependsOn = []) (place : Nat)
    : (resolvedAt part outputs place).part = part := by
  have fixed : part.tree.mapOperands (resolveOperand outputs place) = part.tree := by
    refine RuleTree.mapOperands_eq_self part.tree fun operand read => ?_
    cases operand with
    | part id field =>
        have depends := (wellFormed.mem_dependsOn_iff inside id).mpr ⟨field, read⟩
        rw [none] at depends
        cases depends
    | literal | param | template | values => rfl
  simp only [resolvedAt, fixed]

-----------------------------------------------------------------------------------------
-- The groups of a part
-----------------------------------------------------------------------------------------

/-- The rows that see the same values as a row. -/
def placesLike (part : Part) (outputs : Outputs) (count founder : Nat) : List Nat :=
  (List.range count).filter fun place =>
    (resolvedAt part outputs place).values = (resolvedAt part outputs founder).values

theorem mem_placesLike {count founder place : Nat}
    : place ∈ placesLike part outputs count founder
      ↔ place < count
        ∧ (resolvedAt part outputs place).values = (resolvedAt part outputs founder).values := by
  simp [placesLike]

theorem places_filter (count founder : Nat)
    : (((List.range count).map (resolvedAt part outputs)).filter fun other =>
          other.values = (resolvedAt part outputs founder).values).map ResolvedPart.place
      = placesLike part outputs count founder := by
  rw [List.filter_map, List.map_map]
  simp [placesLike, Function.comp_def, resolvedAt]

/-- A group is of the rows that see the same values as one of them, with the part as that row sees
it.
-/
theorem exists_founder_of_mem_groupsOf {count : Nat} {group : Part × List Nat}
    (inside : group ∈ groupsOf ((List.range count).map (resolvedAt part outputs)))
    : ∃ founder < count,
        group
        = ((resolvedAt part outputs founder).part, placesLike part outputs count founder) := by
  obtain ⟨⟨values, members⟩, known, headed⟩ := List.mem_filterMap.mp inside
  obtain ⟨-, rfl⟩ := (mem_classes_iff ..).mp known
  obtain ⟨first, head, rfl⟩ := Option.map_eq_some_iff.mp headed
  obtain ⟨among, same⟩ := List.mem_filter.mp (List.mem_of_mem_head? head)
  obtain ⟨founder, below, rfl⟩ := List.mem_map.mp among
  obtain rfl := of_decide_eq_true same
  exact ⟨founder, List.mem_range.mp below, by rw [places_filter]⟩

theorem id_of_mem_groupsOf {count : Nat} {group : Part × List Nat}
    (inside : group ∈ groupsOf ((List.range count).map (resolvedAt part outputs)))
    : group.1.id = part.id := by
  obtain ⟨founder, -, rfl⟩ := exists_founder_of_mem_groupsOf inside
  rfl

/-- Every row founds a group of the rows that see the same values. -/
theorem exists_group_placesLike (part : Part) (outputs : Outputs) {count founder : Nat}
    (below : founder < count)
    : ∃ group ∈ groupsOf ((List.range count).map (resolvedAt part outputs)),
        group.2 = placesLike part outputs count founder := by
  let resolved := (List.range count).map (resolvedAt part outputs)
  let members := resolved.filter fun other =>
    other.values = (resolvedAt part outputs founder).values
  have here : resolvedAt part outputs founder ∈ resolved :=
    List.mem_map_of_mem (List.mem_range.mpr below)
  have among : resolvedAt part outputs founder ∈ members := List.mem_filter.mpr ⟨here, by simp⟩
  have known : ((resolvedAt part outputs founder).values, members)
      ∈ classes ResolvedPart.values resolved :=
    (mem_classes_iff ..).mpr ⟨⟨_, here, rfl⟩, rfl⟩
  obtain ⟨first, head⟩ := Option.isSome_iff_exists.mp
    (List.isSome_head?.mpr (List.ne_nil_of_mem among))
  refine ⟨(first.part, members.map ResolvedPart.place), ?_, places_filter count founder⟩
  exact List.mem_filterMap.mpr ⟨_, known, by simp [head]⟩

/-- A group is not empty, and each of its rows sees the part of the group. -/
theorem part_of_mem_groupsOf {count : Nat}
    (available : ∀ place < count, Available part outputs place) {group : Part × List Nat}
    (inside : group ∈ groupsOf ((List.range count).map (resolvedAt part outputs)))
    : group.2 ≠ []
      ∧ ∀ place ∈ group.2,
          place < count ∧ group.1 = (resolvedAt part outputs place).part := by
  obtain ⟨founder, below, rfl⟩ := exists_founder_of_mem_groupsOf inside
  refine ⟨List.ne_nil_of_mem (mem_placesLike.mpr ⟨below, rfl⟩), fun place of => ?_⟩
  obtain ⟨placeBelow, same⟩ := mem_placesLike.mp of
  exact ⟨placeBelow, part_resolvedAt_congr (available founder below) (available place placeBelow)
    same.symm⟩

theorem exists_mem_groupsOf (part : Part) (outputs : Outputs) {count place : Nat}
    (below : place < count)
    : ∃ group ∈ groupsOf ((List.range count).map (resolvedAt part outputs)),
        place ∈ group.2 := by
  obtain ⟨group, inside, places⟩ := exists_group_placesLike part outputs below
  exact ⟨group, inside, places ▸ mem_placesLike.mpr ⟨below, rfl⟩⟩

/-- Two rows are in a group together when they see the same values. -/
theorem exists_group_both_iff {count first second : Nat} (firstBelow : first < count)
    (secondBelow : second < count)
    : (∃ group ∈ groupsOf ((List.range count).map (resolvedAt part outputs)),
          first ∈ group.2 ∧ second ∈ group.2)
      ↔ (resolvedAt part outputs first).values = (resolvedAt part outputs second).values := by
  constructor
  · rintro ⟨group, inside, firstIn, secondIn⟩
    obtain ⟨founder, -, rfl⟩ := exists_founder_of_mem_groupsOf inside
    exact (mem_placesLike.mp firstIn).2.trans (mem_placesLike.mp secondIn).2.symm
  · intro same
    obtain ⟨group, inside, places⟩ := exists_group_placesLike part outputs firstBelow
    refine ⟨group, inside, ?_, ?_⟩
    · exact places ▸ mem_placesLike.mpr ⟨firstBelow, rfl⟩
    · exact places ▸ mem_placesLike.mpr ⟨secondBelow, same.symm⟩

/-- Parameter rows that all see the same values form a single group. -/
theorem groupsOf_of_same {count : Nat} (positive : 0 < count)
    (same
      : ∀ place < count,
          (resolvedAt part outputs place).values = (resolvedAt part outputs 0).values)
    : groupsOf ((List.range count).map (resolvedAt part outputs))
      = [((resolvedAt part outputs 0).part, List.range count)] := by
  obtain ⟨more, rfl⟩ : ∃ more, count = more + 1 := ⟨count - 1, by omega⟩
  let resolved := (List.range (more + 1)).map (resolvedAt part outputs)
  have first : resolved.head? = some (resolvedAt part outputs 0) := by
    simp [resolved, List.range_succ_eq_map]
  have places : resolved.map ResolvedPart.place = List.range (more + 1) := by
    simp [resolved, Function.comp_def, resolvedAt]
  have single : classes ResolvedPart.values resolved
      = [((resolvedAt part outputs 0).values, resolved)] := by
    refine classes_of_same (by simp [resolved]) fun other inside => ?_
    obtain ⟨place, below, rfl⟩ := List.mem_map.mp inside
    exact same place (List.mem_range.mp below)
  rw [groupsOf, single]
  simp [first, places]

/-- The groups hold the places of all rows, each once. -/
theorem places_groupsOf_perm (resolved : List ResolvedPart)
    : ((groupsOf resolved).flatMap Prod.snd).Perm (resolved.map ResolvedPart.place) := by
  have gathered (found : List (List (List Value) × List ResolvedPart))
      : (found.filterMap fun entry =>
            entry.2.head?.map fun first => (first.part, entry.2.map ResolvedPart.place)).flatMap
          Prod.snd
        = (found.flatMap Prod.snd).map ResolvedPart.place := by
    induction found with
    | nil => rfl
    | cons entry rest ih =>
        obtain ⟨values, members⟩ := entry
        cases members with
        | nil => simpa using ih
        | cons first others => simpa using ih
  have places : (groupsOf resolved).flatMap Prod.snd
      = ((classes ResolvedPart.values resolved).flatMap Prod.snd).map ResolvedPart.place :=
    gathered _
  rw [places]
  exact (classes_perm ResolvedPart.values resolved).map ResolvedPart.place

/-- Among the row sets of all groups, every row finds its own. -/
theorem get?_flatMap_groupsOf {count : Nat} (sets : Nat → RowSet) {place : Nat}
    (below : place < count)
    : Table.get?
        ((groupsOf ((List.range count).map (resolvedAt part outputs))).flatMap fun group =>
          group.2.map fun place => (place, sets place))
        place
      = some (sets place) := by
  refine Table.get?_of_forall (fun entry inside => ?_) ?_
  · obtain ⟨group, -, among⟩ := List.mem_flatMap.mp inside
    obtain ⟨other, -, rfl⟩ := List.mem_map.mp among
    rfl
  · obtain ⟨group, inside, among⟩ := exists_mem_groupsOf part outputs below
    refine List.mem_map.mpr ⟨(place, sets place), ?_, rfl⟩
    exact List.mem_flatMap.mpr ⟨group, inside, List.mem_map_of_mem among⟩

-----------------------------------------------------------------------------------------
-- The ways in which a part and a plan are run
-----------------------------------------------------------------------------------------

section

variable {ρ : Type} {respond : Respond ρ} {coalesce : Bool} {request : Request}
  {registration : Registration ρ}

/-- A part that does not depend on others is run as it is, for all parameter rows. -/
theorem runPart_of_independent (independent : part.dependsOn = [])
    : runPart respond coalesce request part registration outputs
      = runRows respond coalesce request part registration
          (List.range request.params.length) := by
  simp only [runPart, independent, List.isEmpty_nil, ↓reduceIte]

section plan

variable {catalog : Catalog ρ} {plan : Plan}

/-- A plan that reads parameter rows is not run without any. -/
theorem runPlan_of_missing (reads : plan.readsParams = true) (none : request.params = [])
    (progress : Progress ρ)
    : (runPlan catalog respond coalesce plan request).run.run progress
      = (.error (.structural (.missingParams plan.bucket)), progress) := by
  simp only [runPlan, reads, none, List.isEmpty_nil, Bool.and_self, ↓reduceIte]
  rfl

/-- Any other plan has its parts run. -/
theorem runPlan_of_given (given : plan.readsParams = true → request.params ≠ [])
    : runPlan catalog respond coalesce plan request
      = (do
          let outputs ← runParts catalog respond coalesce plan request plan.order []
          match Table.get? outputs 0 with
          | some sets => return sets
          | none => throw (.unresolvedScope 0 plan.bucket "root part produced no output")) := by
  have enough : ¬(plan.readsParams && request.params.isEmpty) = true := by
    rw [Bool.and_eq_true, List.isEmpty_iff]
    exact fun missing => given missing.1 missing.2
  exact if_neg enough

end plan

variable (dependent : part.dependsOn ≠ [])
  (available : ∀ place < max 1 request.params.length, Available part outputs place)

include dependent available

/-- Without parameter rows, a part that depends on others is run once, as it is seen then. -/
theorem runPart_of_nil (none : request.params = [])
    : runPart respond coalesce request part registration outputs
      = runRows respond coalesce request (resolvedAt part outputs 0).part registration [] := by
  simp only [runPart, List.isEmpty_eq_false_iff.mpr dependent, Bool.false_eq_true, ↓reduceIte,
    resolveAll_eq_ok available]
  simp only [none, List.length_nil, Nat.max_zero, List.isEmpty_nil, ↓reduceIte]
  rfl

/-- A part that depends on others is run for the groups of parameter rows that see the same, and
every row takes its set from those of all groups.
-/
theorem runPart_of_ne_nil (some : request.params ≠ [])
    : runPart respond coalesce request part registration outputs
      = (do
          let sets ← runGroups respond coalesce request registration
            (groupsOf ((List.range request.params.length).map (resolvedAt part outputs)))
          return (List.range request.params.length).map fun place =>
            (Table.get? sets place).getD RowSet.empty) := by
  have most : max 1 request.params.length = request.params.length :=
    Nat.max_eq_right (List.length_pos_iff.mpr some)
  have seen := resolveAll_eq_ok available
  rw [most] at seen
  simp only [runPart, List.isEmpty_eq_false_iff.mpr dependent, List.isEmpty_eq_false_iff.mpr some,
    Bool.false_eq_true, ↓reduceIte, most, seen]
  rfl

end

end FederatedQuery.Execution
