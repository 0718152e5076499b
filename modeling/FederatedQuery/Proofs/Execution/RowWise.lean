import FederatedQuery.Proofs.Execution.Completion
import FederatedQuery.Proofs.Execution.Resolution

/-! Plans over runners that answer parameter rows one by one. Such a runner returns for a row what
it returns for that row alone, and then so does the whole plan: sharing calls between rows that see
the same values, and results between rows where a part reads none, mixes up nothing.
-/

namespace FederatedQuery

variable {ρ : Type}

/-- The operand with a reference to a part replaced by values. -/
def Operand.fillPart (values : Nat → String → List Value) : Operand → Operand
  | .part id field => .values (values id field)
  | operand => operand

/-- The part with its references to other parts replaced by values. -/
def Part.withValues (part : Part) (values : Nat → String → List Value) : Part :=
  { part with tree := part.tree.mapOperands (Operand.fillPart values) }

@[simp]
theorem Part.bucket_withValues (part : Part) (values : Nat → String → List Value)
    : (part.withValues values).bucket = part.bucket := by
  simp [withValues, bucket]

/-- What stands for other parts is not read from the parameter row. -/
@[simp]
theorem Part.readsParams_withValues (part : Part) (values : Nat → String → List Value)
    : (part.withValues values).readsParams = part.readsParams := by
  have same : Operand.readsParams ∘ Operand.fillPart values = Operand.readsParams := by
    funext operand
    cases operand <;> rfl
  simp [withValues, readsParams, RuleTree.readsParams, RuleTree.operands_mapOperands, same]

/-- References to parts do not stay when values stand for them. -/
theorem Part.part?_of_mem_withValues (part : Part) {values : Nat → String → List Value}
    {operand : Operand} (read : operand ∈ (part.withValues values).tree.operands)
    : operand.part? = none := by
  rw [Part.withValues, RuleTree.operands_mapOperands] at read
  obtain ⟨original, -, rfl⟩ := List.mem_map.mp read
  cases original <;> rfl

/-- A parameter row that has been found values for all references of a part sees the part with these
values.
-/
theorem Execution.part_resolvedAt_eq {part : Part} {outputs : Outputs} {place : Nat}
    {values : Nat → String → List Value}
    (found
      : ∀ id field,
          Operand.part id field ∈ part.tree.operands
          → outputs.values? place id field = some (values id field))
    : (resolvedAt part outputs place).part = part.withValues values := by
  simp only [resolvedAt, Part.withValues, Part.mk.injEq, and_true, true_and]
  refine RuleTree.mapOperands_congr part.tree fun operand read => ?_
  cases operand with
  | part id field => simp only [resolveOperand, found id field read, Operand.fillPart]
  | literal | param | template | values => rfl

/-- What a part of a plan comes to for a parameter row, or without any, if `set` is what a part
without references to others does: the values of the parts to which it refers are found first. These
are later parts. A part that does not read the row does not get it.
-/
def Plan.answer (plan : Plan) (set : Part → Option ParamRow → RowSet) (row : Option ParamRow)
    (id : Nat) : RowSet :=
  match plan.part? id with
  | none => RowSet.empty
  | some part =>
      let values (other : Nat) (field : String) : List Value :=
        if id < other ∧ other < plan.parts.length then
          distinctColumn (plan.answer set row other).rows field
        else []
      set (part.withValues values) (if part.readsParams then row else none)
termination_by plan.parts.length - id

/-- The values to which a part has come for a parameter row, or without any. -/
def Plan.values (plan : Plan) (set : Part → Option ParamRow → RowSet) (row : Option ParamRow)
    (id : Nat) (field : String) : List Value :=
  distinctColumn (plan.answer set row id).rows field

/-- A part of a compiled plan gets the values of the parts to which it refers. -/
theorem Plan.answer_eq {catalog : Catalog ρ} {tree : RuleTree} {plan : Plan}
    (wellFormed : plan.WellFormed catalog tree) {id : Nat} {part : Part}
    (here : plan.part? id = some part) (set : Part → Option ParamRow → RowSet)
    (row : Option ParamRow)
    : plan.answer set row id
      = set (part.withValues (plan.values set row)) (if part.readsParams then row else none) := by
  have inside : part ∈ plan.parts := List.mem_of_getElem? here
  rw [answer, here]
  refine congrArg (fun seen => set seen _) ?_
  simp only [Part.withValues, Part.mk.injEq, and_true, true_and]
  refine RuleTree.mapOperands_congr part.tree fun operand read => ?_
  cases operand with
  | part other field =>
      have depends := (wellFormed.mem_dependsOn_iff inside other).mpr ⟨field, read⟩
      have later := wellFormed.later part inside other depends
      rw [wellFormed.ids id part here] at later
      simp only [Operand.fillPart, values, later, and_self, ↓reduceIte]
  | literal | param | template | values => rfl

/-- The parameter rows for each of which the request wants a row set, or none if there are none. -/
def Request.slots (request : Request) : List (Option ParamRow) :=
  (List.range (max 1 request.params.length)).map fun place => request.params[place]?

theorem Request.mem_slots {request : Request} {place : Nat}
    (below : place < max 1 request.params.length)
    : request.params[place]? ∈ request.slots :=
  List.mem_map_of_mem (List.mem_range.mpr below)

theorem Request.length_slots {request : Request} (given : request.params ≠ [])
    : request.slots.length = request.params.length := by
  have some : 0 < request.params.length := List.length_pos_iff.mpr given
  simp only [slots, List.length_map, List.length_range]
  omega

theorem Request.getElem?_slots {request : Request} {place : Nat} {row : ParamRow}
    (here : request.params[place]? = some row)
    : request.slots[place]? = some (some row) := by
  have below : place < max 1 request.params.length := by
    have inside := (List.getElem?_eq_some_iff.mp here).1
    omega
  simp [slots, List.getElem?_range below, here]

/-- Every part of the plan is admitted for each parameter row, as the row sees it: with the values
to which the parts have come that it refers to.
-/
def Plan.Admits (plan : Plan) (set : Part → Option ParamRow → RowSet)
    (admits : Part → Option ParamRow → Prop) (request : Request) : Prop :=
  ∀ id part,
    plan.part? id = some part
    → ∀ row ∈ request.slots,
        admits (part.withValues (plan.values set row)) (if part.readsParams then row else none)

namespace Execution

/-- The runner returns for the part, called without parameter rows or with some that are admitted,
what it returns for each of the rows.
-/
structure RowWise (respond : Respond ρ) (coalesce : Bool) (request : Request)
    (registration : Registration ρ) (part : Part) (set : Option ParamRow → RowSet)
    (admits : Option ParamRow → Prop)
    : Prop where
  once
    : admits none → Completes (invoke respond coalesce request part registration []) [set none]
  each
    : ∀ rows,
        rows ≠ []
        → (∀ row ∈ rows, admits (some row))
        → Completes (invoke respond coalesce request part registration rows)
            (rows.map fun row => set (some row))

variable {respond : Respond ρ} {coalesce : Bool} {request : Request}
  {registration : Registration ρ} {part : Part}

theorem RowWise.runRows_nil {set : Option ParamRow → RowSet} {admits : Option ParamRow → Prop}
    (rowWise : RowWise respond coalesce request registration part set admits)
    (admitted : admits none) (none : request.params = []) (places : List Nat)
    : Completes (runRows respond coalesce request part registration places)
        [set .none] := by
  simp only [runRows, none, List.isEmpty_nil, ↓reduceIte]
  exact rowWise.once admitted

/-- A part is run for some parameter rows with one call for all of them, or with one for none if
it does not read them.
-/
theorem RowWise.runRows {set : Option ParamRow → RowSet} {admits : Option ParamRow → Prop}
    (rowWise : RowWise respond coalesce request registration part set admits) {places : List Nat}
    (some : places ≠ []) (below : ∀ place ∈ places, place < request.params.length)
    (admitted
      : ∀ place ∈ places, admits (if part.readsParams then request.params[place]? else none))
    : Completes (runRows respond coalesce request part registration places)
        (places.map fun place =>
          set (if part.readsParams then request.params[place]? else none)) := by
  obtain ⟨first, among⟩ := List.exists_mem_of_ne_nil places some
  have present : request.params.isEmpty = false := by
    cases params : request.params with
    | nil => simpa [params] using below first among
    | cons => rfl
  simp only [Execution.runRows, present, Bool.false_eq_true, ↓reduceIte]
  cases reads : part.readsParams with
  | true =>
      simp only [reads, ↓reduceIte] at admitted ⊢
      have rows : (places.filterMap fun place => request.params[place]?).map Option.some
          = places.map fun place => request.params[place]? := by
        rw [List.map_filterMap, ← List.filterMap_eq_map]
        exact List.filterMap_congr fun place inside => by
          simp [List.getElem?_eq_getElem (below place inside)]
      have given : (places.filterMap fun place => request.params[place]?) ≠ [] := by
        intro nothing
        rw [nothing] at rows
        exact some (List.map_eq_nil_iff.mp rows.symm)
      have sets : (places.filterMap fun place => request.params[place]?).map
            (fun row => set (Option.some row))
          = places.map fun place => set request.params[place]? := by
        have applied := congrArg (List.map set) rows
        rwa [List.map_map, List.map_map] at applied
      rw [← sets]
      refine rowWise.each _ given fun row inside => ?_
      obtain ⟨place, here, found⟩ := List.mem_filterMap.mp inside
      exact found ▸ admitted place here
  | false =>
      simp only [reads, Bool.false_eq_true, ↓reduceIte] at admitted ⊢
      rw [List.map_const']
      exact (rowWise.once (admitted first among)).bind (.pure _)

variable {catalog : Catalog ρ} {tree : RuleTree} {plan : Plan} {outputs : Outputs}
  {set : Part → Option ParamRow → RowSet} {admits : Part → Option ParamRow → Prop}

/-- The outputs are what the plan comes to for each parameter row. -/
def Answered (plan : Plan) (set : Part → Option ParamRow → RowSet) (request : Request)
    (outputs : Outputs) (done : List Nat)
    : Prop :=
  ∀ id ∈ done,
    Table.get? outputs id = some (request.slots.map fun row => plan.answer set row id)

theorem Answered.put {done : List Nat} (answered : Answered plan set request outputs done)
    (id : Nat)
    : Answered plan set request
        (Table.put outputs id (request.slots.map fun row => plan.answer set row id))
        (done ++ [id]) := by
  intro other inside
  by_cases same : other = id
  · simp [Table.get?_put, same]
  · have before : other ∈ done := by simpa [same] using inside
    simp only [Table.get?_put, same, ↓reduceIte, answered other before]

/-- A parameter row sees the values to which the parts have come for it. -/
theorem Answered.values?_eq {done : List Nat} (answered : Answered plan set request outputs done)
    {id : Nat} (inside : id ∈ done) {place : Nat} (below : place < max 1 request.params.length)
    (field : String)
    : outputs.values? place id field
      = some (plan.values set request.params[place]? id field) := by
  simp [Outputs.values?, Plan.values, answered id inside, Request.slots, List.getElem?_range below]

section parts

-- a part of a compiled plan that is about to run: all its dependencies have run
variable (wellFormed : plan.WellFormed catalog tree) {id : Nat} (here : plan.part? id = some part)
variable (answered : Answered plan set request outputs part.dependsOn)

include wellFormed here answered

theorem Answered.available
    : ∀ place < max 1 request.params.length, Available part outputs place := by
  intro place below other field read
  have depends := (wellFormed.mem_dependsOn_iff (List.mem_of_getElem? here) other).mpr ⟨field, read⟩
  exact Option.isSome_iff_exists.mpr ⟨_, answered.values?_eq depends below field⟩

/-- A part as a parameter row sees it has the values to which the parts have come for the row. -/
theorem Answered.resolvedAt_eq {place : Nat} (below : place < max 1 request.params.length)
    : (resolvedAt part outputs place).part
      = part.withValues (plan.values set request.params[place]?) := by
  refine part_resolvedAt_eq fun other field read => ?_
  have depends :=
    (wellFormed.mem_dependsOn_iff (List.mem_of_getElem? here) other).mpr ⟨field, read⟩
  exact answered.values?_eq depends below field

variable
  (rowWise
    : ∀ values,
        RowWise respond coalesce request registration (part.withValues values)
          (set (part.withValues values)) (admits (part.withValues values)))
  (admitted : plan.Admits set admits request)

include rowWise admitted

/-- A part as rows see it, run for these rows, returns for each of them what the plan comes to. -/
theorem Answered.runRows_completes {seen : Part} {places : List Nat} (some : places ≠ [])
    (sees
      : ∀ place ∈ places,
          place < request.params.length ∧ seen = (resolvedAt part outputs place).part)
    : Completes (runRows respond coalesce request seen registration places)
        (places.map fun place => plan.answer set request.params[place]? id) := by
  have answers : ∀ place ∈ places,
      plan.answer set request.params[place]? id
      = set seen (if seen.readsParams then request.params[place]? else none) := by
    intro place inside
    obtain ⟨below, seenHere⟩ := sees place inside
    rw [answered.resolvedAt_eq wellFormed here (by omega)] at seenHere
    rw [plan.answer_eq wellFormed here, seenHere, Part.readsParams_withValues]
  -- all these rows see the same part, so that any of them tells which values it reads
  obtain ⟨first, among⟩ := List.exists_mem_of_ne_nil places some
  obtain ⟨below, seenFirst⟩ := sees first among
  rw [answered.resolvedAt_eq wellFormed here (by omega)] at seenFirst
  rw [List.map_congr_left answers]
  have admitsSeen : ∀ place ∈ places,
      admits seen (if seen.readsParams then request.params[place]? else none) := by
    intro place inside
    obtain ⟨below, seenHere⟩ := sees place inside
    have within : place < max 1 request.params.length := by omega
    rw [answered.resolvedAt_eq wellFormed here within] at seenHere
    have admittedHere := admitted id part here _ (Request.mem_slots within)
    rwa [← seenHere, show part.readsParams = seen.readsParams by simp [seenHere]] at admittedHere
  subst seenFirst
  exact (rowWise _).runRows some (fun place inside => (sees place inside).1) admitsSeen

/-- Without parameter rows, a part as it is seen then returns what the plan comes to. -/
theorem Answered.runRows_completes_nil (none : request.params = []) (places : List Nat)
    : Completes
        (runRows respond coalesce request (resolvedAt part outputs 0).part registration places)
        (request.slots.map fun row => plan.answer set row id) := by
  have first : 0 < max 1 request.params.length := by omega
  have single : request.slots = [.none] := by simp [Request.slots, none]
  have admittedHere := admitted id part here .none (by simp [single])
  rw [single, List.map_singleton, plan.answer_eq wellFormed here,
    answered.resolvedAt_eq wellFormed here first]
  simp only [none, List.getElem?_nil, ite_self] at admittedHere ⊢
  exact (rowWise _).runRows_nil admittedHere none places

/-- A part whose dependencies have come to their outputs is run to what the plan comes to. -/
theorem Answered.runPart_completes
    : Completes (runPart respond coalesce request part registration outputs)
        (request.slots.map fun row => plan.answer set row id) := by
  have available := answered.available wellFormed here
  have asItIs (independent : part.dependsOn = []) (place : Nat)
      : (resolvedAt part outputs place).part = part :=
    resolvedAt_of_dependsOn_eq_nil wellFormed (List.mem_of_getElem? here) independent place
  by_cases none : request.params = []
  · have completes := answered.runRows_completes_nil wellFormed here rowWise admitted none
    by_cases independent : part.dependsOn = []
    · rw [runPart_of_independent independent]
      rw [asItIs independent] at completes
      exact completes _
    · rw [runPart_of_nil independent available none]
      exact completes []
  · have most : max 1 request.params.length = request.params.length :=
      Nat.max_eq_right (List.length_pos_iff.mpr none)
    have slots : (request.slots.map fun row => plan.answer set row id)
        = (List.range request.params.length).map fun place =>
            plan.answer set request.params[place]? id := by
      rw [Request.slots, most, List.map_map]
      rfl
    rw [slots]
    by_cases independent : part.dependsOn = []
    · rw [runPart_of_independent independent]
      exact answered.runRows_completes wellFormed here rowWise admitted (by simpa using none)
        fun place member => ⟨List.mem_range.mp member, (asItIs independent place).symm⟩
    · rw [runPart_of_ne_nil independent available none]
      rw [most] at available
      have ran := runGroups_completes (fun place => plan.answer set request.params[place]? id) _
        fun group member =>
          let ⟨someSee, sees⟩ := part_of_mem_groupsOf available member
          answered.runRows_completes wellFormed here rowWise admitted someSee sees
      apply ran.bind
      rw [List.map_congr_left fun place member =>
        congrArg (fun set => set.getD RowSet.empty)
          (get?_flatMap_groupsOf _ (List.mem_range.mp member))]
      exact .pure _

end parts

variable (wellFormed : plan.WellFormed catalog tree)
variable
  (rowWise
    : ∀ part ∈ plan.parts, ∀ registration, catalog.get? part.bucket = some registration
        → ∀ values,
            RowWise respond coalesce request registration (part.withValues values)
              (set (part.withValues values)) (admits (part.withValues values)))
  (admitted : plan.Admits set admits request)

include wellFormed rowWise admitted

/-- The remaining parts of the order run one after the other, by induction on them: each finds what
its dependencies have come to, since all of them come before it in the order.
-/
theorem Answered.runParts_completes {done rest : List Nat} (split : plan.order = done ++ rest)
    (answered : Answered plan set request outputs done)
    : ∃ final,
        Completes (runParts catalog respond coalesce plan request rest outputs) final
        ∧ Answered plan set request final plan.order := by
  induction rest generalizing done outputs with
  | nil => exact ⟨outputs, .pure _, by simpa [split] using answered⟩
  | cons id rest ih =>
      obtain ⟨part, registration, here, registered, runnable, before⟩ := wellFormed.next split
      have ready : Answered plan set request outputs part.dependsOn :=
        fun dependency depends => answered dependency (before dependency depends)
      have ran := ready.runPart_completes wellFormed here
        (rowWise part (List.mem_of_getElem? here) registration registered) admitted
      obtain ⟨final, ranOn, all⟩ := ih (by simp [split]) (answered.put id)
      refine ⟨final, ?_, all⟩
      simp only [runParts, here, registered, runnable]
      exact .unlessCancelled ((Completes.lift ()).bind (ran.bind ranOn))

/-- A plan over runners that answer rows one by one comes, for each parameter row, to what it comes
to for that row alone, if all its parts are admitted for the rows.
-/
theorem runPlan_completes (given : plan.readsParams = true → request.params ≠ [])
    : Completes (runPlan catalog respond coalesce plan request)
        (request.slots.map fun row => plan.answer set row 0) := by
  have started : Answered plan set request [] [] := fun id none => by cases none
  obtain ⟨final, ran, all⟩ :=
    started.runParts_completes wellFormed rowWise admitted (List.nil_append _).symm
  rw [runPlan_of_given given]
  apply ran.bind
  simp only [all 0 wellFormed.zero_mem_order]
  exact .pure _

end Execution

end FederatedQuery
