import FederatedQuery.Proofs.Execution.Calls
import FederatedQuery.Proofs.Execution.RowWise

/-! The contract between an execution and its runners. Each call is for a part of the plan whose
references have been replaced by what its dependencies have found, goes to the runner of the part's
bucket, and carries the parameter rows that the part reads.
-/

namespace FederatedQuery

variable {ρ : Type}

/-- The part was run for every parameter row, or at all if there are none. -/
def Completed (request : Request) (services : List (Service ρ)) (id : Nat) : Prop :=
  ∀ place < max 1 request.params.length, ∃ service ∈ services, service.serves id place = true

/-- Two parameter rows share a call for the part exactly when all its references to other parts have
been found the same values for both of them.
-/
def SharesCalls (request : Request) (services : List (Service ρ)) (part : Part) : Prop :=
  ∀ first < max 1 request.params.length, ∀ second < max 1 request.params.length,
    (∃ service ∈ services,
      service.serves part.id first = true ∧ service.serves part.id second = true)
    ↔ ∀ id field,
        Operand.part id field ∈ part.tree.operands
        → valuesFor services first id field = valuesFor services second id field

/-- What runners may rely on in a call for the parameter rows in the places, after the services that
the execution has had before.
-/
structure Contract (catalog : Catalog ρ) (plan : Plan) (request : Request)
    (past : List (Service ρ)) (places : List Nat) (call : Call ρ)
    : Prop where
  /-- The call goes to the runner registered for the part's bucket, in the scope of which the part
  is.
  -/
  runner
    : ∃ registration,
        catalog.get? call.request.part.bucket = some registration
        ∧ call.runner = registration.runner
        ∧ call.scope = registration.scope
        ∧ call.request.part.tree.scope = some registration.scope
  /-- It is for a part of the plan as each of the rows sees it. -/
  part
    : ∃ part,
        plan.part? call.request.part.id = some part
        ∧ ∀ place ∈ places, call.request.part = part.withValues (valuesFor past place)
  resolved : ∀ operand ∈ call.request.part.tree.operands, operand.part? = none
  /-- Sub-queries inside the part are in its scope. -/
  inline
    : ∀ test bucket field inner,
        Member.subQuery test bucket field inner ∈ call.request.part.tree.rules
        → inner.bucket = bucket
          ∧ inner.scope = some call.scope
          ∧ catalog.scopeOf? bucket = some call.scope
  /-- All dependencies of the part have been run for all parameter rows. -/
  ready : ∀ id ∈ call.request.part.dependsOn, Completed request past id
  /-- There is a row at least, and none for which the part was run before. -/
  fresh
    : places ≠ []
      ∧ places.Sublist (List.range (max 1 request.params.length))
      ∧ ∀ place ∈ places, ∀ service ∈ past, service.serves call.request.part.id place = false
  /-- The call carries these rows, if the part reads them. -/
  carried : call.request.params = request.rowsFor call.request.part places
  unread : call.request.params = [] ↔ call.request.part.tree.readsParams = false
  rows : call.request.params.Sublist request.params
  /-- Only what the root part finds is sorted and paginated. -/
  shaped
    : (call.request.sort, call.request.pagination)
      = if call.request.part.id = 0 then (request.sort, request.pagination) else ([], none)

/-- All services keep to the contract. -/
def Honoured (catalog : Catalog ρ) (plan : Plan) (request : Request)
    (services : List (Service ρ))
    : Prop :=
  ∀ (index : Nat) service,
    services[index]? = some service
    → Contract catalog plan request (services.take index) service.places service.call

/-- The services make up a run of the plan: every part was run once for every parameter row, and
rows share calls of a part as they see the same values.
-/
structure RanThrough (plan : Plan) (request : Request) (services : List (Service ρ)) : Prop where
  once
    : ∀ part ∈ plan.parts, ∀ place < max 1 request.params.length,
        (services.countP fun service => service.serves part.id place) = 1
  shared : ∀ part ∈ plan.parts, SharesCalls request services part

section services

variable {request : Request} {past later : List (Service ρ)} {id : Nat}

theorem findSome?_set?_eq_none (others : ∀ service ∈ past, service.part.id ≠ id) (place : Nat)
    : (past.findSome? fun service => service.set? id place) = none :=
  List.findSome?_eq_none_iff.mpr fun service inside => if_neg (others service inside)

/-- What a part has found is not changed by services of other parts. -/
theorem setFor_append_left (others : ∀ service ∈ later, service.part.id ≠ id) (place : Nat)
    : setFor (past ++ later) id place = setFor past id place := by
  rw [setFor, List.findSome?_append, findSome?_set?_eq_none others, Option.or_none]
  rfl

theorem setFor_append_right (others : ∀ service ∈ past, service.part.id ≠ id) (place : Nat)
    : setFor (past ++ later) id place = setFor later id place := by
  rw [setFor, List.findSome?_append, findSome?_set?_eq_none others, Option.none_or]
  rfl

theorem Completed.append (completed : Completed request past id) (later : List (Service ρ))
    : Completed request (past ++ later) id := by
  intro place below
  obtain ⟨service, inside, serves⟩ := completed place below
  exact ⟨service, List.mem_append_left _ inside, serves⟩

theorem serves_eq_false (others : ∀ service ∈ past, service.part.id ≠ id) {service : Service ρ}
    (inside : service ∈ past) (place : Nat)
    : service.serves id place = false :=
  Bool.eq_false_iff.mpr fun serves =>
    others service inside ((service.serves_iff id place).mp serves).1

/-- Services of parts to which a part does not refer do not change which rows share its calls. -/
theorem SharesCalls.append {part : Part} (shares : SharesCalls request past part)
    (others : ∀ service ∈ later, service.part.id ≠ part.id)
    (unread
      : ∀ id field,
          Operand.part id field ∈ part.tree.operands
          → ∀ service ∈ later, service.part.id ≠ id)
    : SharesCalls request (past ++ later) part := by
  intro first firstBelow second secondBelow
  have earlier : (∃ service ∈ past ++ later,
        service.serves part.id first = true ∧ service.serves part.id second = true)
      ↔ ∃ service ∈ past,
        service.serves part.id first = true ∧ service.serves part.id second = true := by
    constructor
    · rintro ⟨service, inside, servesFirst, servesSecond⟩
      rcases List.mem_append.mp inside with inside | inside
      · exact ⟨service, inside, servesFirst, servesSecond⟩
      · rw [serves_eq_false others inside] at servesFirst
        cases servesFirst
    · rintro ⟨service, inside, both⟩
      exact ⟨service, List.mem_append_left _ inside, both⟩
  rw [earlier, shares first firstBelow second secondBelow]
  refine forall_congr' fun id => forall_congr' fun field => forall_congr' fun read => ?_
  simp only [valuesFor, setFor_append_left (unread id field read)]

end services

/-- Sub-queries stay in the scope of their part when its references are replaced by values. -/
theorem Part.Placed.subQuery_of_mem_withValues {catalog : Catalog ρ} {part : Part}
    (placed : part.Placed catalog) {values : Nat → String → List Value} {test : Test}
    {bucket field : String} {inner : RuleTree}
    (asked : Member.subQuery test bucket field inner ∈ (part.withValues values).tree.rules)
    : inner.bucket = bucket
      ∧ inner.scope = some part.scope
      ∧ catalog.scopeOf? bucket = some part.scope := by
  rw [withValues, RuleTree.rules_mapOperands] at asked
  obtain ⟨original, among, same⟩ := List.mem_map.mp asked
  cases placed.of_mem_rules original among with
  | rule => cases same
  | group => cases same
  | subQuery test field known inside =>
      simp only [RuleTree.mapMember, Member.subQuery.injEq] at same
      obtain ⟨-, rfl, -, rfl⟩ := same
      exact ⟨RuleTree.bucket_mapOperands .., RuleTree.scope_mapOperands .., known⟩

/-- Services that keep to the contract serve no row twice. -/
theorem Honoured.pairwise {catalog : Catalog ρ} {plan : Plan} {request : Request}
    {services : List (Service ρ)} (honoured : Honoured catalog plan request services)
    (id place : Nat)
    : services.Pairwise fun earlier later =>
        ¬(earlier.serves id place = true ∧ later.serves id place = true) := by
  refine List.pairwise_iff_getElem.mpr fun first second firstBelow secondBelow before both => ?_
  have contract := honoured second services[second] (List.getElem?_eq_getElem secondBelow)
  have earlier : services[first] ∈ services.take second :=
    List.mem_take_iff_getElem.mpr ⟨first, by omega, rfl⟩
  obtain ⟨rfl, of⟩ := (services[second].serves_iff id place).mp both.2
  have unserved := contract.fresh.2.2 place of services[first] earlier
  exact Bool.eq_false_iff.mp unserved both.1

/-- A row for which a part was run is served by one call for the part. -/
theorem Honoured.countP_eq_one {catalog : Catalog ρ} {plan : Plan} {request : Request}
    {services : List (Service ρ)} (honoured : Honoured catalog plan request services)
    {id place : Nat} (served : ∃ service ∈ services, service.serves id place = true)
    : (services.countP fun service => service.serves id place) = 1 := by
  have some : 0 < services.countP fun service => service.serves id place :=
    List.countP_pos_iff.mpr served
  rw [List.countP_eq_length_filter] at some ⊢
  match rows : services.filter fun service => service.serves id place with
  | [] => simp [rows] at some
  | [_] => rw [rows, List.length_singleton]
  | first :: second :: rest =>
      have apart := (honoured.pairwise id place).filter fun service => service.serves id place
      rw [rows] at apart
      have both : ∀ service ∈ first :: second :: rest, service.serves id place = true := by
        rw [← rows]
        exact fun service inside => (List.mem_filter.mp inside).2
      exact absurd ⟨both first (by simp), both second (by simp)⟩
        ((List.pairwise_cons.mp apart).1 second (by simp))

theorem RanThrough.completed {plan : Plan} {request : Request} {services : List (Service ρ)}
    (ran : RanThrough plan request services) {part : Part} (inside : part ∈ plan.parts)
    : Completed request services part.id := fun place below =>
  List.countP_pos_iff.mp (ran.once part inside place below ▸ Nat.one_pos)

/-- A part for which a call is wanted has not been run for the rows of the call. -/
theorem Contract.exists_incomplete {catalog : Catalog ρ} {tree : RuleTree} {plan : Plan}
    {request : Request} {past : List (Service ρ)} {places : List Nat} {call : Call ρ}
    (wellFormed : plan.WellFormed catalog tree)
    (contract : Contract catalog plan request past places call)
    : ∃ part ∈ plan.parts, ¬Completed request past part.id := by
  obtain ⟨part, known, -⟩ := contract.part
  obtain ⟨some, ascending, unserved⟩ := contract.fresh
  obtain ⟨place, of⟩ := List.exists_mem_of_ne_nil places some
  refine ⟨part, List.mem_of_getElem? known, fun completed => ?_⟩
  have below := List.mem_range.mp (ascending.subset of)
  obtain ⟨service, inside, serves⟩ := completed place below
  rw [wellFormed.ids _ part known, unserved place of service inside] at serves
  cases serves

end FederatedQuery
