import FederatedQuery.Proofs.Execution.Contract

/-! Running the parts of a plan keeps the contract. What is kept track of is which parts are done
and what their services have found; a part is next when all its dependencies are done.
-/

namespace FederatedQuery

variable {ρ : Type}

namespace Execution

/-- The outputs are those of the parts that are done, as services have brought them. -/
structure Tracks (catalog : Catalog ρ) (plan : Plan) (request : Request)
    (past : List (Service ρ)) (outputs : Outputs) (done : List Nat)
    : Prop where
  honoured : Honoured catalog plan request past
  ran : ∀ service ∈ past, service.part.id ∈ done
  filed
    : ∀ id ∈ done,
        Table.get? outputs id
        = some ((List.range (max 1 request.params.length)).map (setFor past id))
  completed : ∀ id ∈ done, Completed request past id
  /-- Parts that are done depend on parts that are. -/
  closed
    : ∀ id ∈ done, ∀ part,
        plan.part? id = some part → ∀ dependency ∈ part.dependsOn, dependency ∈ done
  shared : ∀ id ∈ done, ∀ part, plan.part? id = some part → SharesCalls request past part

variable {catalog : Catalog ρ} {tree : RuleTree} {plan : Plan} {request : Request}
  {past : List (Service ρ)} {outputs : Outputs} {done : List Nat}

theorem tracks_start : Tracks (ρ := ρ) catalog plan request [] [] [] := by
  constructor <;> simp [Honoured]

theorem Tracks.values?_eq (tracks : Tracks catalog plan request past outputs done) {id : Nat}
    (inside : id ∈ done) {place : Nat} (below : place < max 1 request.params.length)
    (field : String)
    : outputs.values? place id field = some (valuesFor past place id field) := by
  simp [Outputs.values?, tracks.filed id inside, List.getElem?_range below, valuesFor]

-----------------------------------------------------------------------------------------
-- A part of which all dependencies are done
-----------------------------------------------------------------------------------------

section part

variable {coalesce : Bool} {registration : Registration ρ} {part : Part} {id : Nat}

/-- The part is next: it has not run, but all its dependencies have. -/
structure Next (catalog : Catalog ρ) (plan : Plan) (request : Request) (past : List (Service ρ))
    (outputs : Outputs) (done : List Nat) (registration : Registration ρ) (part : Part) : Prop where
  tracks : Tracks catalog plan request past outputs done
  inside : part ∈ plan.parts
  registered : catalog.get? part.bucket = some registration
  fresh : part.id ∉ done
  depends : ∀ dependency ∈ part.dependsOn, dependency ∈ done

variable (wellFormed : plan.WellFormed catalog tree)
  (next : Next catalog plan request past outputs done registration part)

namespace Next

include next

theorem others : ∀ service ∈ past, service.part.id ≠ part.id := fun service among same =>
  next.fresh (same ▸ next.tracks.ran service among)

include wellFormed

/-- The values that a row has been found are in the outputs, for each reference of the part. -/
theorem values?_eq {place : Nat} (below : place < max 1 request.params.length) (other : Nat)
    (field : String) (read : Operand.part other field ∈ part.tree.operands)
    : outputs.values? place other field = some (valuesFor past place other field) :=
  next.tracks.values?_eq
    (next.depends other ((wellFormed.mem_dependsOn_iff next.inside other).mpr ⟨field, read⟩)) below
    field

theorem available : ∀ place < max 1 request.params.length, Available part outputs place :=
  fun place below other field read => by rw [next.values?_eq wellFormed below other field read]; rfl

/-- Services of the part do not change what its dependencies have found. -/
theorem valuesFor_append {later : List (Service ρ)}
    (same : ∀ service ∈ later, service.part.id = part.id) (place other : Nat) (field : String)
    (read : Operand.part other field ∈ part.tree.operands)
    : valuesFor (past ++ later) place other field = valuesFor past place other field := by
  have depends := next.depends other
    ((wellFormed.mem_dependsOn_iff next.inside other).mpr ⟨field, read⟩)
  have others : ∀ service ∈ later, service.part.id ≠ other := by
    rintro service among rfl
    exact next.fresh (same service among ▸ depends)
  rw [valuesFor, setFor_append_left others]
  rfl

/-- A group is of rows that see the part as it calls for it. -/
theorem group_eq {later : List (Service ρ)} (same : ∀ service ∈ later, service.part.id = part.id)
    {group : Part × List Nat} (among : group ∈ groupsFor part outputs request)
    : ∀ place ∈ group.2, group.1 = part.withValues (valuesFor (past ++ later) place) := by
  intro place of
  obtain ⟨-, sees⟩ := part_of_mem_groupsOf (next.available wellFormed) among
  obtain ⟨below, seen⟩ := sees place of
  rw [seen]
  refine part_resolvedAt_eq fun other field read => ?_
  rw [next.values?_eq wellFormed below other field read,
    next.valuesFor_append wellFormed same place other field read]

/-- The part is run in its own scope. -/
theorem scope_eq : registration.scope = part.scope := by
  obtain ⟨root, found, scope⟩ :=
    Catalog.scopeOf?_eq_some (wellFormed.placed part next.inside).bucket
  rwa [Option.some.inj (next.registered.symm.trans found)]

omit wellFormed in
/-- A row of a group has not been served before: it is in no other group. -/
theorem serves_eq_false_of_split {before rest : List (Part × List Nat)}
    {group : Part × List Nat} {served : List (Service ρ)}
    (split : groupsFor part outputs request = before ++ group :: rest)
    (servedBefore : List.Forall₂ (ServedBy coalesce request registration) before served)
    {place : Nat} (of : place ∈ group.2)
    : ∀ service ∈ past ++ served, service.serves part.id place = false := by
  intro service inside
  rcases List.mem_append.mp inside with earlier | inside
  · exact serves_eq_false next.others earlier place
  · obtain ⟨other, earlier, servedBy⟩ := exists_of_forall₂ servedBefore service inside
    refine Bool.eq_false_iff.mpr fun serves => ?_
    have again : place ∈ other.2 := servedBy.places ▸ ((service.serves_iff _ _).mp serves).2
    have distinct := nodup_places_groupsFor part outputs request
    rw [split, List.flatMap_append, List.flatMap_cons] at distinct
    exact (List.nodup_append.mp distinct).2.2 place
      (List.mem_flatMap.mpr ⟨other, earlier, again⟩) place (List.mem_append_left _ of) rfl

/-- What a group calls for keeps to the contract, after the services of the groups before it. -/
theorem contract (given : plan.readsParams = true → request.params ≠ [])
    {served : List (Service ρ)} {places : List Nat} {call : Call ρ}
    (wants
      : WantsNext coalesce request registration (groupsFor part outputs request) served places call)
    : Contract catalog plan request (past ++ served) places call := by
  obtain ⟨before, group, rest, split, servedBefore, rfl, rfl⟩ := wants
  have among : group ∈ groupsFor part outputs request := by simp [split]
  have same : ∀ service ∈ served, service.part.id = part.id :=
    part_id_of_served (split ▸ List.subset_append_left before _) servedBefore
  obtain ⟨some, sees⟩ := part_of_mem_groupsOf (next.available wellFormed) among
  obtain ⟨founder, -, like⟩ := exists_founder_of_mem_groupsOf among
  have ascending : group.2.Sublist (List.range (max 1 request.params.length)) := by
    rw [like]
    exact List.filter_sublist
  -- any of the rows tells what the part of the group looks like
  have each := next.group_eq wellFormed same among
  obtain ⟨first, of⟩ := List.exists_mem_of_ne_nil _ some
  obtain ⟨values, seen⟩ : ∃ values, group.1 = part.withValues values := ⟨_, each first of⟩
  have placed := wellFormed.placed part next.inside
  have scope := next.scope_eq wellFormed
  have id : group.1.id = part.id := id_of_mem_groupsOf among
  exact {
    runner := by
      refine ⟨registration, ?_, rfl, rfl, ?_⟩
      · show catalog.get? group.1.bucket = _
        rw [seen, Part.bucket_withValues, next.registered]
      · show group.1.tree.scope = _
        rw [seen, scope]
        exact (RuleTree.scope_mapOperands ..).trans placed.tree
    part := ⟨part, id ▸ wellFormed.part?_id next.inside, each⟩
    resolved := fun operand read => by
      have read : operand ∈ group.1.tree.operands := read
      rw [seen] at read
      exact part.part?_of_mem_withValues read
    inline := fun test bucket field inner asked => by
      have asked : Member.subQuery test bucket field inner ∈ group.1.tree.rules := asked
      rw [seen] at asked
      rw [show (callFor coalesce request registration group).scope = part.scope from scope]
      exact placed.subQuery_of_mem_withValues asked
    ready := fun other depends => by
      have depends : other ∈ group.1.dependsOn := depends
      rw [seen] at depends
      exact (next.tracks.completed other (next.depends other depends)).append _
    fresh := by
      refine ⟨some, ascending, fun place here => ?_⟩
      show ∀ service ∈ past ++ served, service.serves group.1.id place = false
      rw [id]
      exact next.serves_eq_false_of_split split servedBefore here
    carried := rfl
    unread := by
      refine Request.rowsFor_eq_nil_iff (fun reads => given ?_) some fun place here =>
        (sees place here).1
      rw [seen, Part.readsParams_withValues] at reads
      exact List.any_eq_true.mpr ⟨part, next.inside, reads⟩
    rows := Request.rowsFor_sublist _ ascending
    shaped := shaped_callFor ..
  }

/-- The services of the first groups keep to the contract, one after the other. -/
theorem honoured_append (given : plan.readsParams = true → request.params ≠ [])
    {before rest : List (Part × List Nat)} {served : List (Service ρ)}
    (split : groupsFor part outputs request = before ++ rest)
    (servedBefore : List.Forall₂ (ServedBy coalesce request registration) before served)
    : Honoured catalog plan request (past ++ served) := by
  intro index service here
  rcases Nat.lt_or_ge index past.length with earlier | later
  · rw [List.getElem?_append_left earlier] at here
    rw [List.take_append_of_le_length (Nat.le_of_lt earlier)]
    exact next.tracks.honoured index service here
  · rw [List.getElem?_append_right later] at here
    rw [List.take_append, List.take_of_length_le later]
    have wanted := (wantsNext_of_served servedBefore here).append rest
    exact next.contract wellFormed given (split ▸ wanted)

section served

variable {services : List (Service ρ)}
  (served
    : List.Forall₂ (ServedBy coalesce request registration) (groupsFor part outputs request)
        services)

include served

omit wellFormed next in
/-- The part has now been run for every row, since every row is in a group. -/
theorem completed_append : Completed request (past ++ services) part.id := by
  intro place below
  obtain ⟨group, among, of⟩ := exists_mem_groupsOf part outputs below
  obtain ⟨service, inside, servedBy⟩ := exists_of_forall₂ served.flip group among
  refine ⟨service, List.mem_append_right _ inside, (service.serves_iff _ _).mpr ⟨?_, ?_⟩⟩
  · exact part_id_of_served (List.Subset.refl _) served service inside
  · rw [servedBy.places]
    exact of

/-- Rows that are in a group together are those that see the same values. -/
theorem sharesCalls_append : SharesCalls request (past ++ services) part := by
  intro first firstBelow second secondBelow
  have same := part_id_of_served (List.Subset.refl _) served
  have available := next.available wellFormed
  have together : (∃ service ∈ past ++ services,
        service.serves part.id first = true ∧ service.serves part.id second = true)
      ↔ ∃ group ∈ groupsFor part outputs request, first ∈ group.2 ∧ second ∈ group.2 := by
    constructor
    · rintro ⟨service, inside, servesFirst, servesSecond⟩
      rcases List.mem_append.mp inside with earlier | inside
      · rw [serves_eq_false next.others earlier] at servesFirst
        cases servesFirst
      · obtain ⟨group, among, servedBy⟩ := exists_of_forall₂ served service inside
        rw [service.serves_iff, servedBy.places] at servesFirst servesSecond
        exact ⟨group, among, servesFirst.2, servesSecond.2⟩
    · rintro ⟨group, among, firstIn, secondIn⟩
      obtain ⟨service, inside, servedBy⟩ := exists_of_forall₂ served.flip group among
      have id := same service inside
      rw [← servedBy.places] at firstIn secondIn
      exact ⟨service, List.mem_append_right _ inside, (service.serves_iff _ _).mpr ⟨id, firstIn⟩,
        (service.serves_iff _ _).mpr ⟨id, secondIn⟩⟩
  rw [together, groupsFor, exists_group_both_iff firstBelow secondBelow,
    values_eq_iff (available first firstBelow) (available second secondBelow)]
  refine forall_congr' fun id => forall_congr' fun field => forall_congr' fun read => ?_
  rw [next.values?_eq wellFormed firstBelow id field read,
    next.values?_eq wellFormed secondBelow id field read,
    next.valuesFor_append wellFormed same first id field read,
    next.valuesFor_append wellFormed same second id field read, Option.some.injEq]

/-- With what was found for the part put into the outputs, the part is done, too. -/
theorem tracks_put (given : plan.readsParams = true → request.params ≠ [])
    : Tracks catalog plan request (past ++ services)
        (Table.put outputs part.id
          ((List.range (max 1 request.params.length)).map (setFor services part.id)))
        (done ++ [part.id]) := by
  have same := part_id_of_served (List.Subset.refl _) served
  have older : ∀ id ∈ done, ∀ service ∈ services, service.part.id ≠ id := by
    rintro id inside service among rfl
    exact next.fresh (same service among ▸ inside)
  have self : ∀ other, plan.part? part.id = some other → other = part := fun other here =>
    Option.some.inj (here.symm.trans (wellFormed.part?_id next.inside))
  have cases {P : Nat → Prop} (before : ∀ id ∈ done, P id) (now : P part.id)
      : ∀ id ∈ done ++ [part.id], P id := by
    intro id inside
    rcases List.mem_append.mp inside with inside | inside
    · exact before id inside
    · exact List.mem_singleton.mp inside ▸ now
  exact {
    honoured := next.honoured_append wellFormed given (List.append_nil _).symm served
    ran := by
      intro service inside
      rcases List.mem_append.mp inside with inside | inside
      · exact List.mem_append_left _ (next.tracks.ran service inside)
      · exact List.mem_append_right _ (List.mem_singleton.mpr (same service inside))
    filed := by
      refine cases (fun id inside => ?_) ?_
      · have different : id ≠ part.id := fun same => next.fresh (same ▸ inside)
        rw [Table.get?_put, if_neg different, next.tracks.filed id inside]
        refine congrArg some (List.map_congr_left fun place _ => ?_)
        rw [setFor_append_left (older id inside)]
      · rw [Table.get?_put, if_pos rfl]
        refine congrArg some (List.map_congr_left fun place _ => ?_)
        rw [setFor_append_right next.others]
    completed :=
      cases (fun id inside => (next.tracks.completed id inside).append services)
        (completed_append served)
    closed := by
      refine cases (fun id inside other here dependency depends => ?_)
        fun other here dependency depends => ?_
      · exact List.mem_append_left _ (next.tracks.closed id inside other here dependency depends)
      · rw [self other here] at depends
        exact List.mem_append_left _ (next.depends dependency depends)
    shared := by
      refine cases (fun id inside other here => ?_) fun other here => ?_
      · have known := wellFormed.ids id other here
        refine (next.tracks.shared id inside other here).append ?_ fun dependency field read => ?_
        · exact known.symm ▸ older id inside
        · refine older dependency (next.tracks.closed id inside other here dependency ?_)
          exact (wellFormed.mem_dependsOn_iff (List.mem_of_getElem? here) dependency).mpr
            ⟨field, read⟩
      · rw [self other here]
        exact next.sharesCalls_append wellFormed served
  }

end served

end Next

end part

variable (respond : Respond ρ) (coalesce : Bool)

/-- The remaining parts of the order are run one after the other, by induction on them. Whatever is
called keeps to the contract, since all dependencies of a part come before it in the order.
-/
theorem performs_runParts (wellFormed : plan.WellFormed catalog tree)
    (given : plan.readsParams = true → request.params ≠ []) {done rest : List Nat}
    (split : plan.order = done ++ rest) (tracks : Tracks catalog plan request past outputs done)
    : Performs respond
        (fun services places call =>
          Honoured catalog plan request (past ++ services)
          ∧ Contract catalog plan request (past ++ services) places call)
        (fun services final => Tracks catalog plan request (past ++ services) final plan.order)
        (runParts catalog respond coalesce plan request rest outputs) := by
  induction rest generalizing past outputs done with
  | nil =>
      rw [List.append_nil] at split
      exact .pure (by simpa [split] using tracks)
  | cons id rest ih =>
      obtain ⟨part, registration, here, registered, runnable, before⟩ := wellFormed.next split
      obtain rfl : part.id = id := wellFormed.ids id part here
      have fresh : part.id ∉ done := by
        have distinct := wellFormed.order.nodup_iff.mpr List.nodup_range
        rw [split] at distinct
        exact fun inside => (List.nodup_append.mp distinct).2.2 _ inside _ List.mem_cons_self rfl
      have next : Next catalog plan request past outputs done registration part :=
        ⟨tracks, List.mem_of_getElem? here, registered, fresh, before⟩
      have wanted {services : List (Service ρ)} {places : List Nat} {call : Call ρ}
          (wants
            : WantsNext coalesce request registration (groupsFor part outputs request) services
                places call)
          : Honoured catalog plan request (past ++ services)
            ∧ Contract catalog plan request (past ++ services) places call := by
        obtain ⟨served, group, others, groups, servedBy, same⟩ := wants
        exact ⟨next.honoured_append wellFormed given groups servedBy,
          next.contract wellFormed given ⟨served, group, others, groups, servedBy, same⟩⟩
      obtain ⟨places, call, first⟩ := exists_wantsNext coalesce registration part outputs request
      have ran := performs_runPart wellFormed next.inside (next.available wellFormed) respond
        coalesce registration
      simp only [runParts, here, registered, runnable]
      refine .unlessCancelled ⟨places, call, wanted first⟩ ?_
      have checked : Performs respond
          (fun services places call =>
            Honoured catalog plan request (past ++ services)
            ∧ Contract catalog plan request (past ++ services) places call)
          (fun services (_ : Unit) => services = [])
          (liftM (Except.ok () : Except ExecutionError Unit) : Execution ρ Unit) := .lift rfl
      refine checked.bind ?_
      rintro services - rfl
      refine (ran.mono (fun _ _ _ wants => wanted wants) fun _ _ served => served).bind ?_
      rintro services sets ⟨served, rfl⟩
      have further := ih (by simp [split]) (next.tracks_put wellFormed served given)
      simpa [List.append_assoc] using further

/-- A plan that has the parameter rows that it reads keeps to the contract in every call, and
returns what its services have found for the root part when all parts have been run.
-/
theorem performs_runPlan (wellFormed : plan.WellFormed catalog tree)
    (given : plan.readsParams = true → request.params ≠ [])
    : Performs respond
        (fun services places call =>
          Honoured catalog plan request services
          ∧ Contract catalog plan request services places call)
        (fun services sets =>
          Honoured catalog plan request services
          ∧ RanThrough plan request services
          ∧ sets = (List.range (max 1 request.params.length)).map (setFor services 0))
        (runPlan catalog respond coalesce plan request) := by
  have ordered : ∀ part ∈ plan.parts, part.id ∈ plan.order := fun part inside =>
    wellFormed.order.mem_iff.mpr (List.mem_range.mpr
      (List.getElem?_eq_some_iff.mp (wellFormed.part?_id inside)).1)
  have ran := performs_runParts respond coalesce wellFormed given
    (List.nil_append _).symm tracks_start
  rw [runPlan_of_given given]
  refine ran.bind fun services final tracks => ?_
  simp only [List.nil_append] at tracks
  simp only [tracks.filed 0 wellFormed.zero_mem_order]
  refine .pure ?_
  rw [List.append_nil]
  refine ⟨tracks.honoured, ⟨fun part inside place below => ?_, fun part inside => ?_⟩, rfl⟩
  · exact tracks.honoured.countP_eq_one
      (tracks.completed part.id (ordered part inside) place below)
  · exact tracks.shared part.id (ordered part inside) part (wellFormed.part?_id inside)

end Execution

end FederatedQuery
