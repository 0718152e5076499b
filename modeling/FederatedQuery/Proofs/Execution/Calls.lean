import FederatedQuery.Proofs.Computation
import FederatedQuery.Proofs.Execution.Services

/-! The calls for a part. Parameter rows that see the part alike form a group, every group gets
one call, and the groups are called for one after the other.
-/

namespace FederatedQuery

variable {ρ : Type}

/-- The parameter rows in the places, as far as the part reads them. -/
def Request.rowsFor (request : Request) (part : Part) (places : List Nat) : List ParamRow :=
  if part.readsParams then places.filterMap fun place => request.params[place]? else []

/-- A part that reads parameter rows gets some of those in the places, since they are there. -/
theorem Request.rowsFor_eq_nil_iff {request : Request} {part : Part} {places : List Nat}
    (given : part.readsParams = true → request.params ≠ []) (some : places ≠ [])
    (below : ∀ place ∈ places, place < max 1 request.params.length)
    : request.rowsFor part places = [] ↔ part.readsParams = false := by
  cases reads : part.readsParams with
  | false => simp [rowsFor, reads]
  | true =>
      obtain ⟨first, among⟩ := List.exists_mem_of_ne_nil places some
      have positive := List.length_pos_iff.mpr (given reads)
      have inside : first < request.params.length := by
        have within := below first among
        omega
      simp only [rowsFor, reads, ↓reduceIte, Bool.true_eq_false, iff_false]
      exact List.ne_nil_of_mem (List.mem_filterMap.mpr
        ⟨first, among, List.getElem?_eq_getElem inside⟩)

/-- The rows stand in the order of the request if their places ascend. -/
theorem Request.rowsFor_sublist {request : Request} (part : Part) {places : List Nat}
    (ascending : places.Sublist (List.range (max 1 request.params.length)))
    : (request.rowsFor part places).Sublist request.params := by
  have all : ((List.range (max 1 request.params.length)).filterMap fun place =>
      request.params[place]?) = request.params := by
    cases params : request.params with
    | nil => rfl
    | cons row rest =>
        have most : max 1 (row :: rest).length = (row :: rest).length := by simp
        rw [most]
        exact Execution.filterMap_getElem?_range (row :: rest)
  rw [rowsFor]
  split
  · have rows := ascending.filterMap fun place => request.params[place]?
    rwa [all] at rows
  · exact List.nil_sublist _

namespace Execution

/-- The call for a part and the places of the parameter rows that see it alike. -/
def callFor (coalesce : Bool) (request : Request) (registration : Registration ρ)
    (group : Part × List Nat) : Call ρ :=
  callOf coalesce request group.1 registration (request.rowsFor group.1 group.2)

/-- The service of a group, with the row sets that its call has returned. -/
def serviceFor (coalesce : Bool) (request : Request) (registration : Registration ρ)
    (group : Part × List Nat) (returned : List RowSet) : Service ρ :=
  ⟨group.2, callFor coalesce request registration group, returned⟩

/-- Only what is found for the root part is sorted and paginated. -/
theorem shaped_callFor (coalesce : Bool) (request : Request) (registration : Registration ρ)
    (group : Part × List Nat)
    : ((callFor coalesce request registration group).request.sort,
        (callFor coalesce request registration group).request.pagination)
      = if group.1.id = 0 then (request.sort, request.pagination) else ([], none) := by
  by_cases root : group.1.id = 0
  · simp [callFor, callOf, root]
  · simp [callFor, callOf, root]

/-- The groups of parameter rows that see the part alike, with the part as they see it. -/
def groupsFor (part : Part) (outputs : Outputs) (request : Request) : List (Part × List Nat) :=
  groupsOf ((List.range (max 1 request.params.length)).map (resolvedAt part outputs))

/-- The service is that for which a group calls. -/
structure ServedBy (coalesce : Bool) (request : Request) (registration : Registration ρ)
    (group : Part × List Nat) (service : Service ρ)
    : Prop where
  places : service.places = group.2
  call : service.call = callFor coalesce request registration group
  counted : service.shares.length = service.places.length

/-- Some of the groups have been served, and the next one calls. -/
def WantsNext (coalesce : Bool) (request : Request) (registration : Registration ρ)
    (groups : List (Part × List Nat)) (services : List (Service ρ)) (places : List Nat)
    (call : Call ρ)
    : Prop :=
  ∃ before group rest,
    groups = before ++ group :: rest
    ∧ List.Forall₂ (ServedBy coalesce request registration) before services
    ∧ places = group.2
    ∧ call = callFor coalesce request registration group

variable {coalesce : Bool} {request : Request} {registration : Registration ρ}

/-- The service of a single group, with the row sets that it brings. -/
def ServesGroup (coalesce : Bool) (request : Request) (registration : Registration ρ)
    (group : Part × List Nat) (services : List (Service ρ)) (sets : List RowSet)
    : Prop :=
  ∃ service,
    services = [service]
    ∧ ServedBy coalesce request registration group service
    ∧ sets = service.shares

/-- A call that carries parameter rows brings a row set for each of them. -/
theorem servesGroup_of_rows {group : Part × List Nat} {returned : List RowSet}
    (each : (request.rowsFor group.1 group.2).length = group.2.length) (some : group.2 ≠ [])
    (counted : returned.length = max 1 (request.rowsFor group.1 group.2).length)
    : ServesGroup coalesce request registration group
        [serviceFor coalesce request registration group returned] returned := by
  have positive : 0 < group.2.length := List.length_pos_iff.mpr some
  have carries : (request.rowsFor group.1 group.2).isEmpty = false := by
    rw [List.isEmpty_eq_false_iff, ← List.length_pos_iff]
    omega
  have shares : (serviceFor coalesce request registration group returned).shares = returned := by
    simp [Service.shares, serviceFor, callFor, callOf, carries]
  refine ⟨_, rfl, ⟨rfl, rfl, ?_⟩, shares.symm⟩
  rw [shares]
  show returned.length = group.2.length
  omega

/-- A call without parameter rows brings a row set that all places share. -/
theorem servesGroup_of_nil {group : Part × List Nat} {returned : List RowSet}
    (none : request.rowsFor group.1 group.2 = [])
    : ServesGroup coalesce request registration group
        [serviceFor coalesce request registration group returned]
        (List.replicate group.2.length (returned.headD RowSet.empty)) := by
  have shares : (serviceFor coalesce request registration group returned).shares
      = List.replicate group.2.length (returned.headD RowSet.empty) := by
    simp [Service.shares, serviceFor, callFor, callOf, none]
  exact ⟨_, rfl, ⟨rfl, rfl, by rw [shares, List.length_replicate]; rfl⟩, shares.symm⟩

theorem WantsNext.append {groups : List (Part × List Nat)} {services : List (Service ρ)}
    {places : List Nat} {call : Call ρ}
    (wants : WantsNext coalesce request registration groups services places call)
    (more : List (Part × List Nat))
    : WantsNext coalesce request registration (groups ++ more) services places call := by
  obtain ⟨before, group, rest, rfl, served, same⟩ := wants
  exact ⟨before, group, rest ++ more, by simp, served, same⟩

theorem WantsNext.cons {group : Part × List Nat} {groups : List (Part × List Nat)}
    {service : Service ρ} {services : List (Service ρ)} {places : List Nat} {call : Call ρ}
    (served : ServedBy coalesce request registration group service)
    (wants : WantsNext coalesce request registration groups services places call)
    : WantsNext coalesce request registration (group :: groups) (service :: services) places
        call := by
  obtain ⟨before, next, rest, rfl, others, same⟩ := wants
  exact ⟨group :: before, next, rest, rfl, .cons served others, same⟩

/-- Every service of groups was wanted after those before it, by induction on the groups. -/
theorem wantsNext_of_served {groups : List (Part × List Nat)} {services : List (Service ρ)}
    (served : List.Forall₂ (ServedBy coalesce request registration) groups services) {index : Nat}
    {service : Service ρ} (here : services[index]? = some service)
    : WantsNext coalesce request registration groups (services.take index) service.places
        service.call := by
  induction served generalizing index with
  | nil => simp at here
  | cons first others ih =>
      cases index with
      | zero =>
          obtain rfl := Option.some.inj here
          exact ⟨[], _, _, rfl, .nil, first.places, first.call⟩
      | succ index => exact (ih here).cons first

-----------------------------------------------------------------------------------------
-- Calling for groups
-----------------------------------------------------------------------------------------

section performs

variable (respond : Respond ρ) (coalesce : Bool) (registration : Registration ρ)

/-- A runner is called once, and returns as many row sets as it was called for. -/
theorem performs_invoke (request : Request) (part : Part) (places : List Nat)
    (params : List ParamRow)
    : let call := callOf coalesce request part registration params
      Performs respond
        (fun services wanted other => services = [] ∧ wanted = places ∧ other = call)
        (fun services sets =>
          services = [⟨places, call, sets⟩] ∧ sets.length = max 1 params.length)
        (invoke respond coalesce request part registration params) := by
  intro call progress
  simp only [invoke, run_get]
  cases halted : progress.cancelled with
  | true => exact ⟨[], progress, .nil progress, .call ⟨rfl, rfl, rfl⟩ (.cancelled halted)⟩
  | false =>
      simp only [Bool.false_eq_true, ↓reduceIte]
      cases answer : respond progress.calls (callOf coalesce request part registration params) with
      | mk reply cancels =>
          cases reply with
          | silence =>
              refine ⟨[], progress, .nil progress, .call ⟨rfl, rfl, rfl⟩ (.silent halted ?_)⟩
              rw [answer]
          | failure source =>
              refine ⟨[], progress, .nil progress, .call ⟨rfl, rfl, rfl⟩ (.faulty halted ?_)⟩
              rw [answer]
              rfl
          | sets sets =>
              by_cases counted : sets.length = call.request.expectedSets
              · rw [run_set, if_pos counted]
                refine ⟨[⟨places, call, sets⟩], _, .cons halted answer counted (.nil _), ?_⟩
                exact .value ⟨rfl, counted⟩
              · rw [run_set, if_neg counted]
                refine ⟨[], progress, .nil progress, .call ⟨rfl, rfl, rfl⟩ (.faulty halted ?_)⟩
                rw [answer]
                exact if_neg counted

/-- A group is called for once. -/
theorem performs_call (request : Request) (group : Part × List Nat)
    : Performs respond
        (WantsNext coalesce request registration [group])
        (fun services returned =>
          services = [serviceFor coalesce request registration group returned]
          ∧ returned.length = max 1 (request.rowsFor group.1 group.2).length)
        (invoke respond coalesce request group.1 registration
          (request.rowsFor group.1 group.2)) := by
  refine (performs_invoke respond coalesce registration request group.1 group.2 _).mono ?_
    fun _ _ served => served
  rintro services places call ⟨rfl, rfl, rfl⟩
  exact ⟨[], group, [], rfl, .nil, rfl, rfl⟩

/-- Without parameter rows, a part gets the single row set that is returned for it. -/
theorem performs_runRows_nil (none : request.params = []) (part : Part) (places : List Nat)
    : Performs respond
        (WantsNext coalesce request registration [(part, [0])])
        (ServesGroup coalesce request registration (part, [0]))
        (runRows respond coalesce request part registration places) := by
  have carried : request.rowsFor part [0] = [] := by simp [Request.rowsFor, none]
  have called := performs_call respond coalesce registration request (part, [0])
  simp only [carried] at called
  simp only [runRows, none, List.isEmpty_nil, ↓reduceIte]
  refine called.mono (fun _ _ _ wanted => wanted) ?_
  rintro services returned ⟨rfl, counted⟩
  obtain ⟨set, rfl⟩ := List.length_eq_one_iff.mp counted
  exact servesGroup_of_nil carried

/-- A part gets a row set for each of the parameter rows for which it is run. -/
theorem performs_runRows {group : Part × List Nat} (some : group.2 ≠ [])
    (below : ∀ place ∈ group.2, place < request.params.length)
    : Performs respond
        (WantsNext coalesce request registration [group])
        (ServesGroup coalesce request registration group)
        (runRows respond coalesce request group.1 registration group.2) := by
  obtain ⟨first, among⟩ := List.exists_mem_of_ne_nil group.2 some
  have given : request.params.isEmpty = false := by
    have inside := below first among
    rw [List.isEmpty_eq_false_iff, ← List.length_pos_iff]
    omega
  have called := performs_call respond coalesce registration request group
  simp only [runRows, given, Bool.false_eq_true, ↓reduceIte]
  cases reads : group.1.readsParams with
  | true =>
      have carried : request.rowsFor group.1 group.2
          = group.2.filterMap fun place => request.params[place]? := by
        simp [Request.rowsFor, reads]
      have each : (request.rowsFor group.1 group.2).length = group.2.length := by
        rw [carried]
        exact List.filterMap_length_eq_length.mpr fun place inside => by simp [below place inside]
      simp only [↓reduceIte]
      rw [← carried]
      refine called.mono (fun _ _ _ wanted => wanted) ?_
      rintro services returned ⟨rfl, counted⟩
      exact servesGroup_of_rows each some counted
  | false =>
      have carried : request.rowsFor group.1 group.2 = [] := by simp [Request.rowsFor, reads]
      rw [carried] at called
      simp only [Bool.false_eq_true, ↓reduceIte]
      refine called.bind ?_
      rintro services returned ⟨rfl, counted⟩
      exact .pure (servesGroup_of_nil carried)

/-- The groups are called for one after the other, by induction on them. -/
theorem performs_runGroups (groups : List (Part × List Nat))
    (each
      : ∀ group ∈ groups,
          group.2 ≠ [] ∧ ∀ place ∈ group.2, place < request.params.length)
    : Performs respond
        (WantsNext coalesce request registration groups)
        (fun services sets =>
          List.Forall₂ (ServedBy coalesce request registration) groups services
          ∧ sets = services.flatMap fun service => service.places.zip service.shares)
        (runGroups respond coalesce request registration groups) := by
  induction groups with
  | nil => exact .pure ⟨.nil, rfl⟩
  | cons group rest ih =>
      obtain ⟨some, below⟩ := each group List.mem_cons_self
      have first := performs_runRows respond coalesce registration some below
      refine (first.mono (fun _ _ _ wants => wants.append rest) fun _ _ served => served).bind ?_
      rintro services sets ⟨service, rfl, served, rfl⟩
      refine ((ih fun other inside => each other (List.mem_cons_of_mem _ inside)).mono
        (fun _ _ _ wants => wants.cons served) fun _ _ others => others).bind ?_
      rintro services sets ⟨others, rfl⟩
      refine .pure ⟨?_, ?_⟩
      · simpa using List.Forall₂.cons served others
      · simp [served.places]

end performs

-----------------------------------------------------------------------------------------
-- Running a part
-----------------------------------------------------------------------------------------

variable {part : Part} {outputs : Outputs}

theorem nodup_places_groupsFor (part : Part) (outputs : Outputs) (request : Request)
    : ((groupsFor part outputs request).flatMap Prod.snd).Nodup := by
  refine (places_groupsOf_perm _).nodup_iff.mpr ?_
  rw [List.map_map]
  exact (List.map_id (List.range _)).symm ▸ List.nodup_range

/-- There is always a first group, since there is always a first row. -/
theorem exists_wantsNext (coalesce : Bool) (registration : Registration ρ) (part : Part)
    (outputs : Outputs) (request : Request)
    : ∃ places call,
        WantsNext coalesce request registration (groupsFor part outputs request) [] places
          call := by
  have first : 0 < max 1 request.params.length := by omega
  obtain ⟨group, among, -⟩ := exists_mem_groupsOf part outputs first
  obtain ⟨head, rest, groups⟩ := List.exists_cons_of_ne_nil (List.ne_nil_of_mem among)
  exact ⟨_, _, [], head, rest, groups, .nil, rfl, rfl⟩

theorem ServedBy.part_eq {group : Part × List Nat} {service : Service ρ}
    (served : ServedBy coalesce request registration group service)
    : service.part = group.1 := by
  rw [Service.part, served.call]
  rfl

/-- A service for all places brings a row set for each of them. -/
theorem shares_eq_setFor {service : Service ρ} {count : Nat}
    (places : service.places = List.range count)
    (counted : service.shares.length = service.places.length)
    : service.shares = (List.range count).map (setFor [service] service.part.id) := by
  have shared := Table.map_get?_zip (places ▸ List.nodup_range) counted
  have found : ∀ place, setFor [service] service.part.id place
      = (Table.get? (service.places.zip service.shares) place).getD RowSet.empty := by
    intro place
    simp [setFor, Service.set?]
  calc service.shares
      = (service.shares.map some).map fun set => set.getD RowSet.empty := by
        simp [Function.comp_def]
    _ = (List.range count).map (setFor [service] service.part.id) := by
      rw [← shared, List.map_map, places]
      exact List.map_congr_left fun place _ => by rw [found, places]; rfl

/-- A part that does not depend on others sees no values. -/
theorem values_of_dependsOn_eq_nil (outputs : Outputs) {catalog : Catalog ρ} {tree : RuleTree}
    {plan : Plan}
    (wellFormed : plan.WellFormed catalog tree) (inside : part ∈ plan.parts)
    (none : part.dependsOn = []) (place : Nat)
    : (resolvedAt part outputs place).values = [] := by
  refine List.filterMap_eq_nil_iff.mpr fun operand read => ?_
  cases operand with
  | part id field =>
      have depends := (wellFormed.mem_dependsOn_iff inside id).mpr ⟨field, read⟩
      rw [none] at depends
      cases depends
  | literal | param | template | values => rfl

/-- Row sets that were gathered from services are found where they were brought. -/
theorem setFor_eq_get? {id : Nat} {services : List (Service ρ)}
    (same : ∀ service ∈ services, service.part.id = id) (place : Nat)
    : setFor services id place
      = (Table.get?
          (services.flatMap fun service => service.places.zip service.shares) place).getD
          RowSet.empty := by
  rw [setFor, Table.get?_flatMap]
  refine congrArg (fun set : Option RowSet => set.getD RowSet.empty) ?_
  induction services with
  | nil => rfl
  | cons service rest ih =>
      rw [List.findSome?_cons, List.findSome?_cons, ih fun other inside =>
        same other (List.mem_cons_of_mem _ inside), Service.set?,
        if_pos (same service List.mem_cons_self)]

/-- Whatever serves groups of a part is a service of the part. -/
theorem part_id_of_served {groups : List (Part × List Nat)} {services : List (Service ρ)}
    (among : groups ⊆ groupsFor part outputs request)
    (served : List.Forall₂ (ServedBy coalesce request registration) groups services)
    : ∀ service ∈ services, service.part.id = part.id := by
  intro service inside
  obtain ⟨group, here, servedBy⟩ := exists_of_forall₂ served service inside
  rw [servedBy.part_eq]
  exact id_of_mem_groupsOf (among here)

section

variable {catalog : Catalog ρ} {tree : RuleTree} {plan : Plan}
  (wellFormed : plan.WellFormed catalog tree) (inside : part ∈ plan.parts)
  (available : ∀ place < max 1 request.params.length, Available part outputs place)

/-- The runner gets the calls of all groups, and every row the set that was found for it. -/
def ServesGroups (coalesce : Bool) (registration : Registration ρ) (part : Part) (outputs : Outputs)
    (request : Request) (services : List (Service ρ)) (sets : List RowSet) : Prop :=
  List.Forall₂ (ServedBy coalesce request registration) (groupsFor part outputs request) services
  ∧ sets = (List.range (max 1 request.params.length)).map (setFor services part.id)

/-- A part that all rows see alike is called for once. -/
theorem performs_single {respond : Respond ρ} {action : Execution ρ (List RowSet)} {count : Nat}
    (single
      : groupsFor part outputs request = [((resolvedAt part outputs 0).part, List.range count)])
    (most : max 1 request.params.length = count)
    (performs
      : Performs respond
          (WantsNext coalesce request registration
            [((resolvedAt part outputs 0).part, List.range count)])
          (ServesGroup coalesce request registration
            ((resolvedAt part outputs 0).part, List.range count))
          action)
    : Performs respond
        (WantsNext coalesce request registration (groupsFor part outputs request))
        (ServesGroups coalesce registration part outputs request) action := by
  rw [single]
  refine performs.mono (fun _ _ _ wants => wants) ?_
  rintro services sets ⟨service, rfl, served, rfl⟩
  refine ⟨single ▸ .cons served .nil, ?_⟩
  have same : service.part.id = part.id := by
    rw [served.part_eq]
    rfl
  rw [most, ← same]
  exact shares_eq_setFor served.places served.counted

variable (respond : Respond ρ) (coalesce : Bool) (registration : Registration ρ)

include wellFormed inside

/-- A part that depends on no others is called for once, for all parameter rows. -/
theorem performs_runPart_of_independent (independent : part.dependsOn = [])
    (given : request.params ≠ [])
    : Performs respond
        (WantsNext coalesce request registration (groupsFor part outputs request))
        (ServesGroups coalesce registration part outputs request)
        (runPart respond coalesce request part registration outputs) := by
  have positive : 0 < request.params.length := List.length_pos_iff.mpr given
  have most : max 1 request.params.length = request.params.length := Nat.max_eq_right positive
  have single : groupsFor part outputs request
      = [((resolvedAt part outputs 0).part, List.range request.params.length)] := by
    rw [groupsFor, most]
    refine groupsOf_of_same positive fun place _ => ?_
    have unread := values_of_dependsOn_eq_nil outputs wellFormed inside independent
    rw [unread place, unread 0]
  refine performs_single single most ?_
  rw [runPart_of_independent independent, resolvedAt_of_dependsOn_eq_nil wellFormed inside
    independent]
  exact performs_runRows respond coalesce registration (by simpa using given)
    fun place below => List.mem_range.mp below

include available

/-- Without parameter rows, a part is called for once. -/
theorem performs_runPart_of_nil (none : request.params = [])
    : Performs respond
        (WantsNext coalesce request registration (groupsFor part outputs request))
        (ServesGroups coalesce registration part outputs request)
        (runPart respond coalesce request part registration outputs) := by
  have one : max 1 request.params.length = 1 := by simp [none]
  have single : groupsFor part outputs request
      = [((resolvedAt part outputs 0).part, List.range 1)] := by
    rw [groupsFor, one]
    exact groupsOf_of_same Nat.one_pos fun place below => by rw [Nat.lt_one_iff.mp below]
  refine performs_single single one ?_
  by_cases independent : part.dependsOn = []
  · rw [runPart_of_independent independent, resolvedAt_of_dependsOn_eq_nil wellFormed inside
      independent]
    exact performs_runRows_nil respond coalesce registration none part _
  · rw [runPart_of_nil independent available none]
    exact performs_runRows_nil respond coalesce registration none _ _

omit wellFormed inside in
/-- A part that depends on others is called for group by group. -/
theorem performs_runPart_of_dependent (dependent : part.dependsOn ≠ [])
    (given : request.params ≠ [])
    : Performs respond
        (WantsNext coalesce request registration (groupsFor part outputs request))
        (ServesGroups coalesce registration part outputs request)
        (runPart respond coalesce request part registration outputs) := by
  have most : max 1 request.params.length = request.params.length :=
    Nat.max_eq_right (List.length_pos_iff.mpr given)
  have each : ∀ group ∈ groupsFor part outputs request,
      group.2 ≠ [] ∧ ∀ place ∈ group.2, place < request.params.length := by
    intro group among
    obtain ⟨some, sees⟩ := part_of_mem_groupsOf available among
    exact ⟨some, fun place of => most ▸ (sees place of).1⟩
  have called := performs_runGroups respond coalesce registration _ each
  rw [runPart_of_ne_nil dependent available given]
  rw [groupsFor, most] at called ⊢
  refine called.bind ?_
  rintro services sets ⟨served, rfl⟩
  rw [← most, ← groupsFor] at served
  refine .pure ⟨by simpa using served, ?_⟩
  rw [most]
  refine List.map_congr_left fun place _ => ?_
  rw [List.append_nil, setFor_eq_get? (part_id_of_served (List.Subset.refl _) served)]

/-- A part of which all dependencies have an output is called for group by group. -/
theorem performs_runPart
    : Performs respond
        (WantsNext coalesce request registration (groupsFor part outputs request))
        (ServesGroups coalesce registration part outputs request)
        (runPart respond coalesce request part registration outputs) := by
  by_cases none : request.params = []
  · exact performs_runPart_of_nil wellFormed inside available respond coalesce registration none
  · by_cases independent : part.dependsOn = []
    · exact performs_runPart_of_independent wellFormed inside respond coalesce registration
        independent none
    · exact performs_runPart_of_dependent available respond coalesce registration independent none

end

end Execution

end FederatedQuery
