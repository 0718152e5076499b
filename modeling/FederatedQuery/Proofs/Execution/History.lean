import FederatedQuery.Proofs.Execution.Tracking

/-! The history of an execution: all the calls that it has made, and what it has come to. Once a
runner fails or leaves the execution cancelled, no runner is called again.
-/

namespace FederatedQuery

variable {ρ : Type}

/-- The calls that an execution has made: those that were answered as they should be and, if there
is one, the call at which it failed, with the places of its parameter rows.
-/
structure History (ρ : Type) where
  services : List (Service ρ)
  failed : Option (List Nat × Call ρ)

namespace History

/-- The calls, each with the places of its parameter rows. -/
def made (history : History ρ) : List (List Nat × Call ρ) :=
  history.services.map (fun service => (service.places, service.call)) ++ history.failed.toList

def calls (history : History ρ) : List (Call ρ) := history.made.map Prod.snd

/-- The calls have been made between two stages of an execution, with these answers. Only the last
of them may have failed or left the execution cancelled.
-/
structure Records (respond : Respond ρ) (before after : Progress ρ) (history : History ρ)
    : Prop where
  calls : after.calls = before.calls ++ history.calls
  idle : before.cancelled = true → history.made = []
  answered
    : ∀ earlier service later,
        history.services = earlier ++ service :: later
        → ∃ cancels,
            respond (before.calls ++ earlier.map Service.call) service.call
              = ⟨.sets service.sets, cancels⟩
            ∧ service.sets.length = service.call.request.expectedSets
            ∧ (cancels = true → later = [] ∧ history.failed = none)
  failed
    : ∀ places call,
        history.failed = some (places, call)
        → let reply := (respond (before.calls ++ history.services.map Service.call) call).reply
          reply = .silence ∨ (reply.fault? call.request.expectedSets).isSome = true

/-- An execution that does not go on has no history. -/
theorem records_nil (respond : Respond ρ) {before after : Progress ρ} (still : after = before)
    : (⟨[], none⟩ : History ρ).Records respond before after := by
  subst still
  constructor <;> simp [calls, made]

/-- Every call keeps to the contract of the plan that was compiled. -/
def KeepsContract (catalog : Catalog ρ) (compiled : Except StructuralError Plan)
    (request : Request) (history : History ρ)
    : Prop :=
  ∀ (index : Nat) places call,
    history.made[index]? = some (places, call)
    → ∃ plan,
        compiled = .ok plan
        ∧ Contract catalog plan request (history.services.take index) places call

theorem keepsContract_nil (catalog : Catalog ρ) (compiled : Except StructuralError Plan)
    (request : Request)
    : (⟨[], none⟩ : History ρ).KeepsContract catalog compiled request := by
  intro index places call here
  simp [made] at here

variable {history : History ρ} {earlier later : List (Call ρ)} {call : Call ρ}

theorem KeepsContract.of_mem {catalog : Catalog ρ} {compiled : Except StructuralError Plan}
    {request : Request} (keeps : history.KeepsContract catalog compiled request)
    {service : Service ρ} (inside : service ∈ history.services)
    : ∃ plan past,
        compiled = .ok plan ∧ Contract catalog plan request past service.places service.call := by
  obtain ⟨index, here⟩ := List.getElem?_of_mem inside
  have below := (List.getElem?_eq_some_iff.mp here).1
  have made : history.made[index]? = some (service.places, service.call) := by
    rw [History.made, List.getElem?_append_left (by simpa using below), List.getElem?_map, here]
    rfl
  obtain ⟨plan, known, contract⟩ := keeps index _ _ made
  exact ⟨plan, _, known, contract⟩

/-- A call is that of a service, or the one at which the execution failed. -/
theorem of_calls_eq (split : history.calls = earlier ++ call :: later)
    : (∃ before service rest,
        history.services = before ++ service :: rest
        ∧ earlier = before.map Service.call
        ∧ call = service.call
        ∧ later = rest.map Service.call ++ history.failed.toList.map Prod.snd)
      ∨ ∃ places,
        history.failed = some (places, call)
        ∧ earlier = history.services.map Service.call
        ∧ later = [] := by
  have served {others : List (Call ρ)}
      (calls : history.services.map Service.call = earlier ++ call :: others)
      : ∃ before service rest,
          history.services = before ++ service :: rest
          ∧ earlier = before.map Service.call
          ∧ call = service.call
          ∧ others = rest.map Service.call := by
    obtain ⟨before, _, services, rfl, following⟩ := List.map_eq_append_iff.mp calls
    obtain ⟨service, rest, rfl, rfl, rfl⟩ := List.map_eq_cons_iff.mp following
    exact ⟨before, service, rest, services, rfl, rfl, rfl⟩
  have calls : history.services.map Service.call ++ history.failed.toList.map Prod.snd
      = earlier ++ call :: later := by
    rw [← split, History.calls, made, List.map_append, List.map_map]
    rfl
  cases failed : history.failed with
  | none =>
      obtain ⟨before, service, rest, services, same⟩ := served (by simpa [failed] using calls)
      exact .inl ⟨before, service, rest, services, by simpa using same⟩
  | some last =>
      obtain ⟨places, other⟩ := last
      rw [failed] at calls
      rcases List.eq_nil_or_concat' later with rfl | ⟨others, final, rfl⟩
      · obtain ⟨rfl, same⟩ := List.append_inj' calls rfl
        obtain rfl : other = call := List.cons.inj same |>.1
        exact .inr ⟨places, rfl, rfl, rfl⟩
      · rw [← List.cons_append, ← List.append_assoc] at calls
        obtain ⟨others, same⟩ := List.append_inj' calls rfl
        obtain ⟨before, service, rest, services, rfl, rfl, rfl⟩ := served others
        exact .inl ⟨before, service, rest, services, rfl, rfl, by rw [← same]⟩

/-- No call follows one that failed or left the execution cancelled. -/
theorem Records.eq_nil_of_stops {respond : Respond ρ} {before after : Progress ρ}
    (records : history.Records respond before after)
    (split : history.calls = earlier ++ call :: later)
    (stops
      : let answer := respond (before.calls ++ earlier) call
        (answer.reply.fault? call.request.expectedSets).isSome = true ∨ answer.cancels = true)
    : later = [] := by
  rcases of_calls_eq split with ⟨first, service, rest, services, rfl, rfl, rfl⟩ | ⟨_, _, _, none⟩
  · obtain ⟨cancels, answer, counted, last⟩ := records.answered first service rest services
    simp only [answer, Reply.fault?_sets counted] at stops
    obtain ⟨rfl, none⟩ := last (by simpa using stops)
    simp [none]
  · exact none

end History

namespace Execution

/-- What the execution of a plan has come to, after the calls of its history. -/
inductive Concludes (catalog : Catalog ρ) (plan : Plan) (request : Request) (respond : Respond ρ)
    (before : Progress ρ)
    : History ρ → Except ExecutionError (List RowSet) → Prop
  /-- Everything was run, and the root part has found the result. -/
  | finished {services : List (Service ρ)} (ran : RanThrough plan request services)
    : Concludes catalog plan request respond before ⟨services, none⟩
        (.ok ((List.range (max 1 request.params.length)).map (setFor services 0)))
  /-- A further call was wanted, but the execution had been cancelled. -/
  | cancelled {services : List (Service ρ)} {places : List Nat} {call : Call ρ}
      (wanted : Contract catalog plan request services places call)
    : Concludes catalog plan request respond before ⟨services, none⟩ (.error .cancelled)
  /-- The last call was not answered before the execution was cancelled. -/
  | silent {services : List (Service ρ)} {places : List Nat} {call : Call ρ}
      (wanted : Contract catalog plan request services places call)
      (silence
        : (respond (before.calls ++ services.map Service.call) call).reply = .silence)
    : Concludes catalog plan request respond before ⟨services, some (places, call)⟩
        (.error .cancelled)
  /-- The reply to the last call was faulty. -/
  | faulty {services : List (Service ρ)} {places : List Nat} {call : Call ρ} {source : String}
      (wanted : Contract catalog plan request services places call)
      (fault
        : (respond (before.calls ++ services.map Service.call) call).reply.fault?
            call.request.expectedSets
          = some source)
    : Concludes catalog plan request respond before ⟨services, some (places, call)⟩
        (.error (.backend call.request.part.bucket call.scope source))

variable {respond : Respond ρ} {progress middle after : Progress ρ} {services : List (Service ρ)}

/-- The services of an advance are recorded, with a call at the end that it was free to make. -/
theorem Advances.records (advances : Advances respond progress services middle)
    {failed : Option (List Nat × Call ρ)}
    (calls : after.calls = middle.calls ++ failed.toList.map Prod.snd)
    (free : middle.cancelled = true → failed = none)
    (ended
      : ∀ places call,
          failed = some (places, call)
          → let reply := (respond middle.calls call).reply
            reply = .silence ∨ (reply.fault? call.request.expectedSets).isSome = true)
    : (⟨services, failed⟩ : History ρ).Records respond progress after where
  calls := by
    rw [calls, advances.calls_eq, List.append_assoc, History.calls, History.made,
      List.map_append, List.map_map]
    rfl
  idle halted := by
    obtain ⟨rfl, rfl⟩ := advances.eq_of_cancelled halted
    simp [History.made, free halted]
  answered earlier service later split := by
    obtain rfl : services = earlier ++ service :: later := split
    obtain ⟨cancels, answer, counted, last⟩ := advances.answered
    refine ⟨cancels, answer, counted, fun cancelled => ?_⟩
    obtain ⟨none, halted⟩ := last cancelled
    exact ⟨none, free halted⟩
  failed places call same := by
    rw [← advances.calls_eq]
    exact ended places call same

variable {catalog : Catalog ρ} {tree : RuleTree} {plan : Plan}
  {request : Request}

/-- The execution of a plan that has the parameter rows that it reads has a history of calls that
keep to the contract.
-/
theorem runPlan_history (respond : Respond ρ) (coalesce : Bool)
    (wellFormed : plan.WellFormed catalog tree)
    (given : plan.readsParams = true → request.params ≠ []) (progress : Progress ρ)
    : let ran := (runPlan catalog respond coalesce plan request).run.run progress
      ∃ history : History ρ,
        history.Records respond progress ran.2
        ∧ Honoured catalog plan request history.services
        ∧ Concludes catalog plan request respond progress history ran.1 := by
  intro ran
  obtain ⟨services, middle, advances, ends⟩ :=
    performs_runPlan respond coalesce wellFormed given progress
  change Ends respond _ _ services middle ran at ends
  cases pair : ran with
  | mk result after =>
      rw [pair] at ends
      cases ends with
      | value finished =>
          obtain ⟨honoured, ranThrough, rfl⟩ := finished
          refine ⟨⟨services, none⟩, ?_, honoured, .finished ranThrough⟩
          exact advances.records (by simp) (fun _ => rfl) (by simp)
      | @call places call error _ wanted stops =>
          obtain ⟨honoured, contract⟩ := wanted
          cases stops with
          | cancelled halted =>
              refine ⟨⟨services, none⟩, ?_, honoured, .cancelled contract⟩
              exact advances.records (by simp) (fun _ => rfl) (by simp)
          | silent active silence =>
              refine ⟨⟨services, some (places, call)⟩, ?_, honoured, .silent contract ?_⟩
              · refine advances.records (by simp) (fun halted => by simp [active] at halted) ?_
                rintro _ _ ⟨⟩
                exact .inl silence
              · rwa [← advances.calls_eq]
          | faulty active fault =>
              refine ⟨⟨services, some (places, call)⟩, ?_, honoured, .faulty contract ?_⟩
              · refine advances.records (by simp) (fun halted => by simp [active] at halted) ?_
                rintro _ _ ⟨⟩
                exact .inr (Option.isSome_iff_exists.mpr ⟨_, fault⟩)
              · rwa [← advances.calls_eq]

/-- Every call that was made keeps to the contract, the one at which the execution failed, too. -/
theorem Concludes.contract {history : History ρ} {result : Except ExecutionError (List RowSet)}
    (concludes : Concludes catalog plan request respond progress history result)
    (honoured : Honoured catalog plan request history.services) {index : Nat} {places : List Nat}
    {call : Call ρ} (here : history.made[index]? = some (places, call))
    : Contract catalog plan request (history.services.take index) places call := by
  rw [History.made] at here
  rcases Nat.lt_or_ge index history.services.length with below | above
  · rw [List.getElem?_append_left (by simpa using below), List.getElem?_map,
      Option.map_eq_some_iff] at here
    obtain ⟨service, known, same⟩ := here
    obtain ⟨rfl, rfl⟩ := Prod.mk.inj same
    exact honoured index service known
  · rw [List.getElem?_append_right (by simpa using above), List.length_map] at here
    rw [List.take_of_length_le above]
    -- only the call at which the execution failed is left
    cases concludes with
    | finished | cancelled => simp at here
    | silent wanted | faulty wanted =>
        rw [Option.toList_some] at here
        obtain ⟨rfl, rfl⟩ := Prod.mk.inj (List.mem_singleton.mp (List.mem_of_getElem? here))
        exact wanted

/-- When the last call failed, this is the error that is reported, with the bucket of the part and
the scope of its runner.
-/
theorem Concludes.eq_backend {history : History ρ} {before : Progress ρ}
    {result : Except ExecutionError (List RowSet)}
    (concludes : Concludes catalog plan request respond before history result)
    (records : history.Records respond before after) {earlier : List (Call ρ)} {call : Call ρ}
    (split : history.calls = earlier ++ [call]) {source : String}
    (fault
      : (respond (before.calls ++ earlier) call).reply.fault? call.request.expectedSets
        = some source)
    : ∃ registration,
        catalog.get? call.request.part.bucket = some registration
        ∧ call.runner = registration.runner
        ∧ result = .error (.backend call.request.part.bucket registration.scope source) := by
  rcases History.of_calls_eq split with
    ⟨first, service, rest, services, rfl, rfl, -⟩ | ⟨places, failed, rfl, -⟩
  · obtain ⟨cancels, answer, counted, -⟩ := records.answered first service rest services
    rw [answer, Reply.fault?_sets counted] at fault
    cases fault
  · cases concludes with
    | finished | cancelled => cases failed
    | silent wanted silence =>
        cases failed
        rw [silence] at fault
        cases fault
    | faulty wanted found =>
        cases failed
        obtain rfl := Option.some.inj (found.symm.trans fault)
        obtain ⟨registration, registered, runner, scope, -⟩ := wanted.runner
        exact ⟨registration, registered, runner, by rw [scope]⟩

/-- When the last call did not fail, but some part has not been completed, the execution was
cancelled.
-/
theorem Concludes.eq_cancelled {history : History ρ} {before : Progress ρ}
    {result : Except ExecutionError (List RowSet)}
    (concludes : Concludes catalog plan request respond before history result)
    {earlier : List (Call ρ)} {call : Call ρ} (split : history.calls = earlier ++ [call])
    (sound
      : (respond (before.calls ++ earlier) call).reply.fault? call.request.expectedSets = none)
    (incomplete : ¬∀ part ∈ plan.parts, Completed request history.services part.id)
    : result = .error .cancelled := by
  cases concludes with
  | finished ran => exact absurd (fun part inside => ran.completed inside) incomplete
  | cancelled | silent => rfl
  | @faulty services _ other _ _ fault =>
      have calls : services.map Service.call ++ [other] = earlier ++ [call] := by
        rw [← split, History.calls, History.made, List.map_append, List.map_map]
        rfl
      obtain ⟨rfl, same⟩ := List.append_inj' calls rfl
      obtain rfl := List.singleton_inj.mp same
      cases fault.symm.trans sound

/-- An execution succeeds if and only if all parts of the plan have been completed. -/
theorem Concludes.isOk_iff {history : History ρ} {before : Progress ρ}
    {result : Except ExecutionError (List RowSet)} (wellFormed : plan.WellFormed catalog tree)
    (concludes : Concludes catalog plan request respond before history result)
    : (∃ sets, result = .ok sets)
      ↔ ∀ part ∈ plan.parts, Completed request history.services part.id := by
  cases concludes with
  | finished ran => exact iff_of_true ⟨_, rfl⟩ fun part inside => ran.completed inside
  | cancelled wanted | silent wanted | faulty wanted =>
      obtain ⟨part, inside, incomplete⟩ := wanted.exists_incomplete wellFormed
      exact iff_of_false (by simp) fun completed => incomplete (completed part inside)

end Execution

end FederatedQuery
