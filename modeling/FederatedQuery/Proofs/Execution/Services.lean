import FederatedQuery.Proofs.Execution.Completion
import FederatedQuery.Proofs.Execution.Resolution

/-! What an execution asks of runners. An action is described by the calls that were answered as
they should be when it ends: with its value, or at a further call, which fails or which the
cancellation of the execution forbids.
-/

namespace FederatedQuery

variable {ρ : Type}

/-- What is wrong with the reply to a call for so many row sets, if anything. -/
def Reply.fault? (expected : Nat) : Reply → Option String
  | .sets returned =>
      if returned.length = expected then none
      else
        some ("runner returned " ++ Nat.repr returned.length ++ " row sets, expected "
          ++ Nat.repr expected)
  | .failure source => some source
  | .silence => none

theorem Reply.fault?_sets {returned : List RowSet} {expected : Nat}
    (counted : returned.length = expected)
    : (Reply.sets returned).fault? expected = none :=
  if_pos counted

/-- A call that was answered with as many row sets as it was made for, and the places of the
parameter rows to which these belong. Without parameter rows there is one place.
-/
structure Service (ρ : Type) where
  places : List Nat
  call : Call ρ
  sets : List RowSet

namespace Service

/-- The part that was run. -/
def part (service : Service ρ) : Part := service.call.request.part

/-- The part was run for the parameter row in the place. -/
def serves (service : Service ρ) (id place : Nat) : Bool :=
  service.part.id = id ∧ place ∈ service.places

theorem serves_iff (service : Service ρ) (id place : Nat)
    : service.serves id place = true ↔ service.part.id = id ∧ place ∈ service.places := by
  simp [serves]

/-- A row set for each place. All of them share a single one if the call carried no parameter
rows.
-/
def shares (service : Service ρ) : List RowSet :=
  if service.call.request.params.isEmpty then
    List.replicate service.places.length (service.sets.headD RowSet.empty)
  else service.sets

/-- The row set that a part has found for a parameter row. -/
def set? (service : Service ρ) (id place : Nat) : Option RowSet :=
  if service.part.id = id then Table.get? (service.places.zip service.shares) place else none

end Service

/-- The row set that a part has found for a parameter row, if it was run for it. -/
def setFor (services : List (Service ρ)) (id place : Nat) : RowSet :=
  (services.findSome? fun service => service.set? id place).getD RowSet.empty

/-- What holds of no rows and of all row sets that calls of a part have brought holds of what the
part has found for a parameter row.
-/
theorem setFor_of_forall {P : RowSet → Prop} (empty : P RowSet.empty)
    {services : List (Service ρ)} {id : Nat}
    (each : ∀ service ∈ services, service.part.id = id → ∀ set ∈ service.sets, P set) (place : Nat)
    : P (setFor services id place) := by
  rw [setFor]
  cases found : services.findSome? fun service => service.set? id place with
  | none => exact empty
  | some set =>
      obtain ⟨service, inside, here⟩ := List.exists_of_findSome?_eq_some found
      simp only [Service.set?] at here
      split at here
      · next same =>
        have share := (List.of_mem_zip (Table.mem_of_get? here)).2
        simp only [Service.shares] at share
        split at share
        · obtain rfl := List.eq_of_mem_replicate share
          cases returned : service.sets with
          | nil => exact empty
          | cons first rest => exact each service inside same _ (by simp [returned])
        · exact each service inside same set share
      · cases here

/-- The distinct values that a part has found for a parameter row. -/
def valuesFor (services : List (Service ρ)) (place id : Nat) (field : String) : List Value :=
  distinctColumn (setFor services id place).rows field

namespace Execution

/-- The execution goes from one progress to another by calls that are answered as they should be.
Only the last of them may have left it cancelled.
-/
inductive Advances (respond : Respond ρ) : Progress ρ → List (Service ρ) → Progress ρ → Prop
  | nil (progress : Progress ρ) : Advances respond progress [] progress
  | cons {progress after : Progress ρ} {service : Service ρ} {rest : List (Service ρ)}
      {cancels : Bool} (active : progress.cancelled = false)
      (answer : respond progress.calls service.call = ⟨.sets service.sets, cancels⟩)
      (counted : service.sets.length = service.call.request.expectedSets)
      (further : Advances respond ⟨cancels, progress.calls ++ [service.call]⟩ rest after)
      : Advances respond progress (service :: rest) after

/-- The execution ends with an error at the call: because it was cancelled before, because the call
is not answered before it is cancelled, or because the reply is faulty.
-/
inductive Stops (respond : Respond ρ) (progress : Progress ρ) (call : Call ρ)
    : ExecutionError → Progress ρ → Prop
  | cancelled (halted : progress.cancelled = true) : Stops respond progress call .cancelled progress
  | silent (active : progress.cancelled = false)
      (silence : (respond progress.calls call).reply = .silence)
      : Stops respond progress call .cancelled ⟨true, progress.calls ++ [call]⟩
  | faulty {source : String} {cancelled : Bool} (active : progress.cancelled = false)
      (fault
        : (respond progress.calls call).reply.fault? call.request.expectedSets = some source)
      : Stops respond progress call
          (.backend call.request.part.bucket call.scope source)
          ⟨cancelled, progress.calls ++ [call]⟩

/-- How an action ends after the services it has had: with a value, or at a further call. -/
inductive Ends {α : Type} (respond : Respond ρ)
    (wants : List (Service ρ) → List Nat → Call ρ → Prop) (done : List (Service ρ) → α → Prop)
    (services : List (Service ρ)) (progress : Progress ρ)
    : Except ExecutionError α × Progress ρ → Prop
  | value {value : α} (finished : done services value)
      : Ends respond wants done services progress (.ok value, progress)
  | call {places : List Nat} {call : Call ρ} {error : ExecutionError} {after : Progress ρ}
      (wanted : wants services places call) (stops : Stops respond progress call error after)
      : Ends respond wants done services progress (.error error, after)

/-- Whatever the runners answer, the action makes the calls that are described. With the services
it has had, it is either done with a value, or it wants a call for some parameter rows.
-/
def Performs {α : Type} (respond : Respond ρ)
    (wants : List (Service ρ) → List Nat → Call ρ → Prop) (done : List (Service ρ) → α → Prop)
    (action : Execution ρ α)
    : Prop :=
  ∀ progress, ∃ services middle,
    Advances respond progress services middle
    ∧ Ends respond wants done services middle (action.run.run progress)

section

variable {respond : Respond ρ} {progress middle after : Progress ρ}
  {services later : List (Service ρ)}

theorem Advances.append (first : Advances respond progress services middle)
    (second : Advances respond middle later after)
    : Advances respond progress (services ++ later) after := by
  induction first with
  | nil => exact second
  | cons active answer counted _ ih => exact .cons active answer counted (ih second)

theorem Advances.calls_eq (advances : Advances respond progress services after)
    : after.calls = progress.calls ++ services.map Service.call := by
  induction advances with
  | nil => simp
  | cons _ _ _ _ ih => simp [ih]

/-- A cancelled execution makes no call. -/
theorem Advances.eq_of_cancelled (advances : Advances respond progress services after)
    (cancelled : progress.cancelled = true)
    : services = [] ∧ after = progress := by
  cases advances with
  | nil => exact ⟨rfl, rfl⟩
  | cons active => simp [active] at cancelled

/-- Each of the calls was answered as it should be, and none follows one that left the execution
cancelled. By induction on the calls before it.
-/
theorem Advances.answered {before rest : List (Service ρ)} {service : Service ρ}
    (advances : Advances respond progress (before ++ service :: rest) after)
    : ∃ cancels,
        respond (progress.calls ++ before.map Service.call) service.call
          = ⟨.sets service.sets, cancels⟩
        ∧ service.sets.length = service.call.request.expectedSets
        ∧ (cancels = true → rest = [] ∧ after.cancelled = true) := by
  induction before generalizing progress with
  | nil =>
      cases advances with
      | @cons _ _ _ _ cancels _ answer counted further =>
          refine ⟨cancels, by simpa using answer, counted, ?_⟩
          rintro rfl
          obtain ⟨none, rfl⟩ := further.eq_of_cancelled rfl
          exact ⟨none, rfl⟩
  | cons first others ih =>
      cases advances with
      | cons _ _ _ further =>
          obtain ⟨cancels, answer, rest⟩ := ih further
          exact ⟨cancels, by simpa using answer, rest⟩

end

namespace Performs

variable {α β : Type} {respond : Respond ρ}
  {wants : List (Service ρ) → List Nat → Call ρ → Prop}

theorem pure {done : List (Service ρ) → α → Prop} {value : α} (finished : done [] value)
    : Performs respond wants done (pure value : Execution ρ α) :=
  fun progress => ⟨[], progress, .nil progress, .value finished⟩

/-- A computation that ends in a value asks nothing of runners. -/
theorem lift {done : List (Service ρ) → α → Prop} {value : α} (finished : done [] value)
    : Performs respond wants done
        (liftM (Except.ok value : Except ExecutionError α) : Execution ρ α) :=
  fun progress => ⟨[], progress, .nil progress, .value finished⟩

/-- After an action, the next one adds to the services. -/
theorem bind {first : List (Service ρ) → α → Prop} {done : List (Service ρ) → β → Prop}
    {action : Execution ρ α} {next : α → Execution ρ β}
    (performs : Performs respond wants first action)
    (goesOn
      : ∀ services value,
          first services value
          → Performs respond (fun later => wants (services ++ later))
              (fun later => done (services ++ later)) (next value))
    : Performs respond wants done (action >>= next) := by
  intro progress
  obtain ⟨services, middle, advances, ends⟩ := performs progress
  simp only [ExceptT.run_bind, StateT.run_bind]
  cases ran : action.run.run progress with
  | mk result reached =>
      rw [ran] at ends
      cases ends with
      | call wanted stops => exact ⟨services, middle, advances, .call wanted stops⟩
      | @value value finished =>
          obtain ⟨later, after, advancesOn, endsOn⟩ := goesOn services value finished middle
          refine ⟨services ++ later, after, advances.append advancesOn, ?_⟩
          change Ends respond wants done (services ++ later) after
            ((next value).run.run middle)
          cases ranOn : (next value).run.run middle with
          | mk resultOn reachedOn =>
              rw [ranOn] at endsOn
              cases endsOn with
              | value finishedOn => exact .value finishedOn
              | call wanted stops => exact .call wanted stops

theorem mono {done done' : List (Service ρ) → α → Prop}
    {wants' : List (Service ρ) → List Nat → Call ρ → Prop} {action : Execution ρ α}
    (performs : Performs respond wants done action)
    (weakenWants : ∀ services places call, wants services places call → wants' services places call)
    (weakenDone : ∀ services value, done services value → done' services value)
    : Performs respond wants' done' action := by
  intro progress
  obtain ⟨services, middle, advances, ends⟩ := performs progress
  refine ⟨services, middle, advances, ?_⟩
  cases ran : action.run.run progress with
  | mk result reached =>
      rw [ran] at ends
      cases ends with
      | value finished => exact .value (weakenDone _ _ finished)
      | call wanted stops => exact .call (weakenWants _ _ _ wanted) stops

/-- An action that wants a call anyway may look first whether the execution is cancelled. -/
theorem unlessCancelled {done : List (Service ρ) → α → Prop} {action : Execution ρ α}
    (wanted : ∃ places call, wants [] places call) (performs : Performs respond wants done action)
    : Performs respond wants done
        (do
          if (← get).cancelled then throw .cancelled
          action) := by
  intro progress
  rw [run_get]
  cases halted : progress.cancelled with
  | true =>
      obtain ⟨places, call, wanted⟩ := wanted
      exact ⟨[], progress, .nil progress, .call wanted (.cancelled halted)⟩
  | false => exact performs progress

end Performs

end Execution

end FederatedQuery
