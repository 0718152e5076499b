import FederatedQuery.Plan.ExecutionOrder
import Mathlib.Data.Fintype.EquivFin
import Mathlib.Data.List.Perm.Subperm

/-! Orders of parts respect their dependencies. A schedule counts, for every part, the listed
dependencies that have not run; the parts that wait for none of them and have not run are ready,
in ascending order. Running the first ready part keeps the schedule consistent.
-/

namespace FederatedQuery

/-- The dependencies listed for a part. -/
def listed (dependencies : List (List Nat)) (id : Nat) : List Nat := dependencies.getD id []

/-- A part waits for what is listed for it. -/
def WaitsFor (dependencies : List (List Nat)) (id dependency : Nat) : Prop :=
  dependency ∈ listed dependencies id

theorem lt_of_waitsFor {dependencies : List (List Nat)} {id dependency : Nat}
    (waits : WaitsFor dependencies id dependency)
    : id < dependencies.length := by
  by_contra outside
  have none : dependencies[id]? = none := List.getElem?_eq_none (by omega)
  simp [WaitsFor, listed, none] at waits

/-- Every part of the order comes after all that is listed for it. -/
def Follows (dependencies : List (List Nat)) (order : List Nat) : Prop :=
  ∀ before id after,
    order = before ++ id :: after → ∀ dependency ∈ listed dependencies id, dependency ∈ before

/-- A part may be added to an order that respects the dependencies if all that is listed for it
is in the order.
-/
theorem Follows.concat {dependencies : List (List Nat)} {order : List Nat} {id : Nat}
    (follows : Follows dependencies order)
    (included : ∀ dependency ∈ listed dependencies id, dependency ∈ order)
    : Follows dependencies (order ++ [id]) := by
  intro before next after shape dependency waits
  rcases List.eq_nil_or_concat after with rfl | ⟨rest, last, rfl⟩
  · obtain ⟨rfl, same⟩ := List.append_inj' shape rfl
    obtain rfl : id = next := by simpa using same
    exact included dependency waits
  · have shape' : order ++ [id] = (before ++ next :: rest) ++ [last] := by
      simpa using shape
    obtain ⟨rfl, _⟩ := List.append_inj' shape' rfl
    exact follows before next rest rfl dependency waits

theorem Follows.mem {dependencies : List (List Nat)} {order : List Nat}
    (follows : Follows dependencies order) {id : Nat} (inside : id ∈ order)
    : ∀ dependency ∈ listed dependencies id, dependency ∈ order := by
  intro dependency waits
  obtain ⟨before, after, rfl⟩ := List.append_of_mem inside
  exact List.mem_append_left _ (follows before id after rfl dependency waits)

namespace Schedule

-----------------------------------------------------------------------------------------
-- Parts that wait for a part
-----------------------------------------------------------------------------------------

/-- A part waits for another as often as it lists it. -/
theorem count_dependents (dependencies : List (List Nat)) (id part : Nat)
    : (dependents dependencies id).count part = (listed dependencies part).count id := by
  have shifted (start : Nat)
      : ((dependencies.zipIdx start).flatMap fun entry =>
          List.replicate (entry.1.count id) entry.2).count part
        = if start ≤ part then (listed dependencies (part - start)).count id else 0 := by
    induction dependencies generalizing start with
    | nil => simp [listed]
    | cons first rest ih =>
        simp only [List.zipIdx_cons, List.flatMap_cons, List.count_append, ih,
          List.count_replicate]
        rcases Nat.lt_trichotomy start part with below | rfl | above
        · have next : part - start = part - (start + 1) + 1 := by omega
          simp [listed, next, Nat.ne_of_lt below, Nat.le_of_lt below, Nat.succ_le_of_lt below]
        · rw [if_neg (Nat.not_succ_le_self start)]
          simp [listed]
        · simp [Nat.ne_of_gt above, Nat.not_le.mpr above, Nat.not_le.mpr (Nat.lt_succ_of_lt above)]
  simpa [dependents] using shifted 0

theorem mem_dependents_iff {dependencies : List (List Nat)} {id part : Nat}
    : part ∈ dependents dependencies id ↔ WaitsFor dependencies part id := by
  rw [← List.count_pos_iff, count_dependents, List.count_pos_iff, WaitsFor]

-----------------------------------------------------------------------------------------
-- Releasing parts
-----------------------------------------------------------------------------------------

theorem mem_insertReady_iff (id other : Nat) (ready : List Nat)
    : other ∈ insertReady id ready ↔ other = id ∨ other ∈ ready := by
  induction ready with
  | nil => simp [insertReady]
  | cons head rest ih =>
      simp only [insertReady]
      split
      · simp
      · split
        · next same => simp [same]
        · simp only [List.mem_cons, ih]
          exact or_left_comm

theorem ascending_insertReady {ready : List Nat} (ascending : ready.Pairwise (· < ·))
    (id : Nat)
    : (insertReady id ready).Pairwise (· < ·) := by
  induction ready with
  | nil => simp [insertReady]
  | cons head rest ih =>
      obtain ⟨least, restAscending⟩ := List.pairwise_cons.mp ascending
      simp only [insertReady]
      split
      · next below =>
        refine List.pairwise_cons.mpr ⟨fun other inside => ?_, ascending⟩
        rcases List.mem_cons.mp inside with rfl | inside
        · exact below
        · exact Nat.lt_trans below (least other inside)
      · split
        · exact ascending
        · next notBelow different =>
          refine List.pairwise_cons.mpr ⟨fun other inside => ?_, ih restAscending⟩
          rcases (mem_insertReady_iff ..).mp inside with rfl | inside
          · omega
          · exact least other inside

/-- A released part waits for one dependency less, and every other part for as many. -/
theorem waiting_release {schedule : Schedule} {id : Nat}
    (inside : id < schedule.waiting.length) (part : Nat)
    : (schedule.release id).waiting.getD part 0
      = schedule.waiting.getD part 0 - if id = part then 1 else 0 := by
  simp only [release, List.getD_eq_getElem?_getD, List.getElem?_set]
  split
  · next same => subst same; simp [inside]
  · rfl

/-- A released part is ready if it waited for one dependency at most. -/
theorem mem_ready_release_iff (schedule : Schedule) (id part : Nat)
    : part ∈ (schedule.release id).ready
      ↔ part ∈ schedule.ready ∨ part = id ∧ schedule.waiting.getD id 0 ≤ 1 := by
  simp only [release]
  split
  · rw [mem_insertReady_iff]
    constructor
    · intro either
      rcases either with same | known
      · exact Or.inr ⟨same, by omega⟩
      · exact Or.inl known
    · intro either
      rcases either with known | ⟨same, _⟩
      · exact Or.inr known
      · exact Or.inl same
  · constructor
    · exact Or.inl
    · intro either
      rcases either with known | ⟨_, few⟩
      · exact known
      · omega

/-- Releasing parts of the plan takes as much from what a part waits for as it occurs among
them, by induction on the parts.
-/
theorem waiting_foldl_release (ids : List Nat) (schedule : Schedule)
    (inside : ∀ id ∈ ids, id < schedule.waiting.length) (part : Nat)
    : (ids.foldl release schedule).waiting.getD part 0
      = schedule.waiting.getD part 0 - ids.count part := by
  induction ids generalizing schedule with
  | nil => simp
  | cons id rest ih =>
      rw [List.foldl_cons, ih, waiting_release (inside id (by simp)), List.count_cons]
      · simp only [beq_iff_eq]
        split <;> omega
      · intro other among
        simpa [release] using inside other (by simp [among])

/-- Releasing parts leaves the number of parts and what has run as they are. -/
theorem frame_foldl_release (ids : List Nat) (schedule : Schedule)
    : (ids.foldl release schedule).waiting.length = schedule.waiting.length
      ∧ (ids.foldl release schedule).done = schedule.done := by
  induction ids generalizing schedule with
  | nil => simp
  | cons id rest ih => simpa [release] using ih (schedule.release id)

/-- Releasing parts makes those ready that then wait for nothing, by induction on the parts.
-/
theorem mem_ready_foldl_release_iff (ids : List Nat) (schedule : Schedule)
    (inside : ∀ id ∈ ids, id < schedule.waiting.length) (part : Nat)
    : part ∈ (ids.foldl release schedule).ready
      ↔ part ∈ schedule.ready
        ∨ part ∈ ids ∧ schedule.waiting.getD part 0 ≤ ids.count part := by
  induction ids generalizing schedule with
  | nil => simp
  | cons id rest ih =>
      have counted : part ∈ rest ↔ 0 < rest.count part := List.count_pos_iff.symm
      rw [List.foldl_cons, ih, mem_ready_release_iff, waiting_release (inside id (by simp)),
        List.count_cons, List.mem_cons, counted, or_assoc]
      · apply or_congr_right
        by_cases same : id = part
        · subst same
          simp only [true_and, true_or, ↓reduceIte, BEq.rfl]
          omega
        · simp [same, Ne.symm same]
      · intro other among
        simpa [release] using inside other (by simp [among])

theorem ascending_foldl_release (ids : List Nat) {schedule : Schedule}
    (ascending : schedule.ready.Pairwise (· < ·))
    : (ids.foldl release schedule).ready.Pairwise (· < ·) := by
  induction ids generalizing schedule with
  | nil => exact ascending
  | cons id rest ih =>
      apply ih
      simp only [release]
      split
      · exact ascending_insertReady ascending id
      · exact ascending

-----------------------------------------------------------------------------------------
-- Consistent schedules
-----------------------------------------------------------------------------------------

/-- The listed dependencies of a part that have not run. -/
def missing (dependencies : List (List Nat)) (done : List Nat) (id : Nat) : Nat :=
  (listed dependencies id).countP fun dependency => !done.contains dependency

/-- A part that has not run is missing as often as it is listed. -/
theorem count_le_countP {done : List Nat} {next : Nat} (fresh : next ∉ done) (ids : List Nat)
    : ids.count next ≤ ids.countP fun dependency => !done.contains dependency := by
  refine List.countP_mono_left fun dependency _ same => ?_
  simpa [eq_of_beq same] using fresh

/-- A part that runs is no longer missing, as often as it was listed. -/
theorem missing_concat (dependencies : List (List Nat)) {done : List Nat} {next : Nat}
    (fresh : next ∉ done) (id : Nat)
    : missing dependencies (done ++ [next]) id
      = missing dependencies done id - (listed dependencies id).count next := by
  simp only [missing]
  induction listed dependencies id with
  | nil => simp
  | cons head rest ih =>
      have bound := count_le_countP fresh rest
      rw [List.countP_cons, List.countP_cons, List.count_cons, ih]
      by_cases same : head = next
      · subst same
        simp [fresh]
      · have other : (done ++ [next]).contains head = done.contains head := by
          simp [same]
        simp only [other, beq_iff_eq, same, ↓reduceIte, Nat.add_zero]
        omega

/-- The schedule counts what each part misses; the parts that miss nothing and have not run
are ready, in ascending order; what has run ran once, after its dependencies.
-/
structure Consistent (dependencies : List (List Nat)) (schedule : Schedule) : Prop where
  length : schedule.waiting.length = dependencies.length
  waiting : ∀ id, schedule.waiting.getD id 0 = missing dependencies schedule.done id
  ready
    : ∀ id,
        id ∈ schedule.ready
        ↔ id < dependencies.length
          ∧ id ∉ schedule.done
          ∧ missing dependencies schedule.done id = 0
  ascending : schedule.ready.Pairwise (· < ·)
  unique : schedule.done.Nodup
  known : ∀ id ∈ schedule.done, id < dependencies.length
  follows : Follows dependencies schedule.done

/-- A part that misses nothing has run after all that is listed for it. -/
theorem mem_done_of_missing_eq_zero {dependencies : List (List Nat)} {done : List Nat}
    {id : Nat} (complete : missing dependencies done id = 0)
    : ∀ dependency ∈ listed dependencies id, dependency ∈ done := by
  intro dependency waits
  simpa using List.countP_eq_zero.mp complete dependency waits

/-- The first schedule is consistent: nothing has run, so parts miss all that is listed. -/
theorem consistent_start (dependencies : List (List Nat))
    : Consistent dependencies (start dependencies) where
  length := by simp [start]
  waiting id := by
    have all : missing dependencies [] id = (listed dependencies id).length := by
      simp [missing]
    simp only [start, all, listed, List.getD_eq_getElem?_getD, List.getElem?_map]
    cases dependencies[id]? <;> rfl
  ready id := by
    have all : missing dependencies [] id = 0 ↔ listed dependencies id = [] := by
      simp [missing]
    simp only [start, List.mem_filter, List.mem_range, List.not_mem_nil, not_false_eq_true,
      true_and, all, and_congr_right_iff]
    intro below
    simp [listed, below]
  ascending := List.pairwise_lt_range.filter _
  unique := List.nodup_nil
  known := by simp [start]
  follows := by intro before id after shape; simp [start] at shape

/-- Running the first ready part keeps a schedule consistent. -/
theorem Consistent.step {dependencies : List (List Nat)} {schedule next : Schedule}
    (consistent : Consistent dependencies schedule)
    (stepped : step dependencies schedule = some next)
    : Consistent dependencies next ∧ ∃ id, next.done = schedule.done ++ [id] := by
  simp only [Schedule.step] at stepped
  split at stepped
  · cases stepped
  · next id rest readyEq =>
    obtain rfl := Option.some.inj stepped
    let ids := dependents dependencies id
    let base : Schedule := { schedule with ready := rest, done := schedule.done ++ [id] }
    obtain ⟨below, fresh, complete⟩ := (consistent.ready id).mp (by simp [readyEq])
    have included := mem_done_of_missing_eq_zero complete
    obtain ⟨least, restAscending⟩ := List.pairwise_cons.mp (readyEq ▸ consistent.ascending)
    have inPlan : ∀ part ∈ ids, part < base.waiting.length := fun part waits =>
      consistent.length.symm ▸ lt_of_waitsFor (mem_dependents_iff.mp waits)
    obtain ⟨length, done⟩ := frame_foldl_release ids base
    refine ⟨{
      length := length.trans consistent.length
      waiting := fun part => ?_
      ready := fun part => ?_
      ascending := ascending_foldl_release ids restAscending
      unique := ?_
      known := ?_
      follows := done ▸ consistent.follows.concat included
    }, id, done⟩
    · rw [waiting_foldl_release ids base inPlan, done, missing_concat _ fresh,
        count_dependents]
      exact congrArg (· - _) (consistent.waiting part)
    · rw [mem_ready_foldl_release_iff ids base inPlan, done, missing_concat _ fresh,
        count_dependents]
      have readyPart := consistent.ready part
      have waitingPart : base.waiting.getD part 0 = missing dependencies schedule.done part :=
        consistent.waiting part
      rw [waitingPart]
      simp only [readyEq, List.mem_cons] at readyPart
      simp only [base, List.mem_append, List.mem_singleton, not_or]
      constructor
      · intro either
        rcases either with known | ⟨waits, few⟩
        · obtain ⟨inside, absent, none⟩ := readyPart.mp (Or.inr known)
          exact ⟨inside, ⟨absent, Nat.ne_of_gt (least part known)⟩, by omega⟩
        · have lists : WaitsFor dependencies part id := mem_dependents_iff.mp waits
          -- a part that lists `id` cannot have run before it, nor be `id` itself
          refine ⟨lt_of_waitsFor lists, ⟨fun ran => ?_, fun same => ?_⟩, by omega⟩
          · exact fresh (consistent.follows.mem ran id lists)
          · exact fresh (included id (same ▸ lists))
      · rintro ⟨inside, ⟨absent, different⟩, few⟩
        by_cases lists : id ∈ listed dependencies part
        · exact Or.inr ⟨mem_dependents_iff.mpr lists, by omega⟩
        · have unlisted := List.count_eq_zero.mpr lists
          exact Or.inl ((readyPart.mpr ⟨inside, absent, by omega⟩).resolve_left different)
    · rw [done]
      exact List.nodup_append.mpr ⟨consistent.unique, by simp, by
        intro a ran b last same
        exact fresh (List.mem_singleton.mp last ▸ same ▸ ran)⟩
    · rw [done]
      intro part ran
      rcases List.mem_append.mp ran with ran | last
      · exact consistent.known part ran
      · exact List.mem_singleton.mp last ▸ below

theorem Consistent.run {dependencies : List (List Nat)} {schedule : Schedule}
    (consistent : Consistent dependencies schedule) (fuel : Nat)
    : Consistent dependencies (run dependencies fuel schedule) := by
  induction fuel generalizing schedule with
  | zero => exact consistent
  | succ fuel ih =>
      simp only [Schedule.run]
      split
      · exact consistent
      · next stepped => exact ih (consistent.step stepped).1

/-- When no part is ready, every part that has not run lists another that has not. -/
theorem Consistent.stuck {dependencies : List (List Nat)} {schedule : Schedule}
    (consistent : Consistent dependencies schedule) (none : schedule.ready = [])
    {id : Nat} (below : id < dependencies.length) (fresh : id ∉ schedule.done)
    : ∃ dependency ∈ listed dependencies id, dependency ∉ schedule.done := by
  by_contra complete
  push Not at complete
  have zero : missing dependencies schedule.done id = 0 :=
    List.countP_eq_zero.mpr fun dependency waits => by simpa using complete dependency waits
  have ready := (consistent.ready id).mpr ⟨below, fresh, zero⟩
  simp [none] at ready

theorem Consistent.subperm {dependencies : List (List Nat)} {schedule : Schedule}
    (consistent : Consistent dependencies schedule)
    : schedule.done.Subperm (List.range dependencies.length) :=
  List.subperm_of_subset consistent.unique fun id ran =>
    List.mem_range.mpr (consistent.known id ran)

/-- If a part is ready whenever not all have run, then all have run after as many steps as
there are parts left.
-/
theorem Consistent.run_complete {dependencies : List (List Nat)} {schedule : Schedule}
    (consistent : Consistent dependencies schedule)
    (progress
      : ∀ schedule,
          Consistent dependencies schedule
          → schedule.done.length < dependencies.length
          → schedule.ready ≠ [])
    (fuel : Nat) (enough : dependencies.length ≤ schedule.done.length + fuel)
    : (Schedule.run dependencies fuel schedule).done.length = dependencies.length := by
  induction fuel generalizing schedule with
  | zero =>
      have most := consistent.subperm.length_le
      simp only [List.length_range] at most
      simp only [Schedule.run]
      omega
  | succ fuel ih =>
      simp only [Schedule.run]
      cases stepped : Schedule.step dependencies schedule with
      | none =>
          have most := consistent.subperm.length_le
          simp only [List.length_range] at most
          by_contra short
          apply progress schedule consistent (by simp only at short; omega)
          simp only [Schedule.step] at stepped
          split at stepped
          · assumption
          · cases stepped
      | some next =>
          obtain ⟨consistentNext, id, done⟩ := consistent.step stepped
          apply ih consistentNext
          simp only [done, List.length_append, List.length_singleton]
          omega

end Schedule

-----------------------------------------------------------------------------------------
-- Execution orders
-----------------------------------------------------------------------------------------

/-- An execution order runs every part once, after all that is listed for it. -/
theorem executionOrder?_sound {dependencies : List (List Nat)} {order : List Nat}
    (found : executionOrder? dependencies = some order)
    : order.Perm (List.range dependencies.length) ∧ Follows dependencies order := by
  have consistent := (Schedule.consistent_start dependencies).run dependencies.length
  simp only [executionOrder?] at found
  split at found
  · split at found
    · next complete =>
      obtain rfl := Option.some.inj found
      exact ⟨consistent.subperm.perm_of_length_le (by simp [complete]), consistent.follows⟩
    · cases found
  · cases found

/-- Only parts are listed as dependencies. -/
def ListsOnlyParts (dependencies : List (List Nat)) : Prop :=
  ∀ ids ∈ dependencies, ∀ id ∈ ids, id < dependencies.length

/-- No part waits for itself, directly or through others. -/
def Acyclic (dependencies : List (List Nat)) : Prop :=
  ∀ id, ¬Relation.TransGen (WaitsFor dependencies) id id

theorem ListsOnlyParts.lt {dependencies : List (List Nat)} (known : ListsOnlyParts dependencies)
    {id dependency : Nat} (waits : WaitsFor dependencies id dependency)
    : dependency < dependencies.length := by
  have below := lt_of_waitsFor waits
  apply known dependencies[id] (List.getElem_mem below) dependency
  simpa [WaitsFor, listed, below] using waits

/-- If no part waits for itself, every part has run as soon as none is ready: waiting is then well
founded on the parts, and what a part waits for has run by induction.
-/
theorem Schedule.Consistent.all_done {dependencies : List (List Nat)} {schedule : Schedule}
    (consistent : Consistent dependencies schedule) (known : ListsOnlyParts dependencies)
    (acyclic : Acyclic dependencies) (none : schedule.ready = [])
    : ∀ id < dependencies.length, id ∈ schedule.done := by
  let before (first second : Fin dependencies.length) : Prop :=
    Relation.TransGen (WaitsFor dependencies) second first
  have : IsTrans _ before := ⟨fun _ _ _ below above => above.trans below⟩
  have : Std.Irrefl before := ⟨fun id => acyclic id⟩
  have wellFounded : WellFounded before := Finite.wellFounded_of_trans_of_irrefl before
  intro id below
  refine wellFounded.induction (C := fun id => id.val ∈ schedule.done) ⟨id, below⟩ ?_
  intro part ran
  by_contra fresh
  obtain ⟨dependency, waits, freshToo⟩ := consistent.stuck none part.isLt fresh
  exact freshToo (ran ⟨dependency, known.lt waits⟩ (.single waits))

/-- Parts of which none waits for itself have an execution order. -/
theorem exists_executionOrder? {dependencies : List (List Nat)}
    (known : ListsOnlyParts dependencies) (acyclic : Acyclic dependencies)
    : ∃ order, executionOrder? dependencies = some order := by
  have progress : ∀ schedule,
      Schedule.Consistent dependencies schedule
      → schedule.done.length < dependencies.length
      → schedule.ready ≠ [] := by
    intro schedule consistent short none
    have all : (List.range dependencies.length).Subperm schedule.done :=
      List.subperm_of_subset List.nodup_range fun id inside =>
        consistent.all_done known acyclic none id (List.mem_range.mp inside)
    have most := all.length_le
    simp only [List.length_range] at most
    omega
  have complete := (Schedule.consistent_start dependencies).run_complete progress
    dependencies.length (by simp)
  have allKnown : (dependencies.all fun ids => ids.all (· < dependencies.length)) = true := by
    simpa [ListsOnlyParts] using known
  refine ⟨(Schedule.run dependencies dependencies.length (Schedule.start dependencies)).done, ?_⟩
  simp only [executionOrder?, allKnown, complete, ↓reduceIte]

end FederatedQuery
