import FederatedQuery.Proofs.Plan.ExecutionOrder

/-! The execution order is the least of all orders that respect the dependencies, element by
element. It is there whenever such an order is, which is when no part waits for itself, and the
counts that find it are never lowered below zero.
-/

namespace FederatedQuery

/-- The part has not run, and all that it waits for has. -/
structure ReadyPart (dependencies : List (List Nat)) (done : List Nat) (id : Nat) : Prop where
  known : id < dependencies.length
  fresh : id ∉ done
  complete : ∀ dependency ∈ listed dependencies id, dependency ∈ done

/-- Each part of the list has the lowest id of those that are ready when it has its turn, after
what is done already.
-/
def LowestFirst (dependencies : List (List Nat)) : List Nat → List Nat → Prop
  | _, [] => True
  | done, id :: rest =>
      ReadyPart dependencies done id
      ∧ (∀ other, ReadyPart dependencies done other → id ≤ other)
      ∧ LowestFirst dependencies (done ++ [id]) rest

/-- The list has every part once, after all that it waits for. -/
structure Orders (dependencies : List (List Nat)) (order : List Nat) : Prop where
  perm : order.Perm (List.range dependencies.length)
  follows : Follows dependencies order

namespace LowestFirst

variable {dependencies : List (List Nat)} {done order other : List Nat}

theorem append_iff
    : LowestFirst dependencies done (order ++ other)
      ↔ LowestFirst dependencies done order ∧ LowestFirst dependencies (done ++ order) other := by
  induction order generalizing done with
  | nil => simp [LowestFirst]
  | cons id rest ih => simp [LowestFirst, ih, and_assoc]

/-- The lowest part is the same in both lists, and so is all that comes after it. -/
theorem unique (first : LowestFirst dependencies done order)
    (second : LowestFirst dependencies done other) (lengths : order.length = other.length)
    : order = other := by
  induction order generalizing done other with
  | nil => exact (List.length_eq_zero_iff.mp lengths.symm).symm
  | cons id rest ih =>
      cases other with
      | nil => cases lengths
      | cons id' rest' =>
          obtain ⟨ready, least, first⟩ := first
          obtain ⟨ready', least', second⟩ := second
          obtain rfl : id = id' := Nat.le_antisymm (least id' ready') (least' id ready)
          rw [ih first second (by simpa using lengths)]

/-- A list of the same parts that respects the dependencies differs first where it has a part with
a greater id, since that part was ready as well.
-/
theorem eq_or_lex (lowest : LowestFirst dependencies done order) (perm : other.Perm order)
    (known : ∀ id ∈ other, id < dependencies.length)
    (unique : (done ++ other).Nodup)
    (follows
      : ∀ before id after,
          other = before ++ id :: after
          → ∀ dependency ∈ listed dependencies id, dependency ∈ done ++ before)
    : other = order ∨ List.Lex (· < ·) order other := by
  induction order generalizing done other with
  | nil => exact Or.inl (List.perm_nil.mp perm)
  | cons id rest ih =>
      cases other with
      | nil => exact absurd perm.symm.length_eq (by simp)
      | cons first others =>
          obtain ⟨-, least, lowest⟩ := lowest
          have ready : ReadyPart dependencies done first := {
            known := known first (by simp)
            fresh := fun ran => (List.nodup_append.mp unique).2.2 first ran first (by simp) rfl
            complete := by simpa using follows [] first others rfl
          }
          rcases Nat.lt_or_eq_of_le (least first ready) with less | rfl
          · exact Or.inr (.rel less)
          · have rests := ih lowest perm.cons_inv (fun part inside => known part (by simp [inside]))
              (by simpa using unique) (fun before part after shape dependency waits => by
                simpa using follows (id :: before) part after (by simp [shape]) dependency waits)
            rcases rests with rfl | less
            · exact Or.inl rfl
            · exact Or.inr (.cons less)

end LowestFirst

-----------------------------------------------------------------------------------------
-- Runs of a schedule
-----------------------------------------------------------------------------------------

namespace Schedule

variable {dependencies : List (List Nat)} {schedule next : Schedule}

theorem Consistent.mem_ready_iff (consistent : Consistent dependencies schedule) (id : Nat)
    : id ∈ schedule.ready ↔ ReadyPart dependencies schedule.done id := by
  rw [consistent.ready]
  constructor
  · rintro ⟨known, fresh, complete⟩
    exact ⟨known, fresh, mem_done_of_missing_eq_zero complete⟩
  · rintro ⟨known, fresh, complete⟩
    refine ⟨known, fresh, List.countP_eq_zero.mpr fun dependency waits => ?_⟩
    simpa using complete dependency waits

/-- What runs next is the first ready part, which has the lowest id. -/
theorem Consistent.lowestFirst_step (consistent : Consistent dependencies schedule)
    (stepped : Schedule.step dependencies schedule = some next)
    : ∃ id,
        next.done = schedule.done ++ [id] ∧ LowestFirst dependencies schedule.done [id] := by
  simp only [Schedule.step] at stepped
  split at stepped
  · cases stepped
  · next id rest readyEq =>
    obtain rfl := Option.some.inj stepped
    obtain ⟨least, -⟩ := List.pairwise_cons.mp (readyEq ▸ consistent.ascending)
    refine ⟨id, (frame_foldl_release _ _).2, (consistent.mem_ready_iff id).mp (by simp [readyEq]),
      fun other ready => ?_, trivial⟩
    have inside := (consistent.mem_ready_iff other).mpr ready
    rw [readyEq] at inside
    rcases List.mem_cons.mp inside with rfl | later
    · exact Nat.le_refl _
    · exact Nat.le_of_lt (least other later)

theorem Consistent.lowestFirst_run (consistent : Consistent dependencies schedule) (fuel : Nat)
    : ∃ order,
        (Schedule.run dependencies fuel schedule).done = schedule.done ++ order
        ∧ LowestFirst dependencies schedule.done order := by
  induction fuel generalizing schedule with
  | zero => exact ⟨[], by simp [Schedule.run], trivial⟩
  | succ fuel ih =>
      simp only [Schedule.run]
      split
      · exact ⟨[], by simp, trivial⟩
      · next stepped =>
        obtain ⟨id, done, lowest⟩ := consistent.lowestFirst_step stepped
        obtain ⟨order, ran, lowestLater⟩ := ih (consistent.step stepped).1
        have both : LowestFirst dependencies schedule.done ([id] ++ order) :=
          LowestFirst.append_iff.mpr ⟨lowest, done ▸ lowestLater⟩
        exact ⟨id :: order, by simp [ran, done], both⟩

-----------------------------------------------------------------------------------------
-- Counts
-----------------------------------------------------------------------------------------

/-- Each part waits for something when it is released. -/
def Releasable : List Nat → Schedule → Prop
  | [], _ => True
  | id :: rest, schedule => 0 < schedule.waiting.getD id 0 ∧ Releasable rest (schedule.release id)

/-- Running the next part lowers no count below zero. -/
def Covered (dependencies : List (List Nat)) (schedule : Schedule) : Prop :=
  match schedule.ready with
  | [] => True
  | next :: ready =>
      Releasable (dependents dependencies next)
        { schedule with ready, done := schedule.done ++ [next] }

theorem releasable_of_count_le {ids : List Nat}
    (inside : ∀ id ∈ ids, id < schedule.waiting.length)
    (enough : ∀ id, ids.count id ≤ schedule.waiting.getD id 0)
    : Releasable ids schedule := by
  induction ids generalizing schedule with
  | nil => trivial
  | cons id rest ih =>
      refine ⟨?_, ih (fun other among => ?_) fun other => ?_⟩
      · have counted := enough id
        simp only [List.count_cons_self] at counted
        omega
      · simpa [release] using inside other (by simp [among])
      · have counted := enough other
        rw [List.count_cons] at counted
        rw [waiting_release (inside id (by simp))]
        simp only [beq_iff_eq] at counted
        omega

theorem Consistent.covered (consistent : Consistent dependencies schedule)
    : schedule.Covered dependencies := by
  simp only [Covered]
  split
  · trivial
  · next id rest readyEq =>
    obtain ⟨-, fresh, -⟩ := (consistent.mem_ready_iff id).mp (by simp [readyEq])
    refine releasable_of_count_le (fun part waits => ?_) fun part => ?_
    · exact consistent.length.symm ▸ lt_of_waitsFor (mem_dependents_iff.mp waits)
    · rw [count_dependents]
      exact (consistent.waiting part).symm ▸ count_le_countP fresh (listed dependencies part)

end Schedule

-----------------------------------------------------------------------------------------
-- The least order
-----------------------------------------------------------------------------------------

variable {dependencies : List (List Nat)} {order other : List Nat}

theorem executionOrder?_lowestFirst (found : executionOrder? dependencies = some order)
    : LowestFirst dependencies [] order := by
  obtain ⟨ran, done, lowest⟩ :=
    (Schedule.consistent_start dependencies).lowestFirst_run dependencies.length
  simp only [executionOrder?] at found
  split at found
  · split at found
    · obtain rfl := Option.some.inj found
      rw [done]
      exact lowest
    · cases found
  · cases found

namespace Orders

theorem listsOnlyParts (orders : Orders dependencies order) : ListsOnlyParts dependencies := by
  intro ids inside id lists
  obtain ⟨part, here⟩ := List.getElem?_of_mem inside
  have waits : id ∈ listed dependencies part := by simpa [listed, here] using lists
  have ordered : part ∈ order :=
    orders.perm.mem_iff.mpr (List.mem_range.mpr (lt_of_waitsFor waits))
  exact List.mem_range.mp (orders.perm.mem_iff.mp (orders.follows.mem ordered id waits))

/-- What a part waits for stands before it in an order, and so does all that it leads to. -/
theorem acyclic (orders : Orders dependencies order) : Acyclic dependencies := by
  have earlier {id dependency : Nat}
      (leads : Relation.TransGen (WaitsFor dependencies) id dependency)
      : order.idxOf dependency < order.idxOf id := by
    have direct {id dependency : Nat} (waits : WaitsFor dependencies id dependency)
        : order.idxOf dependency < order.idxOf id := by
      have ordered : id ∈ order :=
        orders.perm.mem_iff.mpr (List.mem_range.mpr (lt_of_waitsFor waits))
      obtain ⟨before, after, rfl⟩ := List.append_of_mem ordered
      have distinct : (before ++ id :: after).Nodup :=
        orders.perm.nodup_iff.mpr List.nodup_range
      have fresh : id ∉ before := fun ran =>
        (List.nodup_append.mp distinct).2.2 id ran id (by simp) rfl
      have ran := orders.follows before id after rfl dependency waits
      rw [List.idxOf_append_of_mem ran, List.idxOf_append_of_notMem fresh]
      have place := List.idxOf_lt_length_of_mem ran
      simp
      omega
    induction leads with
    | single waits => exact direct waits
    | tail _ waits ih => exact Nat.lt_trans (direct waits) ih
  exact fun id cycle => Nat.lt_irrefl _ (earlier cycle)

/-- Of two orders, one that takes the lowest part first is the lesser. -/
theorem eq_or_lex (orders : Orders dependencies other) (lowest : LowestFirst dependencies [] order)
    (perm : order.Perm (List.range dependencies.length))
    : other = order ∨ List.Lex (· < ·) order other :=
  lowest.eq_or_lex (orders.perm.trans perm.symm)
    (fun _ inside => List.mem_range.mp (orders.perm.mem_iff.mp inside))
    (orders.perm.nodup_iff.mpr List.nodup_range) orders.follows

end Orders

/-- There is an execution order if and only if only parts are listed and none waits for itself. It
is the order that respects the dependencies and that comes, element by element, before all others
that do. While it is found, no count of what a part waits for is lowered below zero.
-/
theorem executionOrder?_least (dependencies : List (List Nat))
    : ((executionOrder? dependencies).isSome
        ↔ ListsOnlyParts dependencies ∧ Acyclic dependencies)
      ∧ (∀ order,
          executionOrder? dependencies = some order
          ↔ Orders dependencies order
            ∧ ∀ other, Orders dependencies other → other = order ∨ List.Lex (· < ·) order other)
      ∧ ∀ steps,
          (Schedule.run dependencies steps (Schedule.start dependencies)).Covered dependencies := by
  have sound {order : List Nat} (found : executionOrder? dependencies = some order)
      : Orders dependencies order := by
    obtain ⟨perm, follows⟩ := executionOrder?_sound found
    exact ⟨perm, follows⟩
  have least {order other : List Nat} (found : executionOrder? dependencies = some order)
      (orders : Orders dependencies other)
      : other = order ∨ List.Lex (· < ·) order other :=
    orders.eq_or_lex (executionOrder?_lowestFirst found) (sound found).perm
  refine ⟨⟨fun some => ?_, fun ⟨known, acyclic⟩ => ?_⟩, fun order => ⟨fun found => ?_, ?_⟩,
    fun steps => ?_⟩
  · obtain ⟨order, found⟩ := Option.isSome_iff_exists.mp some
    exact ⟨(sound found).listsOnlyParts, (sound found).acyclic⟩
  · exact Option.isSome_iff_exists.mpr (exists_executionOrder? known acyclic)
  · exact ⟨sound found, fun other => least found⟩
  · rintro ⟨orders, leastOf⟩
    obtain ⟨found, is⟩ := exists_executionOrder? orders.listsOnlyParts orders.acyclic
    rcases leastOf found (sound is) with rfl | less
    · exact is
    · rcases least is orders with rfl | less'
      · exact is
      · exact absurd less' (List.lex_asymm Nat.lt_asymm less)
  · exact ((Schedule.consistent_start dependencies).run steps).covered

/-- Part 3 is ready from the start, but part 1 is lower once part 2 has run. -/
example : executionOrder? [[1, 3], [2], [], []] = some [2, 1, 3, 0] := by decide

end FederatedQuery
