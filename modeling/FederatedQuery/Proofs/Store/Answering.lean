import FederatedQuery.Proofs.RuleTree.Meaning
import FederatedQuery.Proofs.Store.Batching

/-! A scan finds the objects that meet the tree. No rule of a bound tree is tried before its values
are known, because sub-queries are answered first; so stopping early in an alternative makes no
difference.
-/

namespace FederatedQuery

namespace Store

/-- The store holds the bucket, with the objects that the reading gives it. -/
structure Keeps (store : Store) (reading : Reading) (bucket : String) : Prop where
  holds : store.Holds bucket
  objects : store.objects bucket = reading.objects bucket

/-- Members that can be resolved one by one so that they hold as rows meet them can be resolved
together.
-/
theorem resolveMembers_meets {store : Store} {reading : Reading} {members : List Member}
    (each
      : ∀ member ∈ members, ∃ resolved,
          store.resolveMember member = .ok resolved
          ∧ ∀ row,
              RuleTree.memberHolds resolved row
              = .ok (RuleTree.memberMeets reading member row))
    : ∃ resolved,
        store.resolveMembers members = .ok resolved
        ∧ ∀ row, RuleTree.allHold resolved row = .ok (RuleTree.allMeet reading members row) := by
  induction members with
  | nil => exact ⟨[], rfl, fun row => rfl⟩
  | cons member rest ih =>
      obtain ⟨first, resolvedFirst, holdsFirst⟩ := each member (by simp)
      obtain ⟨others, resolvedOthers, holdOthers⟩ :=
        ih fun other inside => each other (by simp [inside])
      refine ⟨first :: others, by simp [resolveMembers, resolvedFirst, resolvedOthers]; rfl, ?_⟩
      intro row
      simp only [RuleTree.allHold, RuleTree.allMeet, holdsFirst, holdOthers]
      cases RuleTree.memberMeets reading member row <;> rfl

theorem resolveAlternatives_meets {store : Store} {reading : Reading}
    {alternatives : List Alternative}
    (each
      : ∀ members ∈ alternatives, ∃ resolved,
          store.resolveMembers members = .ok resolved
          ∧ ∀ row,
              RuleTree.allHold resolved row = .ok (RuleTree.allMeet reading members row))
    : ∃ resolved,
        store.resolveAlternatives alternatives = .ok resolved
        ∧ resolved.isEmpty = alternatives.isEmpty
        ∧ ∀ row,
            RuleTree.someHolds resolved row
            = .ok (RuleTree.someMeets reading alternatives row) := by
  induction alternatives with
  | nil => exact ⟨[], rfl, rfl, fun row => rfl⟩
  | cons members rest ih =>
      obtain ⟨first, resolvedFirst, holdsFirst⟩ := each members (by simp)
      obtain ⟨others, resolvedOthers, _, holdOthers⟩ :=
        ih fun other inside => each other (by simp [inside])
      refine ⟨first :: others,
        by simp [resolveAlternatives, resolvedFirst, resolvedOthers]; rfl, rfl, ?_⟩
      intro row
      simp only [RuleTree.someHolds, RuleTree.someMeets, holdsFirst, holdOthers]
      cases RuleTree.allMeet reading members row <;> rfl

/-- A resolved tree that holds as rows meet a tree selects the objects that meet it. -/
theorem select_eq_found {store : Store} {reading : Reading} {resolved tree : RuleTree}
    (same : resolved.bucket = tree.bucket) (keeps : store.Keeps reading tree.bucket)
    (meets : ∀ row, resolved.holds row = .ok (tree.meets reading row))
    : store.select resolved = .ok (tree.found reading) := by
  have sound : ¬Fails (store.select resolved) := by
    rw [fails_select_iff, same]
    intro either
    rcases either with missing | ⟨row, _, failed⟩
    · exact missing keeps.holds
    · exact Fails.not_ok _ (meets row ▸ failed)
  obtain ⟨rows, selected⟩ := (Fails.not_iff _).mp sound
  rw [selected, select_eq_filter selected, same, keeps.objects]
  exact congrArg Except.ok
    (List.filter_congr fun row _ => RuleTree.accepts_of_holds (meets row))

/-- The sub-queries in the tree can be resolved, and its alternatives then hold as rows meet the
tree.
-/
def Resolves (store : Store) (reading : Reading) (tree : RuleTree) : Prop :=
  ∃ resolved,
    store.resolveAlternatives tree.alternatives = .ok resolved
    ∧ ∀ bucket scope row,
        (RuleTree.anyOf bucket scope resolved).holds row = .ok (tree.meets reading row)

/-- A scan of such a tree finds the objects that meet it. -/
theorem Resolves.scan_eq_found {store : Store} {reading : Reading} {tree : RuleTree}
    (resolves : store.Resolves reading tree) (keeps : store.Keeps reading tree.bucket)
    : store.scan tree = .ok (tree.found reading) := by
  obtain ⟨resolved, found, meets⟩ := resolves
  obtain ⟨bucket, scope, alternatives⟩ := tree
  simp only [RuleTree.alternatives] at found
  simp only [scan, found, bind, Except.bind]
  exact select_eq_found rfl keeps (meets bucket scope)

/-- A bound member can be resolved, and then holds as rows meet it, if so does the tree inside it.
-/
theorem resolveMember_meets {store : Store} {reading : Reading} {member : Member}
    (bound : ∀ operand ∈ member.operands, operand.isBound = true)
    (kept
      : ∀ rule ∈ RuleTree.rulesOfMember member, ∀ bucket ∈ rule.bucket?,
          store.Keeps reading bucket)
    (inner : ∀ tree, member.inner? = some tree → store.Resolves reading tree)
    : ∃ resolved,
        store.resolveMember member = .ok resolved
        ∧ ∀ row,
            RuleTree.memberHolds resolved row
            = .ok (RuleTree.memberMeets reading member row) := by
  cases member with
  | rule test operand =>
      refine ⟨.rule test operand, by simp only [resolveMember], fun row => ?_⟩
      exact test.holds_eq_meets reading.params (bound operand (by simp)) row
  | group tree =>
      obtain ⟨bucket, scope, alternatives⟩ := tree
      obtain ⟨resolved, resolves, meets⟩ := inner _ rfl
      simp only [RuleTree.alternatives] at resolves
      refine ⟨.group (.anyOf bucket scope resolved), ?_, fun row => meets bucket scope row⟩
      simp [resolveMember, resolves, bind, Except.bind, pure, Except.pure]
  | subQuery test target field tree =>
      have keeps : store.Keeps reading tree.bucket :=
        kept (.subQuery test target field tree) (by simp [RuleTree.rulesOfMember]) _ rfl
      have scanned := (inner tree rfl).scan_eq_found keeps
      refine ⟨.rule test (.values (distinctColumn (tree.found reading) field)), ?_,
        fun row => ?_⟩
      · simp [resolveMember, scanned, bind, Except.bind, pure, Except.pure]
      · rw [RuleTree.memberMeets_subQuery]
        simp only [RuleTree.memberHolds, Test.holds, Test.passesValues_eq, distinctColumn,
          Test.passesSome_eraseDups, projected]

/-- Every bound tree can be resolved, by induction on it. -/
theorem resolves_of_isBound {store : Store} {reading : Reading} (tree : RuleTree)
    (bound : ∀ operand ∈ tree.operands, operand.isBound = true)
    (kept : ∀ bucket ∈ tree.inlineBuckets, store.Keeps reading bucket)
    : store.Resolves reading tree := by
  induction tree using RuleTree.induct with
  | step bucket scope alternatives ih =>
      have each : ∀ members ∈ alternatives, ∀ member ∈ members, ∃ resolved,
          store.resolveMember member = .ok resolved
          ∧ ∀ row,
              RuleTree.memberHolds resolved row
              = .ok (RuleTree.memberMeets reading member row) := by
        intro members inside member among
        have boundHere : ∀ operand ∈ member.operands, operand.isBound = true :=
          fun operand read => bound operand (RuleTree.mem_operands_of_member inside among read)
        have keptHere : ∀ rule ∈ RuleTree.rulesOfMember member, ∀ name ∈ rule.bucket?,
            store.Keeps reading name := by
          intro rule asked name names
          refine kept name (List.mem_filterMap.mpr ⟨rule, ?_, names⟩)
          rw [RuleTree.rules_eq]
          exact List.mem_flatMap.mpr
            ⟨members, inside, List.mem_flatMap.mpr ⟨member, among, asked⟩⟩
        refine resolveMember_meets boundHere keptHere fun tree found => ?_
        refine ih members inside member among tree found ?_ fun name asked => ?_
        · rwa [RuleTree.operands_of_inner? found]
        · obtain ⟨rule, of, names⟩ := List.mem_filterMap.mp asked
          exact keptHere rule (RuleTree.rules_subset_of_inner? found of) name names
      obtain ⟨resolved, resolves, sameEmpty, holds⟩ := resolveAlternatives_meets
        fun members inside => resolveMembers_meets (each members inside)
      refine ⟨resolved, resolves, fun name known row => ?_⟩
      cases resolved with
      | nil =>
          have none : alternatives.isEmpty = true := by simpa using sameEmpty
          simp [RuleTree.holds, RuleTree.meets, none]
      | cons first rest =>
          have some : alternatives.isEmpty = false := by simpa using sameEmpty.symm
          simp only [RuleTree.holds, RuleTree.meets, holds, some, Bool.false_or]

theorem scan_eq_found {store : Store} {reading : Reading} {tree : RuleTree}
    (bound : ∀ operand ∈ tree.operands, operand.isBound = true)
    (kept : ∀ bucket ∈ tree.bucketsRead, store.Keeps reading bucket)
    : store.scan tree = .ok (tree.found reading) :=
  (resolves_of_isBound tree bound fun bucket inside =>
    kept bucket (List.mem_cons_of_mem _ inside)).scan_eq_found (kept _ List.mem_cons_self)

/-- Binding leaves no reference but those to parts. -/
theorem isBound_bind {tree : RuleTree}
    (unreferring : ∀ operand ∈ tree.operands, operand.part? = none) (row : ParamRow)
    (template : Option Template)
    : ∀ operand ∈ (tree.bind row template).operands, operand.isBound = true := by
  intro operand read
  rw [RuleTree.bind, RuleTree.operands_mapOperands] at read
  obtain ⟨original, known, rfl⟩ := List.mem_map.mp read
  have alone := unreferring original known
  cases original with
  | part => cases alone
  | literal | param | template | values => rfl

/-- A tree that refers to no parts can be scanned for under every parameter row. Objects of the
tree's bucket are found.
-/
theorem exists_scan_bind {store : Store} {reading : Reading} {tree : RuleTree}
    (unreferring : ∀ operand ∈ tree.operands, operand.part? = none)
    (kept : ∀ bucket ∈ tree.bucketsRead, store.Keeps reading bucket) (row : ParamRow)
    (template : Option Template)
    : ∃ rows,
        store.scan (tree.bind row template) = .ok rows ∧ rows ⊆ reading.objects tree.bucket := by
  have keptBound : ∀ bucket ∈ (tree.bind row template).bucketsRead,
      store.Keeps reading bucket := by
    simpa only [RuleTree.bind, RuleTree.bucketsRead_mapOperands] using kept
  refine ⟨_, scan_eq_found (isBound_bind unreferring row template) keptBound, ?_⟩
  simp only [RuleTree.found, RuleTree.bind, RuleTree.bucket_mapOperands]
  exact List.filter_subset_self _

/-- The store finds the rows for the tree under a parameter row, through whatever template. -/
def Finds (store : Store) (tree : RuleTree) (row : ParamRow) (rows : List Row) : Prop :=
  ∀ template, store.scan (tree.bind row template) = .ok rows

/-- For a tree that does not read the parameter row, the store finds the same under every row. -/
theorem Finds.of_not_readsParams {store : Store} {tree : RuleTree} {row : ParamRow}
    {rows : List Row} (finds : store.Finds tree row rows) (unread : tree.readsParams = false)
    (other : ParamRow)
    : store.Finds tree other rows := by
  intro template
  have found := finds template
  rw [RuleTree.bind_of_not_readsParams unread] at found ⊢
  exact found

/-- A tree with no references but those to paths of the parameter row finds the objects that meet
it under that row: binding replaces each path by the value that a rule reads there.
-/
theorem finds_found {store : Store} {reading : Reading} {tree : RuleTree}
    (plain
      : ∀ operand ∈ tree.operands, operand.isTemplate = false ∧ operand.part? = none)
    (kept : ∀ bucket ∈ tree.bucketsRead, store.Keeps reading bucket)
    : store.Finds tree reading.params (tree.found reading) := by
  intro template
  have bound := isBound_bind (fun operand read => (plain operand read).2) reading.params template
  have same : (tree.bind reading.params template).meets reading = tree.meets reading := by
    refine RuleTree.meets_mapOperands _ tree rfl fun operand read test object => ?_
    have settled := plain operand read
    cases operand with
    | part => cases settled.2
    | template => cases settled.1
    | literal | param | values => rfl
  have keptBound : ∀ bucket ∈ (tree.bind reading.params template).bucketsRead,
      store.Keeps reading bucket := by
    simpa only [RuleTree.bind, RuleTree.bucketsRead_mapOperands] using kept
  rw [scan_eq_found bound keptBound]
  simp only [RuleTree.found, same]
  simp only [RuleTree.bind, RuleTree.bucket_mapOperands]

/-- What the store returns for a part and a parameter row, or without any: nothing where the part
cannot be evaluated or the sort gives up.
-/
def setOf? (store : Store) (sorter : StableSort Row) (request : RunRequest)
    : Option ParamRow → Option RowSet
  | none =>
      let rows := store.scan (request.part.tree.bind .null request.templates.head?)
      rows.toOption.bind (finishRows sorter request.sort request.pagination)
  | some row => (store.evaluateRow sorter request row).toOption.join

section

variable {store : Store} {reading : Reading} {request : RunRequest}
  (unreferring : ∀ operand ∈ request.part.tree.operands, operand.part? = none)
  (kept : ∀ bucket ∈ request.part.tree.bucketsRead, store.Keeps reading bucket)

include unreferring kept

/-- Without parameter rows, a part that refers to no others is evaluated once. -/
theorem evaluate_eq_setOf?_none (sorter : StableSort Row) (none : request.params = [])
    : store.evaluate sorter request
      = .ok ((store.setOf? sorter request .none).map fun set => [set]) := by
  obtain ⟨rows, scanned, -⟩ := exists_scan_bind unreferring kept .null request.templates.head?
  simp only [evaluate, setOf?, none, List.isEmpty_nil, ↓reduceIte, scanned]
  rfl

/-- A part that refers to no others is evaluated to what the store returns for each of the
parameter rows.
-/
theorem evaluate_eq_setOf? (sorter : StableSort Row) (given : request.params ≠ [])
    : store.evaluate sorter request
      = .ok (request.params.mapM fun row => store.setOf? sorter request (some row)) := by
  have alone : ∀ row ∈ request.params,
      store.evaluateRow sorter request row = .ok (store.setOf? sorter request (some row)) := by
    intro row _
    obtain ⟨rows, scanned, -⟩ := exists_scan_bind unreferring kept row
      (request.part.tree.templateFor? request.templates row)
    simp only [setOf?, evaluateRow, scanned]
    split <;> rfl
  have sound : ¬Fails (store.evaluate sorter request) := by
    rw [fails_evaluate_iff store sorter request given]
    rintro ⟨row, inside, failed⟩
    exact Fails.not_ok _ (alone row inside ▸ failed)
  obtain ⟨answer, evaluated⟩ := (Fails.not_iff _).mp sound
  obtain ⟨finished, rfl, same⟩ := exists_finished_of_evaluate store sorter request given evaluated
  rw [List.map_congr_left alone] at same
  have injective
      : Function.Injective (Except.ok : Option RowSet → Except StoreError (Option RowSet)) :=
    fun _ _ => Except.ok.inj
  have each
      : (request.params.map fun row => store.setOf? sorter request (some row)) = finished := by
    refine List.map_injective_iff.mpr injective ?_
    rw [List.map_map]
    exact same
  rw [evaluated, ← each, List.mapM_map]
  rfl

/-- The store returns something for the part if whatever is found in the part's bucket can be
sorted.
-/
theorem isSome_setOf? {sorter : StableSort Row}
    (finishes
      : ∀ rows ⊆ reading.objects request.part.tree.bucket,
          (finishRows sorter request.sort request.pagination rows).isSome)
    (row : Option ParamRow)
    : (store.setOf? sorter request row).isSome := by
  cases row with
  | none =>
      obtain ⟨rows, scanned, inside⟩ :=
        exists_scan_bind unreferring kept .null request.templates.head?
      rw [setOf?, scanned]
      exact finishes rows inside
  | some row =>
      obtain ⟨rows, scanned, inside⟩ := exists_scan_bind unreferring kept row
        (request.part.tree.templateFor? request.templates row)
      simp only [setOf?, evaluateRow, scanned]
      split
      · rfl
      · exact finishes rows inside

end

/-- What the store replies does not depend on what a sort does where it would give up. -/
theorem reply?_completed {store : Store} {sorter : StableSort Row} {request : RunRequest}
    {reply : Reply} (replied : store.reply? sorter request = some reply)
    : store.reply? sorter.completed request = some reply := by
  by_cases none : request.params = []
  · simp only [reply?, evaluate, none, List.isEmpty_nil, ↓reduceIte] at replied ⊢
    cases scanned : store.scan (request.part.tree.bind .null request.templates.head?) with
    | error error => rwa [scanned] at replied
    | ok rows =>
        rw [scanned] at replied
        obtain ⟨sets, evaluated, rfl⟩ := Option.map_eq_some_iff.mp replied
        obtain ⟨set, finished, rfl⟩ := Option.map_eq_some_iff.mp evaluated
        exact Option.map_eq_some_iff.mpr
          ⟨[set], Option.map_eq_some_iff.mpr ⟨set, finishRows_completed finished, rfl⟩, rfl⟩
  · simp only [reply?, evaluate_eq store _ request none] at replied ⊢
    generalize (request.part.tree.bindPlan ..).calls = calls at replied ⊢
    cases scanned : calls.mapM fun call => store.scan call.tree with
    | error error => rwa [scanned] at replied
    | ok found =>
        rw [scanned] at replied
        obtain ⟨sets, finished, rfl⟩ := Option.map_eq_some_iff.mp replied
        refine Option.map_eq_some_iff.mpr ⟨sets, ?_, rfl⟩
        exact mapM_eq_some_iff.mpr ((mapM_eq_some_iff.mp finished).imp
          fun _ _ finished => finishRows_completed finished)

/-- A part without template references is evaluated to the rows that the store finds for it under
the parameter row, which it does not get if it does not read it.
-/
theorem setOf?_of_finds {store : Store} (sorter : StableSort Row) {request : RunRequest}
    {row : Option ParamRow} {rows : List Row}
    (untemplated : request.part.tree.readsTemplates = false)
    (finds : store.Finds request.part.tree (row.getD .null) rows)
    : store.setOf? sorter request (if request.part.readsParams then row else none)
      = finishRows sorter request.sort request.pagination rows := by
  have without (alone : store.Finds request.part.tree .null rows)
      : store.setOf? sorter request none
        = finishRows sorter request.sort request.pagination rows := by
    rw [setOf?, alone]
    rfl
  split
  · cases row with
    | none => exact without finds
    | some row =>
        have included : request.part.tree.excludes request.templates row = false := by
          simp [RuleTree.excludes, untemplated]
        simp only [setOf?, evaluateRow, included, Bool.false_eq_true, ↓reduceIte]
        rw [show store.scan (request.part.tree.bind row _) = .ok rows from finds _]
        rfl
  · next independent =>
    exact without (finds.of_not_readsParams (Bool.eq_false_iff.mpr independent) .null)

/-- A row that the part excludes gets an empty row set. -/
theorem setOf?_of_excludes {store : Store} (sorter : StableSort Row) {request : RunRequest}
    {row : ParamRow} (excluded : request.part.tree.excludes request.templates row = true)
    : store.setOf? sorter request (some row) = some RowSet.empty := by
  simp [setOf?, evaluateRow, excluded, Except.toOption]

end Store

end FederatedQuery
