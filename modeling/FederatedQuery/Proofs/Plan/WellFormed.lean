import FederatedQuery.Proofs.Grouping
import FederatedQuery.Proofs.Plan.Crossings
import FederatedQuery.Proofs.Plan.ExecutionOrder
import FederatedQuery.Proofs.Plan.Numbering
import FederatedQuery.Proofs.Plan.Placement

/-! Compiled plans are well formed: the parts are the pieces of the query's tree in pre-order,
each in its own scope, each referred to by one rule, and each after its dependencies in the
order of execution.
-/

namespace FederatedQuery

variable {ρ : Type}

namespace Numbered

variable {next : Nat} {references : List Nat} {parts : List Part}

theorem id_eq (numbered : Numbered next references parts) {place : Nat} {part : Part}
    (here : parts[place]? = some part)
    : part.id = next + place := by
  obtain ⟨below, rfl⟩ := List.getElem?_eq_some_iff.mp here
  have found := congrArg (fun ids : List Nat => ids[place]?) numbered.ids
  simpa [List.getElem?_range', below] using found

theorem lt_of_mem (numbered : Numbered next references parts) {part : Part}
    (inside : part ∈ parts) {id : Nat} (listed : id ∈ part.dependsOn)
    : id < next + parts.length := by
  have among : id ∈ references ++ parts.flatMap Part.dependsOn :=
    List.mem_append_right _ (List.mem_flatMap.mpr ⟨part, inside, listed⟩)
  exact (List.mem_range'_1.mp (numbered.referenced.mem_iff.mp among)).2

/-- A part that is numbered from zero on waits for later ones only. -/
theorem lt_of_waitsFor (numbered : Numbered 0 references parts) {id dependency : Nat}
    (waits : WaitsFor (parts.map Part.dependsOn) id dependency)
    : id < dependency := by
  simp only [WaitsFor, listed, List.getD_eq_getElem?_getD, List.getElem?_map] at waits
  cases here : parts[id]? with
  | none => simp [here] at waits
  | some part =>
      have waits : dependency ∈ part.dependsOn := by simpa [here] using waits
      have above := numbered.later part (List.mem_of_getElem? here) dependency waits
      have same := numbered.id_eq here
      omega

/-- Parts that are numbered from zero on have an execution order: none waits for itself, since
each waits for later ones only.
-/
theorem exists_executionOrder? (numbered : Numbered 0 references parts)
    : ∃ order, FederatedQuery.executionOrder? (parts.map Part.dependsOn) = some order := by
  refine FederatedQuery.exists_executionOrder? ?_ ?_
  · intro ids inside id listed
    obtain ⟨part, among, rfl⟩ := List.mem_map.mp inside
    simpa using numbered.lt_of_mem among listed
  · intro id cycle
    have later {first last : Nat}
        (leads : Relation.TransGen (WaitsFor (parts.map Part.dependsOn)) first last)
        : first < last := by
      induction leads with
      | single waits => exact numbered.lt_of_waitsFor waits
      | tail _ waits ih => exact Nat.lt_trans ih (numbered.lt_of_waitsFor waits)
    exact Nat.lt_irrefl id (later cycle)

end Numbered

namespace Plan

/-- The plan executes the tree on the buckets of the catalog. -/
structure WellFormed (catalog : Catalog ρ) (tree : RuleTree) (plan : Plan) : Prop where
  bucket : plan.bucket = tree.bucket
  /-- The first part is on the bucket of the tree. -/
  root : ∃ part, plan.part? 0 = some part ∧ part.bucket = tree.bucket
  /-- Every part has the id of its place. -/
  ids : ∀ (place : Nat) (part : Part), plan.part? place = some part → part.id = place
  /-- There is one part for the tree and one for each sub-query that crosses into another
  scope.
  -/
  count
    : plan.parts.length = 1 + (tree.crossings catalog (catalog.scopeOf? tree.bucket)).length
  /-- Parts stand in pre-order: with its references replaced by the pieces of those ids, a
  part is the piece of its own id.
  -/
  preorder
    : ∀ (place : Nat) (part : Part),
        plan.part? place = some part
        → (tree.pieces catalog)[place]?
          = some (part.tree.rejoin fun id => (tree.pieces catalog)[id]?)
  /-- Every part is in the scope of its bucket, with everything inside it. -/
  placed : ∀ part ∈ plan.parts, part.Placed catalog
  /-- Every part depends on the parts to which its rules refer, in first-seen order. -/
  dependsOn : ∀ part ∈ plan.parts, part.dependsOn = part.tree.partRefs
  later : ∀ part ∈ plan.parts, ∀ id ∈ part.dependsOn, part.id < id ∧ id < plan.parts.length
  /-- All parts but the first are referred to by one rule of one part each. -/
  referenced
    : (plan.parts.flatMap fun part => part.tree.operands.filterMap Operand.part?).Perm
        (List.range' 1 (plan.parts.length - 1))
  order : plan.order.Perm (List.range plan.parts.length)
  follows : Follows (plan.parts.map Part.dependsOn) plan.order
  /-- A runner of a part's scope may run the part. -/
  runnable : ∀ part ∈ plan.parts, plan.checkPart part.id part.scope = .ok ()

namespace WellFormed

variable {catalog : Catalog ρ} {tree : RuleTree} {plan : Plan} {part : Part}

/-- A part depends on the parts to which its rules refer. -/
theorem mem_dependsOn_iff (wellFormed : plan.WellFormed catalog tree)
    (inside : part ∈ plan.parts) (id : Nat)
    : id ∈ part.dependsOn ↔ ∃ field, Operand.part id field ∈ part.tree.operands := by
  rw [wellFormed.dependsOn part inside, RuleTree.partRefs, List.mem_eraseDups,
    List.mem_filterMap]
  constructor
  · rintro ⟨operand, read, points⟩
    cases operand with
    | part other field => exact ⟨field, Option.some.inj points ▸ read⟩
    | literal | param | template | values => cases points
  · rintro ⟨field, read⟩
    exact ⟨_, read, rfl⟩

/-- Every part is found under its id. -/
theorem part?_id (wellFormed : plan.WellFormed catalog tree) (inside : part ∈ plan.parts)
    : plan.part? part.id = some part := by
  obtain ⟨place, here⟩ := List.getElem?_of_mem inside
  rwa [wellFormed.ids place part here]

/-- Whatever part is next in the order, it is there, its bucket has a runner that may run it, and
its dependencies have had their turn.
-/
theorem next (wellFormed : plan.WellFormed catalog tree) {done rest : List Nat} {id : Nat}
    (split : plan.order = done ++ id :: rest)
    : ∃ part registration,
        plan.part? id = some part
        ∧ catalog.get? part.bucket = some registration
        ∧ plan.checkPart id registration.scope = .ok ()
        ∧ ∀ dependency ∈ part.dependsOn, dependency ∈ done := by
  have below : id < plan.parts.length := by
    have ordered : id ∈ plan.order := by simp [split]
    exact List.mem_range.mp (wellFormed.order.mem_iff.mp ordered)
  obtain ⟨part, here⟩ : ∃ part, plan.part? id = some part :=
    ⟨_, List.getElem?_eq_getElem below⟩
  have inside : part ∈ plan.parts := List.mem_of_getElem? here
  obtain ⟨registration, registered, scope⟩ :=
    Catalog.scopeOf?_eq_some (wellFormed.placed part inside).bucket
  have waits : listed (plan.parts.map Part.dependsOn) id = part.dependsOn := by
    have found : plan.parts[id]? = some part := here
    simp [listed, List.getD_eq_getElem?_getD, found]
  refine ⟨part, registration, here, registered, ?_, fun dependency depends => ?_⟩
  · rw [scope]
    exact wellFormed.ids id part here ▸ wellFormed.runnable part inside
  · exact wellFormed.follows done id rest split dependency (waits ▸ depends)

/-- The root part is in the order of execution. -/
theorem zero_mem_order (wellFormed : plan.WellFormed catalog tree) : 0 ∈ plan.order := by
  have counted := wellFormed.count
  exact wellFormed.order.mem_iff.mpr (List.mem_range.mpr (by omega))

end WellFormed

/-- The parts into which a tree was split make a well-formed plan together with an order of
execution.
-/
theorem wellFormed_of_parts {catalog : Catalog ρ} {tree : RuleTree} {parts : List Part}
    {order : List Nat} (numbered : Numbered 0 [0] parts)
    (referring
      : ∀ part ∈ parts, part.dependsOn = part.tree.operands.filterMap Operand.part?)
    (placed : ∀ part ∈ parts, part.Placed catalog)
    (count : parts.length = (tree.pieces catalog).length)
    (rejoined
      : ∀ part ∈ parts,
          (tree.pieces catalog)[part.id]?
          = some (part.tree.rejoin fun id => (tree.pieces catalog)[id]?))
    (found : executionOrder? (parts.map Part.dependsOn) = some order)
    : WellFormed catalog tree ⟨tree.bucket, parts, order⟩ := by
  have ids : ∀ (place : Nat) (part : Part), parts[place]? = some part → part.id = place := by
    intro place part here
    simpa using numbered.id_eq here
  have here : ∀ part ∈ parts, parts[part.id]? = some part := by
    intro part inside
    obtain ⟨place, at_⟩ := List.getElem?_of_mem inside
    rwa [ids place part at_]
  obtain ⟨permuted, follows⟩ := executionOrder?_sound found
  have counted : parts.length
      = 1 + (tree.crossings catalog (catalog.scopeOf? tree.bucket)).length := by
    simpa [RuleTree.pieces, Nat.add_comm] using count
  exact {
    bucket := rfl
    root := by
      obtain ⟨part, first⟩ : ∃ part, parts[0]? = some part :=
        ⟨_, List.getElem?_eq_getElem (by omega)⟩
      have piece := rejoined part (List.mem_of_getElem? first)
      rw [ids 0 part first] at piece
      refine ⟨part, first, ?_⟩
      have same := Option.some.inj piece
      exact (RuleTree.bucket_rejoin _ part.tree).symm.trans (congrArg RuleTree.bucket same).symm
    ids := ids
    count := counted
    preorder := fun place part at_ =>
      ids place part at_ ▸ rejoined part (List.mem_of_getElem? at_)
    placed := placed
    dependsOn := fun part inside => by
      rw [RuleTree.partRefs, ← referring part inside,
        eraseDups_of_nodup (numbered.nodup inside)]
    later := fun part inside id listed =>
      ⟨numbered.later part inside id listed, by simpa using numbered.lt_of_mem inside listed⟩
    referenced := by
      have all := numbered.referenced
      rw [counted, Nat.add_comm, List.range'_succ, List.singleton_append] at all
      rw [counted, Nat.add_sub_cancel_left]
      exact (List.flatMap_congr referring) ▸ all.cons_inv
    order := by simpa using permuted
    follows := follows
    runnable := fun part inside =>
      checkPart_eq_ok (here part inside) (placed part inside) (referring part inside)
  }

/-- A tree that was read from a query is split into a well-formed plan. The only errors are
too many parts and unknown buckets, since parts always have an order.
-/
theorem yields_ofTree (catalog : Catalog ρ) (limits : Limits) {tree : RuleTree}
    {bucket : String} (written : tree.Written bucket)
    : Yields (WellFormed catalog tree) (ofTree catalog limits tree) := by
  have numbered := (RuleTree.numbered_cases catalog).yields_partsOf limits 0 tree
  have referring := (RuleTree.referring_cases catalog).yields_partsOf limits 0 tree
  have placed := (RuleTree.placed_cases catalog).yields_partsOf limits 0 tree
  have restores := (RuleTree.restores_cases catalog
    fun id => (tree.pieces catalog)[id]?).yields_partsOf limits 0 tree
  refine (numbered.and (referring.and (placed.and restores))).bind
    fun parts ⟨numbered, referring, placed, restores⟩ => ?_
  obtain ⟨count, _, rejoined⟩ := restores bucket written fun place piece here => by
    simpa using here
  obtain ⟨order, found⟩ := numbered.exists_executionOrder?
  rw [found]
  exact wellFormed_of_parts numbered (referring written.partRefs).2
    (placed bucket written) count rejoined found

/-- Compilation yields a plan that is well formed for the tree of the query. -/
theorem yields_compile {catalog : Catalog ρ} (reachable : catalog.Reachable) (limits : Limits)
    (bucket : String) (query : Query)
    : Yields
        (fun plan => ∃ tree,
          RuleTree.ofQuery catalog limits bucket query = .ok tree
          ∧ tree.bucket = bucket
          ∧ plan.WellFormed catalog tree)
        (compile catalog limits bucket query) := by
  refine (RuleTree.yields_ofQuery reachable limits bucket query).value.bind
    fun tree ⟨read, written⟩ => ?_
  refine (yields_ofTree catalog limits written).mono fun plan wellFormed => ?_
  exact ⟨tree, read, written.bucket_eq, wellFormed⟩

/-- All buckets that a query reads are registered if it compiles. -/
theorem contains_of_compile {catalog : Catalog ρ} (reachable : catalog.Reachable)
    {limits : Limits} {bucket : String} {query : Query} {tree : RuleTree} {plan : Plan}
    (read : RuleTree.ofQuery catalog limits bucket query = .ok tree)
    (compiled : compile catalog limits bucket query = .ok plan)
    : ∀ name ∈ tree.bucketsRead, catalog.contains name = true := by
  have written := (RuleTree.yields_ofQuery reachable limits bucket query).of_eq_ok read
  obtain ⟨other, readAs, split⟩ := bind_eq_ok_iff.mp compiled
  obtain rfl := Except.ok.inj (readAs.symm.trans read)
  obtain ⟨parts, divided, -⟩ := bind_eq_ok_iff.mp split
  exact ((RuleTree.registered_cases catalog).yields_partsOf limits 0 other).of_eq_ok divided _
    written

/-- Every plan that is compiled is well formed for the tree of its query, and compilation never
fails because parts wait for each other.
-/
theorem compile_wellFormed {catalog : Catalog ρ} (reachable : catalog.Reachable)
    (limits : Limits) (bucket : String) (query : Query)
    : (∀ plan,
        compile catalog limits bucket query = .ok plan
        → ∃ tree,
            RuleTree.ofQuery catalog limits bucket query = .ok tree
            ∧ tree.bucket = bucket
            ∧ plan.WellFormed catalog tree)
      ∧ ∀ error,
          compile catalog limits bucket query = .error error → error.kind ≠ .cyclicPlan := by
  have compiling := yields_compile reachable limits bucket query
  exact ⟨fun plan => compiling.of_eq_ok, fun error => compiling.of_eq_error⟩

/-- Three buckets, of which the first and the last are in one scope. -/
def threeBuckets : Catalog Unit :=
  ((Catalog.empty.register ⟨⟨"shape", "id", []⟩, "east", ()⟩).register
    ⟨⟨"color", "id", []⟩, "west", ()⟩).register ⟨⟨"maker", "id", []⟩, "east", ()⟩

/-- A query that leaves the scope of its bucket and comes back to it, beside one that stays. -/
def leavingQuery : Query :=
  ⟨[("tint", .object [("@color.code", .object
      [("maker", .object [("@maker.id", .object [])])])]),
    ("maker", .object [("@maker.id", .object [])])]⟩

set_option maxRecDepth 100000 in
/-- The query is split into three parts in a row. -/
theorem compile_wellFormed_leavingQuery
    : threeBuckets.Reachable
      ∧ ∃ plan tree,
          compile threeBuckets Limits.default "shape" leavingQuery = .ok plan
          ∧ plan.WellFormed threeBuckets tree
          ∧ plan.order = [2, 1, 0] := by
  have reachable : threeBuckets.Reachable :=
    ((Catalog.Reachable.empty.register _).register _).register _
  have orders : (compile threeBuckets Limits.default "shape" leavingQuery).toOption.map Plan.order
      = some [2, 1, 0] := by
    decide +kernel
  cases compiled : compile threeBuckets Limits.default "shape" leavingQuery with
  | error error => simp [compiled, Except.toOption] at orders
  | ok plan =>
      obtain ⟨tree, _, _, wellFormed⟩ := (compile_wellFormed reachable _ _ _).1 plan compiled
      exact ⟨reachable, plan, tree, rfl, wellFormed,
        by simpa [compiled, Except.toOption] using orders⟩

end Plan

end FederatedQuery
