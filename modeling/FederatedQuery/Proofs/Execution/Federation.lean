import FederatedQuery.Proofs.Execution.Serving
import FederatedQuery.Proofs.Sorting

/-! Running the parts of a plan over stores finds what the whole tree asks for. Each part comes, for
each parameter row, to the objects that meet its piece of the tree.
-/

namespace FederatedQuery

variable {ρ : Type}

/-- The parameter rows for which the request wants answers: a row of nulls if it has none. -/
def Request.rows (request : Request) : List ParamRow :=
  if request.params.isEmpty then [.null] else request.params

/-- Where there is no parameter row, a row of nulls is read. -/
theorem Request.rows_eq (request : Request)
    : request.rows = request.slots.map fun row => row.getD .null := by
  cases params : request.params with
  | nil => simp [rows, slots, params]
  | cons row rest =>
      have most : max 1 (row :: rest).length = (row :: rest).length := by simp
      rw [rows, slots, params, most, List.map_map]
      refine List.ext_getElem (by simp) fun place below _ => ?_
      have inside : place < (row :: rest).length := below
      simp [List.getElem?_eq_getElem inside]

/-- The rows that a part finds, as the request wants them, unless the sort gives up. Only those of
the root part are sorted and paginated.
-/
def Request.finish (request : Request) (sorter : StableSort Row) (id : Nat) (rows : List Row)
    : Option RowSet :=
  finishRows sorter (if id = 0 then request.sort else [])
    (if id = 0 then request.pagination else none) rows

theorem Request.finish_of_ne_zero (request : Request) (sorter : StableSort Row) {id : Nat}
    (other : id ≠ 0) (rows : List Row)
    : request.finish sorter id rows = some (RowSet.ofRows rows) := by
  simp only [finish, other, ↓reduceIte]
  exact finishRows_nil_none sorter rows

namespace Execution

/-- A well-formed plan for a tree without template references, over a catalog that serves it. -/
structure Federated (catalog : Catalog ρ) (stores : ρ → Store) (tree : RuleTree) (plan : Plan)
    : Prop where
  wellFormed : plan.WellFormed catalog tree
  served : catalog.Serves stores tree
  untemplated : tree.readsTemplates = false

namespace Federated

variable {catalog : Catalog ρ} {stores : ρ → Store} {tree : RuleTree} {plan : Plan}
variable {request : Request} {part : Part} {piece : RuleTree}

/-- The parts read from the parameter rows what the tree reads from them. -/
theorem mem_operands (federated : Federated catalog stores tree plan) (inside : part ∈ plan.parts)
    {operand : Operand} (read : operand ∈ part.tree.operands) (plain : operand.part? = none)
    : operand ∈ tree.operands := by
  obtain ⟨place, here⟩ := List.getElem?_of_mem inside
  have known := List.mem_of_getElem? (federated.wellFormed.preorder place part here)
  exact RuleTree.mem_operands_of_mem_pieces catalog known
    (RuleTree.mem_operands_rejoin _ read plain)

/-- There is a piece of the tree for every part. -/
theorem length_pieces (federated : Federated catalog stores tree plan)
    : (tree.pieces catalog).length = plan.parts.length := by
  simpa [RuleTree.pieces, Nat.add_comm] using federated.wellFormed.count.symm

theorem exists_piece (federated : Federated catalog stores tree plan) {id : Nat}
    (below : id < plan.parts.length)
    : ∃ piece, (tree.pieces catalog)[id]? = some piece :=
  ⟨_, List.getElem?_eq_getElem (federated.length_pieces ▸ below)⟩

/-- A part whose references to other parts have been replaced by values refers to nothing but paths
of the parameter row.
-/
theorem plain_withValues (federated : Federated catalog stores tree plan)
    (inside : part ∈ plan.parts) (values : Nat → String → List Value)
    : ∀ operand ∈ (part.withValues values).tree.operands,
        operand.isTemplate = false ∧ operand.part? = none := by
  intro operand read
  simp only [Part.withValues, RuleTree.operands_mapOperands] at read
  obtain ⟨original, known, rfl⟩ := List.mem_map.mp read
  cases original with
  | template path =>
      have templated := federated.mem_operands inside known (by rfl)
      exact absurd rfl (List.any_eq_false.mp federated.untemplated _ templated)
  | literal | param | part | values => exact ⟨rfl, rfl⟩

/-- A part whose references have been replaced by the values that the pieces of the tree find asks
what its own piece of the tree asks.
-/
theorem found_withValues (federated : Federated catalog stores tree plan) {id : Nat}
    (here : plan.part? id = some part) (known : (tree.pieces catalog)[id]? = some piece)
    (reading : Reading) {values : Nat → String → List Value}
    (found
      : ∀ other field,
          Operand.part other field ∈ part.tree.operands
          → ∃ source,
              (tree.pieces catalog)[other]? = some source
              ∧ values other field = distinctColumn (source.found reading) field)
    : (part.withValues values).tree.found reading = piece.found reading := by
  have same : part.tree.rejoin (fun id => (tree.pieces catalog)[id]?) = piece :=
    Option.some.inj ((federated.wellFormed.preorder id part here).symm.trans known)
  have meets : (part.tree.mapOperands (Operand.fillPart values)).meets reading
      = (part.tree.rejoin fun id => (tree.pieces catalog)[id]?).meets reading := by
    refine RuleTree.meets_rejoin _ part.tree (fun other field read => ?_) fun operand plain => ?_
    · obtain ⟨source, placed, same⟩ := found other field read
      exact ⟨source, placed, congrArg Operand.values same⟩
    · cases operand with
      | part => cases plain
      | literal | param | template | values => rfl
  rw [← same]
  simp only [RuleTree.found, Part.withValues, meets, RuleTree.bucket_mapOperands,
    RuleTree.bucket_rejoin]

/-- The store of a part returns for a parameter row the objects that meet the part's tree, once the
references of the tree to other parts have been replaced by values.
-/
theorem storeSet?_eq_finish (federated : Federated catalog stores tree plan)
    (sorter : StableSort Row) (coalesce : Bool) (request : Request) (inside : part ∈ plan.parts)
    (values : Nat → String → List Value) (row : Option ParamRow)
    : catalog.storeSet? sorter stores coalesce request (part.withValues values)
        (if part.readsParams then row else none)
      = request.finish sorter part.id
          ((part.withValues values).tree.found (catalog.reading stores (row.getD .null))) := by
  obtain ⟨registration, registered, -⟩ :=
    Catalog.scopeOf?_eq_some (federated.wellFormed.placed part inside).bucket
  have plain := federated.plain_withValues inside values
  have kept := keeps_withValues federated.wellFormed federated.served inside registered values
    (row.getD .null)
  have untemplated : (part.withValues values).tree.readsTemplates = false :=
    List.any_eq_false.mpr fun operand read => by simp [(plain operand read).1]
  have finds
      : (stores registration.runner).Finds (part.withValues values).tree (row.getD .null) _ :=
    Store.finds_found plain kept
  rw [← part.readsParams_withValues values]
  simp only [Catalog.storeSet?, Part.bucket_withValues, registered, Option.bind_some]
  exact Store.setOf?_of_finds sorter untemplated finds

variable (federated : Federated catalog stores tree plan) (sorter : StableSort Row)
  (coalesce : Bool) (request : Request) (row : Option ParamRow)

include federated

/-- The store of a part returns the objects that meet the part's piece of the tree, if the parts
behind it, to which alone it refers, offer all the values that their pieces find.
-/
theorem storeSet?_of_behind {id : Nat} {piece : RuleTree}
    (known : (tree.pieces catalog)[id]? = some piece) (here : plan.part? id = some part)
    (behind
      : ∀ other source,
          id < other
          → (tree.pieces catalog)[other]? = some source
          → (plan.answer (catalog.storeSet sorter stores coalesce request) row other).rows
            = source.found (catalog.reading stores (row.getD .null)))
    : catalog.storeSet? sorter stores coalesce request
        (part.withValues (plan.values (catalog.storeSet sorter stores coalesce request) row))
        (if part.readsParams then row else none)
      = request.finish sorter id (piece.found (catalog.reading stores (row.getD .null))) := by
  have wellFormed := federated.wellFormed
  have inside : part ∈ plan.parts := List.mem_of_getElem? here
  rw [federated.storeSet?_eq_finish sorter coalesce request inside, wellFormed.ids id part here,
    federated.found_withValues here known]
  intro other field read
  have later := wellFormed.later part inside other
    ((wellFormed.mem_dependsOn_iff inside other).mpr ⟨field, read⟩)
  rw [wellFormed.ids id part here] at later
  obtain ⟨source, placed⟩ := federated.exists_piece later.2
  exact ⟨source, placed, congrArg (distinctColumn · field) (behind other source later.1 placed)⟩

/-- The parts behind the root come to the objects that meet their pieces of the tree, by induction
on the parts behind them. They offer all the values that they have found.
-/
theorem rows_answer_eq_found {id : Nat} {piece : RuleTree} (other : id ≠ 0)
    (known : (tree.pieces catalog)[id]? = some piece)
    : (plan.answer (catalog.storeSet sorter stores coalesce request) row id).rows
      = piece.found (catalog.reading stores (row.getD .null)) := by
  have wellFormed := federated.wellFormed
  have below : id < plan.parts.length := by
    rw [← federated.length_pieces]
    exact (List.getElem?_eq_some_iff.mp known).1
  obtain ⟨part, here⟩ : ∃ part, plan.part? id = some part := ⟨_, List.getElem?_eq_getElem below⟩
  rw [plan.answer_eq wellFormed here, Catalog.storeSet,
    federated.storeSet?_of_behind sorter coalesce request row known here,
    request.finish_of_ne_zero sorter other]
  · rfl
  · intro later source behind placed
    exact rows_answer_eq_found (by omega) placed
termination_by plan.parts.length - id

/-- The store of a part returns the objects that meet the part's piece of the tree. -/
theorem storeSet?_eq_finish_found {id : Nat} {piece : RuleTree}
    (known : (tree.pieces catalog)[id]? = some piece) (here : plan.part? id = some part)
    : catalog.storeSet? sorter stores coalesce request
        (part.withValues (plan.values (catalog.storeSet sorter stores coalesce request) row))
        (if part.readsParams then row else none)
      = request.finish sorter id (piece.found (catalog.reading stores (row.getD .null))) :=
  federated.storeSet?_of_behind sorter coalesce request row known here
    fun other source behind placed =>
      federated.rows_answer_eq_found sorter coalesce request row (by omega) placed

/-- All stores return something if what meets the tree can be sorted for each parameter row. -/
theorem sorted
    (finishes
      : ∀ row ∈ request.rows,
          (finishRows sorter request.sort request.pagination
            (tree.found (catalog.reading stores row))).isSome)
    : plan.Sorted catalog sorter stores coalesce request := by
  intro id part here row among
  obtain ⟨piece, known⟩ := federated.exists_piece (List.getElem?_eq_some_iff.mp here).1
  simp only [federated.storeSet?_eq_finish_found sorter coalesce request row known here]
  by_cases root : id = 0
  · subst root
    obtain rfl : tree = piece := Option.some.inj known
    refine finishes _ ?_
    rw [request.rows_eq]
    exact List.mem_map_of_mem among
  · rw [request.finish_of_ne_zero sorter root]
    rfl

/-- The plan finds, for each parameter row, the objects that meet the tree, as the request wants
them, if the sort gives up for none of the rows.
-/
theorem runPlan_completes (given : tree.readsParams = true → request.params ≠ [])
    {sets : List RowSet}
    (finished
      : request.rows.mapM (fun row =>
          finishRows sorter request.sort request.pagination
            (tree.found (catalog.reading stores row)))
        = some sets)
    : Completes (runPlan catalog (Store.respond sorter stores) coalesce plan request) sets := by
  have reads (planReads : plan.readsParams = true) : tree.readsParams = true := by
    obtain ⟨part, inside, partReads⟩ := List.any_eq_true.mp planReads
    obtain ⟨operand, read, row⟩ := List.any_eq_true.mp partReads
    refine List.any_eq_true.mpr ⟨operand, federated.mem_operands inside read ?_, row⟩
    cases operand with
    | part => cases row
    | literal | param | template | values => rfl
  have finishes : ∀ row ∈ request.rows,
      (finishRows sorter request.sort request.pagination
        (tree.found (catalog.reading stores row))).isSome := by
    intro row among
    rw [Option.isSome_iff_ne_none]
    intro none
    cases (mapM_eq_none_iff.mpr ⟨row, among, none⟩).symm.trans finished
  obtain ⟨root, here, -⟩ := federated.wellFormed.root
  have ran := runPlan_completes_respond federated.wellFormed federated.served
    (federated.sorted sorter coalesce request finishes) fun planReads => given (reads planReads)
  have same : sets = request.slots.map fun row =>
      plan.answer (catalog.storeSet sorter stores coalesce request) row 0 := by
    rw [request.rows_eq, List.mapM_map, mapM_eq_some_iff] at finished
    rw [← List.forall₂_eq_eq_eq, List.forall₂_map_right_iff]
    refine finished.flip.imp fun set row finished => ?_
    rw [plan.answer_eq federated.wellFormed here, Catalog.storeSet,
      federated.storeSet?_eq_finish_found sorter coalesce request row rfl here]
    exact (congrArg (Option.getD · RowSet.empty) finished).symm
  exact same ▸ ran

end Federated

end Execution

end FederatedQuery
