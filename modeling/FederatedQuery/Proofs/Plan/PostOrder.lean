import FederatedQuery.Proofs.Plan.LeastOrder
import FederatedQuery.Proofs.Plan.WellFormed

/-! Compiled plans run in post-order. The parts of a plan form a tree, in which the children of a
part are those that it depends on; their ids number the tree in pre-order. Taking the lowest ready
part first is then the same as running the subtrees one after the other, each before its root.
-/

namespace FederatedQuery

/-- A part by its id, with those that it depends on. -/
inductive PartTree where
  | node (id : Nat) (children : List PartTree)

namespace PartTree

/-- The id of the root. -/
def id : PartTree → Nat
  | node id _ => id

mutual

/-- The nodes in pre-order, each with the ids of its children. -/
def nodes : PartTree → List (Nat × List Nat)
  | node id children => (id, children.map PartTree.id) :: nodesOfAll children

/-- The nodes of trees, one tree after the other. -/
def nodesOfAll : List PartTree → List (Nat × List Nat)
  | [] => []
  | tree :: rest => nodes tree ++ nodesOfAll rest

end

theorem nodesOfAll_append (trees others : List PartTree)
    : nodesOfAll (trees ++ others) = nodesOfAll trees ++ nodesOfAll others := by
  induction trees with
  | nil => rfl
  | cons tree rest ih => simp [nodesOfAll, ih]

mutual

/-- The ids in post-order: the subtrees of the children one after the other, then the root. -/
def postorder : PartTree → List Nat
  | node id children => postorderOfAll children ++ [id]

/-- The ids of trees in post-order, one tree after the other. -/
def postorderOfAll : List PartTree → List Nat
  | [] => []
  | tree :: rest => postorder tree ++ postorderOfAll rest

end

mutual

/-- Pre-order and post-order have the same ids, by induction on the tree. -/
theorem postorder_perm (tree : PartTree) : tree.postorder.Perm (tree.nodes.map Prod.fst) := by
  match tree with
  | node id children =>
      simp only [postorder, nodes, List.map_cons]
      exact List.perm_append_comm.trans (List.Perm.cons id (postorderOfAll_perm children))
termination_by sizeOf tree

theorem postorderOfAll_perm (trees : List PartTree)
    : (postorderOfAll trees).Perm ((nodesOfAll trees).map Prod.fst) := by
  match trees with
  | [] => exact .refl _
  | tree :: rest =>
      simp only [postorderOfAll, nodesOfAll, List.map_append]
      exact (postorder_perm tree).append (postorderOfAll_perm rest)
termination_by sizeOf trees

end

theorem ids_sublist (trees : List PartTree)
    : (trees.map PartTree.id).Sublist ((nodesOfAll trees).map Prod.fst) := by
  induction trees with
  | nil => exact .slnil
  | cons tree rest ih =>
      obtain ⟨id, children⟩ := tree
      simp only [nodesOfAll, nodes, List.map_cons, List.cons_append, List.map_append]
      exact (ih.trans (List.sublist_append_right ..)).cons_cons id

mutual

/-- The children of a node come in pre-order, by induction on the tree. -/
theorem children_sublist (tree : PartTree)
    : ∀ entry ∈ tree.nodes, entry.2.Sublist (tree.nodes.map Prod.fst) := by
  match tree with
  | node id children =>
      intro entry inside
      simp only [nodes, List.map_cons, List.mem_cons] at inside ⊢
      rcases inside with rfl | inside
      · exact (ids_sublist children).cons id
      · exact (children_sublistOfAll children entry inside).cons id
termination_by sizeOf tree

theorem children_sublistOfAll (trees : List PartTree)
    : ∀ entry ∈ nodesOfAll trees, entry.2.Sublist ((nodesOfAll trees).map Prod.fst) := by
  match trees with
  | [] => simp [nodesOfAll]
  | tree :: rest =>
      intro entry inside
      simp only [nodesOfAll, List.map_append, List.mem_append] at inside ⊢
      rcases inside with inside | inside
      · exact (children_sublist tree entry inside).trans (List.sublist_append_left ..)
      · exact (children_sublistOfAll rest entry inside).trans (List.sublist_append_right ..)
termination_by sizeOf trees

end

-----------------------------------------------------------------------------------------
-- The lowest ready part
-----------------------------------------------------------------------------------------

variable {dependencies : List (List Nat)}

/-- The nodes are numbered in pre-order from `start` on, and wait for their children. -/
structure NumberedFrom (dependencies : List (List Nat)) (start : Nat)
    (entries : List (Nat × List Nat)) : Prop where
  ids : entries.map Prod.fst = List.range' start entries.length
  lists : ∀ entry ∈ entries, listed dependencies entry.1 = entry.2
  known : start + entries.length ≤ dependencies.length

theorem NumberedFrom.append {start : Nat} {entries others : List (Nat × List Nat)}
    (numbered : NumberedFrom dependencies start (entries ++ others))
    : NumberedFrom dependencies start entries
      ∧ NumberedFrom dependencies (start + entries.length) others := by
  have ids := numbered.ids
  rw [List.map_append, List.length_append, ← List.range'_append_1] at ids
  obtain ⟨first, second⟩ := List.append_inj ids (by simp)
  have known := numbered.known
  rw [List.length_append] at known
  exact ⟨
    {
      ids := first
      lists := fun entry inside => numbered.lists entry (by simp [inside])
      known := by omega
    },
    {
      ids := second
      lists := fun entry inside => numbered.lists entry (by simp [inside])
      known := by omega
    }
  ⟩

theorem NumberedFrom.id_eq {start : Nat} {tree : PartTree}
    (numbered : NumberedFrom dependencies start tree.nodes)
    : tree.id = start := by
  obtain ⟨id, children⟩ := tree
  have ids := numbered.ids
  simp only [nodes, List.map_cons, List.length_cons, List.range'_succ, List.cons.injEq] at ids
  exact ids.1

theorem NumberedFrom.mem_postorder_iff {start : Nat} {tree : PartTree}
    (numbered : NumberedFrom dependencies start tree.nodes) (id : Nat)
    : id ∈ tree.postorder ↔ start ≤ id ∧ id < start + tree.nodes.length := by
  rw [tree.postorder_perm.mem_iff, numbered.ids, List.mem_range'_1]

theorem NumberedFrom.mem_postorderOfAll_iff {start : Nat} {trees : List PartTree}
    (numbered : NumberedFrom dependencies start (nodesOfAll trees)) (id : Nat)
    : id ∈ postorderOfAll trees ↔ start ≤ id ∧ id < start + (nodesOfAll trees).length := by
  rw [(postorderOfAll_perm trees).mem_iff, numbered.ids, List.mem_range'_1]

mutual

/-- When all that has run has lower ids than the tree, and all other lower parts wait for the root
of the tree or for one that is lower still, the lowest ready parts are those of the tree in
post-order, by induction on the tree.
-/
theorem lowestFirst_postorder (tree : PartTree) (done : List Nat)
    (numbered : NumberedFrom dependencies tree.id tree.nodes)
    (earlier : ∀ id ∈ done, id < tree.id)
    (blocked
      : ∀ other < tree.id,
          other ∉ done
          → ∃ dependency ∈ listed dependencies other,
              dependency ∉ done ∧ dependency ≤ tree.id)
    : LowestFirst dependencies done tree.postorder := by
  match tree with
  | node id children =>
      have rooted : NumberedFrom dependencies id
          ([(id, children.map PartTree.id)] ++ nodesOfAll children) := numbered
      have inner : NumberedFrom dependencies (id + 1) (nodesOfAll children) := rooted.append.2
      have waits : listed dependencies id = children.map PartTree.id :=
        numbered.lists (id, children.map PartTree.id) (by simp [nodes])
      simp only [PartTree.id] at earlier blocked
      refine LowestFirst.append_iff.mpr ⟨?_, ⟨?_, ?_, ?_⟩, fun other ready => ?_, trivial⟩
      · refine lowestFirst_postorderOfAll children done (id + 1) inner
          (fun part ran => Nat.lt_succ_of_lt (earlier part ran)) fun other below fresh => ?_
        rcases Nat.lt_succ_iff_lt_or_eq.mp below with lower | rfl
        · obtain ⟨dependency, lists, missing, le⟩ := blocked other lower fresh
          exact Or.inr ⟨dependency, lists, missing, Nat.lt_succ_of_le le⟩
        · exact Or.inl fun tree inside => waits ▸ List.mem_map_of_mem inside
      · have known := numbered.known
        simp only [nodes, List.length_cons, PartTree.id] at known
        omega
      · intro ran
        rcases List.mem_append.mp ran with ran | ran
        · exact Nat.lt_irrefl id (earlier id ran)
        · have above := ((inner.mem_postorderOfAll_iff id).mp ran).1
          omega
      · intro dependency lists
        have root := (ids_sublist children).subset (waits ▸ lists)
        exact List.mem_append_right _ ((postorderOfAll_perm children).mem_iff.mpr root)
      · by_contra below
        have fresh : other ∉ done := fun ran => ready.fresh (List.mem_append_left _ ran)
        obtain ⟨dependency, lists, missing, le⟩ := blocked other (Nat.lt_of_not_le below) fresh
        rcases List.mem_append.mp (ready.complete dependency lists) with ran | ran
        · exact missing ran
        · have above := ((inner.mem_postorderOfAll_iff dependency).mp ran).1
          omega
termination_by sizeOf tree

/-- The same for trees, of which all lower parts wait for all roots, or for a part that is lower. -/
theorem lowestFirst_postorderOfAll (trees : List PartTree) (done : List Nat) (start : Nat)
    (numbered : NumberedFrom dependencies start (nodesOfAll trees))
    (earlier : ∀ id ∈ done, id < start)
    (blocked
      : ∀ other < start,
          other ∉ done
          → (∀ tree ∈ trees, tree.id ∈ listed dependencies other)
            ∨ ∃ dependency ∈ listed dependencies other, dependency ∉ done ∧ dependency < start)
    : LowestFirst dependencies done (postorderOfAll trees) := by
  match trees with
  | [] => trivial
  | tree :: rest =>
      obtain ⟨ofTree, ofRest⟩ := numbered.append
      obtain rfl := ofTree.id_eq
      refine LowestFirst.append_iff.mpr ⟨?_, ?_⟩
      · refine lowestFirst_postorder tree done ofTree earlier fun other below fresh => ?_
        rcases blocked other below fresh with all | ⟨dependency, lists, missing, lower⟩
        · exact ⟨tree.id, all tree (by simp), fun ran => Nat.lt_irrefl _ (earlier _ ran),
            Nat.le_refl _⟩
        · exact ⟨dependency, lists, missing, Nat.le_of_lt lower⟩
      · refine lowestFirst_postorderOfAll rest (done ++ tree.postorder) _ ofRest
          (fun part ran => ?_) fun other below fresh => ?_
        · rcases List.mem_append.mp ran with ran | ran
          · exact Nat.lt_add_right _ (earlier part ran)
          · exact ((ofTree.mem_postorder_iff part).mp ran).2
        · rw [List.mem_append, ofTree.mem_postorder_iff, not_or] at fresh
          have lower : other < tree.id := by omega
          rcases blocked other lower fresh.1 with all | ⟨dependency, lists, missing, lowest⟩
          · exact Or.inl fun next inside => all next (by simp [inside])
          · refine Or.inr ⟨dependency, lists, ?_, Nat.lt_add_right _ lowest⟩
            rw [List.mem_append, ofTree.mem_postorder_iff, not_or]
            exact ⟨missing, by omega⟩
termination_by sizeOf trees

end

end PartTree

-----------------------------------------------------------------------------------------
-- The tree of a plan
-----------------------------------------------------------------------------------------

/-- The part as a node of a tree. -/
def Part.entry (part : Part) : Nat × List Nat := (part.id, part.dependsOn)

/-- The parts are the nodes of trees in pre-order, and the references those to their roots. -/
def FormTrees (references : List Nat) (parts : List Part) : Prop :=
  ∃ trees : List PartTree,
    trees.map PartTree.id = references ∧ PartTree.nodesOfAll trees = parts.map Part.entry

theorem FormTrees.nil : FormTrees [] [] := ⟨[], rfl, rfl⟩

theorem FormTrees.append {references others : List Nat} {parts rest : List Part}
    (first : FormTrees references parts) (second : FormTrees others rest)
    : FormTrees (references ++ others) (parts ++ rest) := by
  obtain ⟨trees, roots, nodes⟩ := first
  obtain ⟨trees', roots', nodes'⟩ := second
  exact ⟨trees ++ trees', by simp [roots, roots'], by
    rw [PartTree.nodesOfAll_append, nodes, nodes', List.map_append]⟩

/-- The parts are the nodes of a tree in pre-order, the first of them its root. -/
def FormTree (root : Nat) (parts : List Part) : Prop :=
  ∃ tree : PartTree, tree.id = root ∧ tree.nodes = parts.map Part.entry

namespace RuleTree

variable {ρ : Type}

/-- Every case of the traversal appends trees, and a part is the root of those split off from it. -/
theorem formTrees_cases (catalog : Catalog ρ)
    : SplitCases catalog
        (fun next _ parts => FormTree next parts)
        (fun _ _ _ split => FormTrees split.dependsOn split.parts)
        (fun _ _ _ split => FormTrees split.dependsOn split.parts)
        (fun _ _ _ split => FormTrees split.dependsOn split.parts) where
  tree next _ _ _ _ split _ inner := by
    obtain ⟨trees, roots, nodes⟩ := inner
    exact ⟨.node next trees, rfl, by simp [PartTree.nodes, Part.entry, roots, nodes]⟩
  noAlternatives _ _ := .nil
  alternative _ _ _ _ _ _ head tail := head.append tail
  noMembers _ _ := .nil
  member _ _ _ _ _ _ head tail := head.append tail
  rule _ _ _ _ := .nil
  group _ _ _ _ _ _ inner := inner
  inlined _ _ _ _ _ _ _ _ _ _ inner := inner
  crossing _ next _ _ _ _ _ _ _ _ inner := by
    obtain ⟨tree, root, nodes⟩ := inner
    exact ⟨[tree], by simp [root], by simp [PartTree.nodesOfAll, nodes]⟩

end RuleTree

namespace Plan

/-- Parts that are numbered from zero on and form a tree run in its post-order. -/
theorem order_eq_postorder {parts : List Part} {order : List Nat} {tree : PartTree}
    (numbered : Numbered 0 [0] parts) (nodes : tree.nodes = parts.map Part.entry)
    (found : executionOrder? (parts.map Part.dependsOn) = some order)
    : order = tree.postorder := by
  have ids : tree.nodes.map Prod.fst = List.range' 0 tree.nodes.length := by
    simpa [nodes, Function.comp_def, Part.entry] using numbered.ids
  have inPlan : PartTree.NumberedFrom (parts.map Part.dependsOn) 0 tree.nodes := {
    ids := ids
    lists := by
      intro entry inside
      rw [nodes] at inside
      obtain ⟨part, among, rfl⟩ := List.mem_map.mp inside
      obtain ⟨place, here⟩ := List.getElem?_of_mem among
      have same := numbered.id_eq here
      simp only [Nat.zero_add] at same
      simp [Part.entry, listed, same, here]
    known := by simp [nodes]
  }
  have root := inPlan.id_eq
  have lowest : LowestFirst (parts.map Part.dependsOn) [] tree.postorder :=
    tree.lowestFirst_postorder [] (root ▸ inPlan) (by simp) (by simp [root])
  refine (executionOrder?_lowestFirst found).unique lowest ?_
  rw [(executionOrder?_sound found).1.length_eq, tree.postorder_perm.length_eq]
  simp [nodes]

variable {ρ : Type} {catalog : Catalog ρ} {limits : Limits} {bucket : String} {query : Query}
  {plan : Plan}

/-- The parts of a compiled plan are the nodes of a tree, numbered in pre-order from the root, which
is part 0. The children of a part are those that it depends on, in ascending order, which is the
order in which its rules refer to them. The plan runs the tree in post-order, and the root last.
-/
theorem compile_postorder (compiled : compile catalog limits bucket query = .ok plan)
    : ∃ tree : PartTree,
        tree.id = 0
        ∧ tree.nodes = plan.parts.map (fun part => (part.id, part.dependsOn))
        ∧ plan.parts.map Part.id = List.range plan.parts.length
        ∧ (∀ part ∈ plan.parts,
            part.dependsOn = part.tree.partRefs ∧ part.dependsOn.Pairwise (· < ·))
        ∧ plan.order = tree.postorder
        ∧ ∃ before, plan.order = before ++ [0] := by
  obtain ⟨source, read, split⟩ := bind_eq_ok_iff.mp compiled
  obtain ⟨name, written⟩ := RuleTree.exists_written_of_ofQuery read
  obtain ⟨parts, divided, ordered⟩ := bind_eq_ok_iff.mp split
  have numbered := ((RuleTree.numbered_cases catalog).yields_partsOf limits 0 source).of_eq_ok
    divided
  have referring := ((RuleTree.referring_cases catalog).yields_partsOf limits 0 source).of_eq_ok
    divided written.partRefs
  obtain ⟨tree, root, nodes⟩ :=
    ((RuleTree.formTrees_cases catalog).yields_partsOf limits 0 source).of_eq_ok divided
  obtain ⟨order, found⟩ := numbered.exists_executionOrder?
  rw [found] at ordered
  obtain rfl := Except.ok.inj ordered
  have same := order_eq_postorder numbered nodes found
  have ids : parts.map Part.id = List.range parts.length := by
    simpa [List.range_eq_range'] using numbered.ids
  refine ⟨tree, root, nodes, ids, fun part inside => ⟨?_, ?_⟩, same, ?_⟩
  · rw [RuleTree.partRefs, ← referring.2 part inside, eraseDups_of_nodup (numbered.nodup inside)]
  · have entry : part.entry ∈ tree.nodes := nodes ▸ List.mem_map_of_mem inside
    have preorder : tree.nodes.map Prod.fst = List.range parts.length := by
      rw [nodes, ← ids, List.map_map]
      rfl
    have children := tree.children_sublist part.entry entry
    rw [preorder] at children
    exact List.pairwise_lt_range.sublist children
  · obtain ⟨id, children⟩ := tree
    obtain rfl : id = 0 := root
    exact ⟨PartTree.postorderOfAll children, same⟩

/-- A query that leaves the scope of its bucket twice, and the first time comes back to it. -/
def siblingQuery : Query :=
  ⟨[("tint", .object [("@color.code", .object [("maker", .object [("@maker.id", .object [])])])]),
    ("shade", .object [("@color.code", .object [])])]⟩

set_option maxRecDepth 100000 in
/-- The part for the makers runs before that for the tints, and both before that for the shades. -/
theorem compile_postorder_siblingQuery
    : ∃ (plan : Plan) (tree : PartTree),
        compile threeBuckets Limits.default "shape" siblingQuery = .ok plan
        ∧ tree.nodes = plan.parts.map (fun part => (part.id, part.dependsOn))
        ∧ plan.order = tree.postorder
        ∧ tree.postorder = [2, 1, 3, 0] := by
  have orders : (compile threeBuckets Limits.default "shape" siblingQuery).toOption.map Plan.order
      = some [2, 1, 3, 0] := by
    decide +kernel
  obtain ⟨plan, compiled, order⟩ := toOption_map_eq_some_iff.mp orders
  obtain ⟨tree, -, nodes, -, -, postorder, -⟩ := compile_postorder compiled
  exact ⟨plan, tree, compiled, nodes, postorder, postorder ▸ order⟩

end Plan

end FederatedQuery
