import FederatedQuery.Proofs.Plan.Splitting
import FederatedQuery.Proofs.RuleTree.Operands
import Mathlib.Data.List.Nodup

/-! The numbers of the parts. Parts are numbered from front to back without a gap, and of the
numbers given to what is split off from a piece of a tree, each is referred to once: by the
piece itself, or by one of the parts.
-/

namespace FederatedQuery

/-- The parts split off from something have the ids from `next` on, each refers to later ones
only, and every id is referred to once, by the parts or among the given references.
-/
structure Numbered (next : Nat) (references : List Nat) (parts : List Part) : Prop where
  ids : parts.map Part.id = List.range' next parts.length
  later : ∀ part ∈ parts, ∀ id ∈ part.dependsOn, part.id < id
  referenced
    : (references ++ parts.flatMap Part.dependsOn).Perm (List.range' next parts.length)

namespace Numbered

variable {next : Nat} {references others : List Nat} {parts rest : List Part}

theorem nil (next : Nat) : Numbered next [] [] where
  ids := rfl
  later := by simp
  referenced := List.Perm.refl _

/-- The parts split off from two pieces are numbered one after the other. -/
theorem append (first : Numbered next references parts)
    (second : Numbered (next + parts.length) others rest)
    : Numbered next (references ++ others) (parts ++ rest) where
  ids := by
    rw [List.map_append, first.ids, second.ids, List.length_append, List.range'_append_1]
  later part inside := by
    rcases List.mem_append.mp inside with inside | inside
    · exact first.later part inside
    · exact second.later part inside
  referenced := by
    rw [List.flatMap_append, List.length_append, ← List.range'_append_1]
    refine List.Perm.trans ?_ (first.referenced.append second.referenced)
    simp only [List.append_assoc]
    exact List.Perm.append_left references (List.perm_append_comm_assoc ..)

/-- A tree takes the first id, before what is split off from it, and its part is what that
refers to.
-/
theorem cons (inner : Numbered (next + 1) references parts) (tree : RuleTree)
    : Numbered next [next] (⟨next, tree, references⟩ :: parts) where
  ids := by simp [inner.ids, List.range'_succ]
  later part inside := by
    rcases List.mem_cons.mp inside with rfl | inside
    · intro id listed
      have among := inner.referenced.mem_iff.mp (List.mem_append_left _ listed)
      have above := (List.mem_range'_1.mp among).1
      simp only
      omega
    · exact inner.later part inside
  referenced := by
    simpa [List.range'_succ] using inner.referenced

/-- No part lists another twice, since every id is referred to once. -/
theorem nodup (numbered : Numbered next references parts) {part : Part} (inside : part ∈ parts)
    : part.dependsOn.Nodup := by
  have distinct := numbered.referenced.nodup_iff.mpr List.nodup_range'
  exact (List.nodup_flatMap.mp (List.nodup_append.mp distinct).2.1).1 part inside

end Numbered

/-- What is split off from something without references to parts leaves references behind, in
the order of the rules, and so in every part.
-/
def Referring (source kept : List Operand) (references : List Nat) (parts : List Part) : Prop :=
  source.filterMap Operand.part? = []
  → references = kept.filterMap Operand.part?
    ∧ ∀ part ∈ parts, part.dependsOn = part.tree.operands.filterMap Operand.part?

theorem Referring.append {source kept otherSource otherKept : List Operand}
    {references others : List Nat} {parts rest : List Part}
    (first : Referring source kept references parts)
    (second : Referring otherSource otherKept others rest)
    : Referring (source ++ otherSource) (kept ++ otherKept) (references ++ others)
        (parts ++ rest) := by
  intro none
  rw [List.filterMap_append, List.append_eq_nil_iff] at none
  obtain ⟨same, faithful⟩ := first none.1
  obtain ⟨sameOthers, faithfulRest⟩ := second none.2
  refine ⟨by rw [same, sameOthers, List.filterMap_append], fun part inside => ?_⟩
  rcases List.mem_append.mp inside with inside | inside
  · exact faithful part inside
  · exact faithfulRest part inside

theorem Referring.whole (operands : List Operand) : Referring operands operands [] [] :=
  fun none => ⟨none.symm, by simp⟩

namespace RuleTree

variable {ρ : Type}

/-- Every case of the traversal takes up the ids where the pieces before it have stopped. -/
theorem numbered_cases (catalog : Catalog ρ)
    : SplitCases catalog
        (fun next _ parts => Numbered next [next] parts)
        (fun _ next _ split => Numbered next split.dependsOn split.parts)
        (fun _ next _ split => Numbered next split.dependsOn split.parts)
        (fun _ next _ split => Numbered next split.dependsOn split.parts) where
  tree _ _ _ _ _ _ _ inner := inner.cons _
  noAlternatives _ next := .nil next
  alternative _ _ _ _ _ _ head tail := head.append tail
  noMembers _ next := .nil next
  member _ _ _ _ _ _ head tail := head.append tail
  rule _ next _ _ := .nil next
  group _ _ _ _ _ _ inner := inner
  inlined _ _ _ _ _ _ _ _ _ _ inner := inner
  crossing _ _ _ _ _ _ _ _ _ _ inner := inner

/-- Every case of the traversal lists the references that it leaves behind. -/
theorem referring_cases (catalog : Catalog ρ)
    : SplitCases catalog
        (fun next tree parts => Referring tree.operands [.part next ""] [next] parts)
        (fun _ _ alternatives split =>
          Referring (alternatives.flatMap fun members => members.flatMap Member.operands)
            (split.kept.flatMap fun members => members.flatMap Member.operands)
            split.dependsOn split.parts)
        (fun _ _ members split =>
          Referring (members.flatMap Member.operands) (split.kept.flatMap Member.operands)
            split.dependsOn split.parts)
        (fun _ _ member split =>
          Referring member.operands split.kept.operands split.dependsOn split.parts) where
  tree next bucket known alternatives scope split _ inner none := by
    rw [operands_anyOf] at none
    obtain ⟨same, faithful⟩ := inner none
    refine ⟨by simp [Operand.part?], fun part inside => ?_⟩
    rcases List.mem_cons.mp inside with rfl | inside
    · rw [operands_anyOf]
      exact same
    · exact faithful part inside
  noAlternatives _ _ := .whole []
  alternative _ _ _ _ _ _ head tail := head.append tail
  noMembers _ _ := .whole []
  member _ _ _ _ _ _ head tail := head.append tail
  rule _ _ _ operand := .whole [operand]
  group _ _ _ _ _ _ inner := by simpa [Split.map] using inner
  inlined _ _ _ _ _ _ _ _ _ _ inner := by simpa [Split.map] using inner
  crossing _ _ _ _ _ _ _ _ _ _ inner := inner

end RuleTree

end FederatedQuery
