import FederatedQuery.Proofs.Catalog
import FederatedQuery.Proofs.RuleTree.Operands
import FederatedQuery.Proofs.RuleTree.Traversal

/-! What the trees look like that queries are read as: no scope is known yet, rules compare
with what the query says, nested trees are on the bucket around them, and the tree of a
sub-query is on the sub-query's bucket.
-/

namespace FederatedQuery

/-- The operand stands in a query: it is a literal or a reference to the parameter row. -/
def Operand.isWritten : Operand → Bool
  | .literal _ | .param _ | .template _ => true
  | .part _ _ | .values _ => false

/-- The member of an alternative on a bucket has been read from a query and not yet split or
resolved.
-/
inductive Member.Written : String → Member → Prop where
  | rule (bucket : String) (test : Test) {operand : Operand}
      (plain : operand.isWritten = true)
      : Written bucket (.rule test operand)
  | subQuery (bucket : String) (test : Test) (target field : String)
      {alternatives : List Alternative}
      (inside : ∀ members ∈ alternatives, ∀ member ∈ members, Written target member)
      : Written bucket (.subQuery test target field (.anyOf target none alternatives))
  | group (bucket : String) {alternatives : List Alternative}
      (inside : ∀ members ∈ alternatives, ∀ member ∈ members, Written bucket member)
      : Written bucket (.group (.anyOf bucket none alternatives))

/-- Alternatives on a bucket of which every member has been read from a query. -/
def AllWritten (bucket : String) (alternatives : List Alternative) : Prop :=
  ∀ members ∈ alternatives, ∀ member ∈ members, member.Written bucket

/-- A tree on a bucket that has been read from a query. -/
inductive RuleTree.Written (bucket : String) : RuleTree → Prop where
  | anyOf {alternatives : List Alternative} (inside : AllWritten bucket alternatives)
      : Written bucket (.anyOf bucket none alternatives)

theorem RuleTree.Written.bucket_eq {bucket : String} {tree : RuleTree}
    (written : tree.Written bucket)
    : tree.bucket = bucket := by
  obtain ⟨_⟩ := written
  rfl

/-- The operands of what has been read from a query stand in it, by induction on the member. -/
theorem Member.Written.isWritten {bucket : String} {member : Member}
    (written : member.Written bucket)
    : ∀ operand ∈ member.operands, operand.isWritten = true := by
  induction written with
  | rule bucket test plain => simpa using plain
  | subQuery bucket test target field inside ih =>
      intro operand read
      simp only [RuleTree.operands_subQuery, RuleTree.operands_anyOf, List.mem_flatMap] at read
      obtain ⟨members, of, member, among, read⟩ := read
      exact ih members of member among operand read
  | group bucket inside ih =>
      intro operand read
      simp only [RuleTree.operands_group, RuleTree.operands_anyOf, List.mem_flatMap] at read
      obtain ⟨members, of, member, among, read⟩ := read
      exact ih members of member among operand read

theorem RuleTree.Written.isWritten {bucket : String} {tree : RuleTree}
    (written : tree.Written bucket)
    : ∀ operand ∈ tree.operands, operand.isWritten = true := by
  obtain ⟨inside⟩ := written
  intro operand read
  simp only [RuleTree.operands_anyOf, List.mem_flatMap] at read
  obtain ⟨members, of, member, among, read⟩ := read
  exact (inside members of member among).isWritten operand read

/-- A tree that has been read from a query refers to no parts. -/
theorem RuleTree.Written.partRefs {bucket : String} {tree : RuleTree}
    (written : tree.Written bucket)
    : tree.operands.filterMap Operand.part? = [] := by
  rw [List.filterMap_eq_nil_iff]
  intro operand read
  have plain := written.isWritten operand read
  cases operand with
  | part => cases plain
  | literal | param | template | values => rfl

theorem Operand.Suits.isWritten {op : Op} {operand : Operand} (suits : operand.Suits op)
    : operand.isWritten = true := by
  cases suits <;> rfl

namespace RuleTree

variable {ρ : Type}

/-- Entries are read as written members, since each case of the reading makes them so. -/
theorem Reads.written {catalog : Catalog ρ} {limits : Limits} {bucket : BucketDef} {depth : Nat}
    {entries : List (String × Value)} {final : Draft}
    (reads : Reads catalog limits bucket depth entries .start final)
    : AllWritten bucket.name final.alternatives := by
  refine Draft.each_alternatives (reads.each (P := fun bucket _ => Member.Written bucket.name)
    ?_ ?_ ?_ (Draft.each_start _))
  · exact fun _ compared => .rule _ _ compared.isWritten
  · exact fun _ _ _ _ _ inside => .subQuery _ _ _ _ inside
  · exact fun _ _ inside => .group _ inside

/-- A query on a bucket is read as a written tree on it, and never fails with a cycle. -/
theorem yields_ofQuery {catalog : Catalog ρ} (reachable : catalog.Reachable) (limits : Limits)
    (bucket : String) (query : Query)
    : Yields (Written bucket) (ofQuery catalog limits bucket query) := by
  refine (yields_reads catalog limits bucket query).mono ?_
  rintro _ ⟨registration, final, found, reads, rfl⟩
  exact reachable.name_eq found ▸ .anyOf reads.written

/-- Whatever the catalog, a query is read as a written tree. -/
theorem exists_written_of_ofQuery {catalog : Catalog ρ} {limits : Limits} {bucket : String}
    {query : Query} {tree : RuleTree} (read : ofQuery catalog limits bucket query = .ok tree)
    : ∃ name, tree.Written name := by
  obtain ⟨registration, final, -, reads, rfl⟩ :=
    (yields_reads catalog limits bucket query).of_eq_ok read
  exact ⟨registration.definition.name, .anyOf reads.written⟩

end RuleTree

end FederatedQuery
