import FederatedQuery.Proofs.Catalog
import FederatedQuery.Proofs.RuleTree.Operands
import FederatedQuery.Proofs.RuleTree.Traversal

/-! The normal form of the trees that queries are read as. No alternative is empty, a nested tree
is a choice on the bucket around it, a sub-query asks for a field of a registered bucket, and
every rule asks what a key may ask for. The tree has a rule for each entry of the query that is
not a group, and no other rules.
-/

namespace FederatedQuery

/-- The catalog has this bucket under its own name. -/
def Catalog.Defines {ρ : Type} (catalog : Catalog ρ) (bucket : BucketDef) : Prop :=
  ∃ registration, catalog.get? bucket.name = some registration ∧ registration.definition = bucket

theorem Catalog.Reachable.defines {ρ : Type} {catalog : Catalog ρ} (reachable : catalog.Reachable)
    {bucket : String} {registration : Registration ρ}
    (found : catalog.get? bucket = some registration)
    : catalog.Defines registration.definition :=
  ⟨registration, (reachable.name_eq found).symm ▸ found, rfl⟩

/-- The member of an alternative on a bucket is in normal form, with sub-queries nested at most
to a depth. The scope of its trees is not known yet.
-/
inductive Member.Normal {ρ : Type} (catalog : Catalog ρ)
    : BucketDef → Nat → Member → Prop where
  | rule {bucket : BucketDef} {depth : Nat} {test : Test} {operand : Operand}
      (tested : test.Suits bucket) (compared : operand.Suits test.op)
      : Normal catalog bucket depth (.rule test operand)
  | subQuery {bucket target : BucketDef} {depth : Nat} {test : Test} {field : String}
      {alternatives : List Alternative}
      (tested : test.Suits bucket)
      (registered : catalog.Defines target)
      (known : target.hasField field = true)
      (asking : ∀ members ∈ alternatives, members ≠ [])
      (inside
        : ∀ members ∈ alternatives, ∀ member ∈ members, Normal catalog target depth member)
      : Normal catalog bucket (depth + 1)
          (.subQuery test target.name field (.anyOf target.name none alternatives))
  | group {bucket : BucketDef} {depth : Nat} {alternatives : List Alternative}
      (several : 2 ≤ alternatives.length)
      (asking : ∀ members ∈ alternatives, members ≠ [])
      (inside
        : ∀ members ∈ alternatives, ∀ member ∈ members, Normal catalog bucket depth member)
      : Normal catalog bucket depth (.group (.anyOf bucket.name none alternatives))

/-- A tree on a registered bucket is in normal form, with sub-queries nested at most to a depth.
-/
inductive RuleTree.Normal {ρ : Type} (catalog : Catalog ρ) (depth : Nat) : RuleTree → Prop where
  | anyOf {bucket : BucketDef} {alternatives : List Alternative}
      (registered : catalog.Defines bucket)
      (asking : ∀ members ∈ alternatives, members ≠ [])
      (inside : EachMember (Member.Normal catalog bucket depth) alternatives)
      : Normal catalog depth (.anyOf bucket.name none alternatives)

namespace Query

mutual

/-- The number of entries that are not groups, with those inside groups and sub-queries. -/
def countRules : List (String × Value) → Nat
  | [] => 0
  | (key, value) :: rest =>
      match (EntryKey.ofText key).body with
      | .group _ => countInside value + countRules rest
      | .rule _ => countBelow value + countRules rest + 1

/-- The number of rules that a group's object writes. -/
def countInside : Value → Nat
  | .object entries => countRules entries
  | _ => 0

/-- The number of rules that the sub-query in a rule's value writes. -/
def countBelow : Value → Nat
  | .object [(marker, inner)] => if marker.toList.head? = some '@' then countInside inner else 0
  | _ => 0

end

/-- The number of rules that the query writes, at any depth. -/
def ruleCount (query : Query) : Nat := countRules query.entries

theorem countBelow_eq (value : Value)
    : countBelow value = (value.subQuery?.map countRules).getD 0 := by
  fun_cases Value.subQuery? value with
  | case1 marker inner marked =>
      rw [countBelow, if_pos marked]
      cases inner <;> rfl
  | case2 marker inner unmarked => exact if_neg unmarked
  | case3 value unmarked => simp [countBelow]

end Query

namespace Draft

open RuleTree

/-- The number of rules in the draft. -/
def ruleCount (draft : Draft) : Nat := (rulesOfAlternatives draft.all).length

variable (draft : Draft)

theorem ruleCount_opened (key : String) : (draft.opened key).ruleCount = draft.ruleCount := by
  rcases all_opened draft key with same | added
  · rw [ruleCount, same, ruleCount]
  · simp [ruleCount, added]

theorem ruleCount_addMembers (added : List Member)
    : (draft.addMembers added).ruleCount
      = draft.ruleCount + (rulesOfMembers added).length := by
  simp only [ruleCount, all, addMembers, rulesOfAlternatives_eq, rulesOfMembers_eq,
    List.flatMap_append, List.flatMap_cons, List.length_append]
  omega

theorem ruleCount_addGroup (kind : GroupKind) (bucket : String) (added : List Alternative)
    : (draft.addGroup kind bucket added).ruleCount
      = draft.ruleCount + (rulesOfAlternatives added).length := by
  simp only [addGroup]
  split
  · simp only [ruleCount, all, addAlternatives, rulesOfAlternatives_eq, List.flatMap_append,
      List.flatMap_cons, List.length_append]
    omega
  · rfl
  · simp [ruleCount_addMembers]
  · simp [ruleCount_addMembers, rulesOfMember, rules]

/-- Leaving out empty alternatives leaves out no rule. -/
theorem rulesOfAlternatives_alternatives
    : rulesOfAlternatives draft.alternatives = rulesOfAlternatives draft.all := by
  have kept (alternatives : List Alternative)
      : rulesOfAlternatives (alternatives.filter fun members => !members.isEmpty)
        = rulesOfAlternatives alternatives := by
    induction alternatives with
    | nil => rfl
    | cons members rest ih => cases members <;> simp_all
  exact kept draft.all

end Draft

namespace RuleTree

variable {ρ : Type} {catalog : Catalog ρ} {limits : Limits}

/-- Entries are read as members in normal form: where the reading is at a depth, that many levels
of sub-queries are spent.
-/
theorem Reads.normal (reachable : catalog.Reachable) {bucket : BucketDef} {depth : Nat}
    {entries : List (String × Value)} {final : Draft}
    (reads : Reads catalog limits bucket depth entries .start final)
    : EachMember (Member.Normal catalog bucket (limits.maxDepth - depth)) final.alternatives := by
  refine Draft.each_alternatives (reads.each
    (P := fun bucket depth => Member.Normal catalog bucket (limits.maxDepth - depth))
    ?rule ?subQuery ?group (Draft.each_start _))
  case rule => exact .rule
  case subQuery =>
    intro bucket depth test target registration field alternatives tested shallow found known
      asking inside
    have spent : limits.maxDepth - depth = limits.maxDepth - (depth + 1) + 1 := by omega
    rw [spent]
    exact .subQuery tested (reachable.defines found) known asking inside
  case group => exact .group

/-- Each entry that is not a group adds one rule and those below it, by induction on the reading.
-/
theorem Reads.ruleCount {bucket : BucketDef} {depth : Nat} {entries : List (String × Value)}
    {draft final : Draft} (reads : Reads catalog limits bucket depth entries draft final)
    : final.ruleCount = draft.ruleCount + Query.countRules entries := by
  have started (final : Draft) (count : Nat)
      (whole : final.ruleCount = Draft.start.ruleCount + count)
      : (rulesOfAlternatives final.alternatives).length = count := by
    rw [Draft.rulesOfAlternatives_alternatives, ← Draft.ruleCount, whole]
    simp [Draft.ruleCount, Draft.start, Draft.all]
  induction reads with
  | nothing => rfl
  | group kind body inside after ihInside ihAfter =>
      rw [ihAfter, Draft.ruleCount_addGroup, Draft.ruleCount_opened, started _ _ ihInside]
      simp only [Query.countRules, body, Query.countInside]
      omega
  | rule body tested plain compared after ihAfter =>
      rw [ihAfter, Draft.ruleCount_addMembers, Draft.ruleCount_opened]
      simp only [Query.countRules, body, Query.countBelow_eq, plain, rulesOfMembers, rulesOfMember,
        List.append_nil, List.length_singleton, Option.map_none, Option.getD_none]
      omega
  | subQuery body tested asked shallow registered known inside after ihInside ihAfter =>
      rw [ihAfter, Draft.ruleCount_addMembers, Draft.ruleCount_opened]
      simp only [Query.countRules, body, Query.countBelow_eq, asked, rulesOfMembers, rulesOfMember,
        rules, List.append_nil, List.length_cons, started _ _ ihInside, Option.map_some,
        Option.getD_some]
      omega

/-- The tree that a query is read as is in normal form and on the query's bucket, and it has a
rule for every entry of the query that is not a group.
-/
theorem ofQuery_normal (reachable : catalog.Reachable) {bucket : String} {query : Query}
    {tree : RuleTree} (read : ofQuery catalog limits bucket query = .ok tree)
    : tree.Normal catalog limits.maxDepth
      ∧ tree.bucket = bucket
      ∧ tree.rules.length = query.ruleCount := by
  obtain ⟨registration, final, found, reads, rfl⟩ :=
    (yields_reads catalog limits bucket query).of_eq_ok read
  refine ⟨?_, reachable.name_eq found, ?_⟩
  · exact .anyOf (reachable.defines found) (fun _ => Draft.ne_nil_of_mem_alternatives)
      (reads.normal reachable)
  · rw [rules, Draft.rulesOfAlternatives_alternatives, ← Draft.ruleCount, reads.ruleCount,
      Query.ruleCount]
    simp [Draft.ruleCount, Draft.start, Draft.all]

/-- Shapes with two fields besides their identity, and colors with one. -/
def shapesAndColors : Catalog Unit :=
  (Catalog.empty.register ⟨⟨"shape", "id", ["tint", "size"]⟩, "east", ()⟩).register
    ⟨⟨"color", "code", ["name"]⟩, "west", ()⟩

/-- A query with a sub-query, a group that is nested and one that stands beside the others. -/
def nestedQuery : Query :=
  ⟨[("tint not ~in", .object [("@color.code", .object
      [("name ~contains", .string "gr"), ("or name", .array [])])]),
    ("#and", .object
      [("size >", .object [(".", .string "least")]),
        ("or size.width", .object [("$", .string "sizes.$0")])]),
    ("or #or", .object [("id ==", .string "a"), ("tint present", .bool true)])]⟩

/-- Two rules of the query are in a sub-query and four in groups. -/
theorem ofQuery_normal_nestedQuery
    : ∃ tree,
        ofQuery shapesAndColors Limits.default "shape" nestedQuery = .ok tree
        ∧ tree.Normal shapesAndColors 8
        ∧ tree.bucket = "shape"
        ∧ tree.rules.length = 7 := by
  have reachable : shapesAndColors.Reachable := (Catalog.Reachable.empty.register _).register _
  have reads : (ofQuery shapesAndColors Limits.default "shape" nestedQuery).toOption.map
      RuleTree.bucket = some "shape" := by
    decide +kernel
  obtain ⟨tree, read, -⟩ := toOption_map_eq_some_iff.mp reads
  obtain ⟨normal, bucket, count⟩ := ofQuery_normal reachable read
  exact ⟨tree, read, normal, bucket, count.trans (by decide +kernel)⟩

end RuleTree

end FederatedQuery
