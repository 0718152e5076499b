import FederatedQuery.Proofs.Plan.Splitting
import FederatedQuery.Proofs.RuleTree.Written

/-! Where the parts run. A part is on a bucket of its scope, and so is everything inside it,
down to the last nested tree and sub-query; a runner of that scope can therefore run it.
-/

namespace FederatedQuery

variable {ρ : Type}

/-- The member and all trees inside it are marked with the scope, and the sub-queries among
them are on buckets of the scope.
-/
inductive Member.Within (catalog : Catalog ρ) (scope : String) : Member → Prop where
  | rule (test : Test) (operand : Operand) : Within catalog scope (.rule test operand)
  | subQuery (test : Test) {bucket : String} (field : String) {alternatives : List Alternative}
      (placed : catalog.scopeOf? bucket = some scope)
      (inside
        : ∀ members ∈ alternatives, ∀ member ∈ members, Within catalog scope member)
      : Within catalog scope
          (.subQuery test bucket field (.anyOf bucket (some scope) alternatives))
  | group (bucket : String) {alternatives : List Alternative}
      (inside
        : ∀ members ∈ alternatives, ∀ member ∈ members, Within catalog scope member)
      : Within catalog scope (.group (.anyOf bucket (some scope) alternatives))

/-- The part is marked with the scope of its bucket, and so is everything inside it. -/
structure Part.Placed (catalog : Catalog ρ) (part : Part) : Prop where
  bucket : catalog.scopeOf? part.bucket = some part.scope
  tree : part.tree.scope = some part.scope
  inside
    : ∀ members ∈ part.tree.alternatives, ∀ member ∈ members, member.Within catalog part.scope

/-- Every case of the traversal marks what it keeps with the scope, and starts a new scope only
with a new part.
-/
theorem RuleTree.placed_cases (catalog : Catalog ρ)
    : SplitCases catalog
        (fun _ tree parts =>
          ∀ bucket, tree.Written bucket → ∀ part ∈ parts, part.Placed catalog)
        (fun scope _ alternatives split =>
          ∀ bucket, AllWritten bucket alternatives
          → (∀ members ∈ split.kept, ∀ member ∈ members, member.Within catalog scope)
            ∧ ∀ part ∈ split.parts, part.Placed catalog)
        (fun scope _ members split =>
          ∀ bucket, (∀ member ∈ members, member.Written bucket)
          → (∀ member ∈ split.kept, member.Within catalog scope)
            ∧ ∀ part ∈ split.parts, part.Placed catalog)
        (fun scope _ member split =>
          ∀ bucket, member.Written bucket
          → split.kept.Within catalog scope ∧ ∀ part ∈ split.parts, part.Placed catalog) where
  tree next bucket known alternatives scope split placed inner around written part among := by
    obtain ⟨inside⟩ := written
    obtain ⟨marked, others⟩ := inner _ inside
    rcases List.mem_cons.mp among with rfl | among
    · exact ⟨placed, rfl, marked⟩
    · exact others part among
  noAlternatives _ _ := by simp [Split.whole]
  alternative _ _ _ _ _ _ ofHead ofTail bucket written := by
    have head := ofHead bucket (written _ (by simp))
    have tail := ofTail bucket fun members inside => written members (by simp [inside])
    simp only [Split.combine, List.mem_cons, List.mem_append, or_imp, forall_and, forall_eq]
    exact ⟨⟨head.1, tail.1⟩, head.2, tail.2⟩
  noMembers _ _ := by simp [Split.whole]
  member _ _ _ _ _ _ ofHead ofTail bucket written := by
    have head := ofHead bucket (written _ (by simp))
    have tail := ofTail bucket fun member inside => written member (by simp [inside])
    simp only [Split.combine, List.mem_cons, List.mem_append, or_imp, forall_and, forall_eq]
    exact ⟨⟨head.1, tail.1⟩, head.2, tail.2⟩
  rule _ _ test operand _ _ := ⟨.rule test operand, by simp [Split.whole]⟩
  group _ _ bucket _ _ _ inner _ written := by
    cases written with
    | group _ inside =>
        obtain ⟨marked, others⟩ := inner _ inside
        exact ⟨.group bucket marked, others⟩
  inlined _ _ test _ field _ _ _ _ placed inner _ written := by
    cases written with
    | subQuery _ _ _ _ inside =>
        obtain ⟨marked, others⟩ := inner _ inside
        exact ⟨.subQuery test field placed marked, others⟩
  crossing _ _ test _ _ _ _ _ _ _ inner _ written := by
    cases written with
    | subQuery _ _ _ _ inside => exact ⟨.rule test _, inner _ (.anyOf inside)⟩

/-- The sub-queries inside the member are on registered buckets. -/
def Member.Registered (catalog : Catalog ρ) (member : Member) : Prop :=
  ∀ rule ∈ RuleTree.rulesOfMember member, ∀ bucket ∈ rule.bucket?, catalog.contains bucket = true

theorem Catalog.contains_of_scopeOf? {catalog : Catalog ρ} {bucket scope : String}
    (known : catalog.scopeOf? bucket = some scope)
    : catalog.contains bucket = true := by
  obtain ⟨registration, registered, -⟩ := scopeOf?_eq_some known
  simp [contains, registered]

/-- A sub-query on a registered bucket is registered if so are the rules inside it. -/
theorem Member.registered_subQuery {catalog : Catalog ρ} {test : Test} {bucket field : String}
    {tree : RuleTree} (known : catalog.contains tree.bucket = true)
    (inside : ∀ name ∈ tree.inlineBuckets, catalog.contains name = true)
    : (Member.subQuery test bucket field tree).Registered catalog := by
  intro rule among name names
  rcases List.mem_cons.mp among with rfl | among
  · exact Option.some.inj names ▸ known
  · exact inside name (List.mem_filterMap.mpr ⟨rule, among, names⟩)

/-- The buckets inside a tree are registered if so are all its members. -/
theorem RuleTree.contains_of_registered {catalog : Catalog ρ} (tree : RuleTree)
    (registered
      : ∀ members ∈ tree.alternatives, ∀ member ∈ members, member.Registered catalog)
    : ∀ bucket ∈ tree.inlineBuckets, catalog.contains bucket = true := by
  intro bucket asked
  obtain ⟨rule, among, names⟩ := List.mem_filterMap.mp asked
  simp only [rules_eq, List.mem_flatMap] at among
  obtain ⟨members, of, member, among, rule_⟩ := among
  exact registered members of member among rule rule_ bucket names

/-- A tree is split only if every bucket that it reads is registered. -/
theorem RuleTree.registered_cases (catalog : Catalog ρ)
    : SplitCases catalog
        (fun _ tree _ =>
          ∀ bucket, tree.Written bucket → ∀ name ∈ tree.bucketsRead, catalog.contains name = true)
        (fun _ _ alternatives _ =>
          ∀ bucket, AllWritten bucket alternatives
          → ∀ members ∈ alternatives, ∀ member ∈ members, member.Registered catalog)
        (fun _ _ members _ =>
          ∀ bucket, (∀ member ∈ members, member.Written bucket)
          → ∀ member ∈ members, member.Registered catalog)
        (fun _ _ member _ => ∀ bucket, member.Written bucket → member.Registered catalog) where
  tree _ _ _ _ _ _ placed inner _ written name read := by
    obtain ⟨inside⟩ := written
    rcases List.mem_cons.mp read with rfl | inline
    · exact Catalog.contains_of_scopeOf? placed
    · exact contains_of_registered (.anyOf _ _ _) (inner _ inside) name inline
  noAlternatives _ _ := by simp
  alternative _ _ _ _ _ _ ofHead ofTail bucket written := by
    have head := ofHead bucket (written _ (by simp))
    have tail := ofTail bucket fun members inside => written members (by simp [inside])
    simpa using ⟨head, tail⟩
  noMembers _ _ := by simp
  member _ _ _ _ _ _ ofHead ofTail bucket written := by
    have head := ofHead bucket (written _ (by simp))
    have tail := ofTail bucket fun member inside => written member (by simp [inside])
    simpa using ⟨head, tail⟩
  rule _ _ test operand _ _ := by
    intro rule among name names
    obtain rfl : rule = .rule test operand := by simpa [rulesOfMember] using among
    cases names
  group _ _ target _ alternatives _ inner _ written := by
    cases written with
    | group _ inside =>
        intro rule among name names
        refine contains_of_registered (.anyOf target none alternatives) (inner _ inside) name ?_
        exact List.mem_filterMap.mpr ⟨rule, among, names⟩
  inlined _ _ _ _ _ _ _ _ _ placed inner _ written := by
    cases written with
    | subQuery _ _ _ _ inside =>
        exact Member.registered_subQuery (Catalog.contains_of_scopeOf? placed)
          (contains_of_registered (.anyOf _ _ _) (inner _ inside))
  crossing _ _ _ _ _ _ _ _ placed _ inner _ written := by
    cases written with
    | subQuery _ _ _ _ inside =>
        refine Member.registered_subQuery (Catalog.contains_of_scopeOf? placed) ?_
        exact fun name asked => inner _ (.anyOf inside) name (List.mem_cons_of_mem _ asked)

/-- Every rule inside a member of a scope is within the scope, by induction on the member. -/
theorem Member.Within.of_mem_rules {catalog : Catalog ρ} {scope : String} {member : Member}
    (marked : member.Within catalog scope)
    : ∀ rule ∈ RuleTree.rulesOfMember member, rule.Within catalog scope := by
  induction marked with
  | rule test operand =>
      intro rule inside
      obtain rfl : rule = .rule test operand := by
        simpa [RuleTree.rulesOfMember] using inside
      exact .rule test operand
  | subQuery test field placed inside ih =>
      intro rule among
      simp only [RuleTree.rulesOfMember, RuleTree.rules_eq, RuleTree.alternatives,
        List.mem_cons, List.mem_flatMap] at among
      rcases among with rfl | ⟨members, of, member, among, rule⟩
      · exact .subQuery test field placed inside
      · exact ih members of member among _ rule
  | group bucket inside ih =>
      intro rule among
      simp only [RuleTree.rulesOfMember, RuleTree.rules_eq, RuleTree.alternatives,
        List.mem_flatMap] at among
      obtain ⟨members, of, member, among, rule⟩ := among
      exact ih members of member among _ rule

theorem Part.Placed.of_mem_rules {catalog : Catalog ρ} {part : Part}
    (placed : part.Placed catalog)
    : ∀ rule ∈ part.tree.rules, rule.Within catalog part.scope := by
  intro rule among
  simp only [RuleTree.rules_eq, List.mem_flatMap] at among
  obtain ⟨members, of, member, among, rule⟩ := among
  exact (placed.inside members of member among).of_mem_rules _ rule

/-- All buckets that a part reads are in its scope. -/
theorem Part.Placed.scopeOf?_eq {catalog : Catalog ρ} {part : Part}
    (placed : part.Placed catalog)
    : ∀ bucket ∈ part.tree.bucketsRead, catalog.scopeOf? bucket = some part.scope := by
  intro bucket read
  rcases List.mem_cons.mp read with rfl | inline
  · exact placed.bucket
  · obtain ⟨rule, among, names⟩ := List.mem_filterMap.mp inline
    cases placed.of_mem_rules rule among with
    | subQuery test field known inside => exact Option.some.inj names ▸ known
    | rule | group => cases names

/-- A part in its place can be run in its scope, if it declares the parts to which its rules
refer: its sub-queries are within the scope, too.
-/
theorem Plan.checkPart_eq_ok {catalog : Catalog ρ} {plan : Plan} {id : Nat} {part : Part}
    (known : plan.part? id = some part) (placed : part.Placed catalog)
    (declared : part.dependsOn = part.tree.operands.filterMap Operand.part?)
    : plan.checkPart id part.scope = .ok () := by
  have fine : part.tree.rules.findSome? (problem? part.scope part.dependsOn) = none := by
    rw [List.findSome?_eq_none_iff]
    intro rule among
    cases placed.of_mem_rules rule among with
    | subQuery => simp [problem?, RuleTree.scope]
    | group => rfl
    | rule test operand =>
        cases operand with
        | literal | param | template | values => rfl
        | part id field =>
            have listed : id ∈ part.dependsOn := by
              rw [declared]
              exact List.mem_filterMap.mpr
                ⟨.part id field, List.mem_filterMap.mpr ⟨_, among, rfl⟩, rfl⟩
            simp [problem?, listed]
  simp [checkPart, known, fine]

end FederatedQuery
