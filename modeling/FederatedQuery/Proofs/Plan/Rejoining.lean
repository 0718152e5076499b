import FederatedQuery.Proofs.Plan.Crossings
import FederatedQuery.Proofs.RuleTree.Meaning

/-! A part asks what its piece of the tree asks. The rules of the parts are rules of the tree, but
for the references to other parts, and such a reference asks what the sub-query in its place has
asked.
-/

namespace FederatedQuery.RuleTree

@[simp]
theorem rejoinMembers_eq (sources : Nat → Option RuleTree) (members : List Member)
    : rejoinMembers sources members = members.map (rejoinMember sources) := by
  induction members with
  | nil => rfl
  | cons member rest ih => simp [rejoinMembers, ih]

@[simp]
theorem rejoinAlternatives_eq (sources : Nat → Option RuleTree)
    (alternatives : List Alternative)
    : rejoinAlternatives sources alternatives
      = alternatives.map fun members => members.map (rejoinMember sources) := by
  induction alternatives with
  | nil => rfl
  | cons members rest ih => simp [rejoinAlternatives, ih]

/-- The rules of a tree stand in the rejoined tree, rejoined, by induction on the tree. -/
theorem mem_rules_rejoin (sources : Nat → Option RuleTree) (tree : RuleTree)
    : ∀ rule ∈ tree.rules, rejoinMember sources rule ∈ (tree.rejoin sources).rules := by
  induction tree using induct with
  | step bucket scope alternatives ih =>
      intro rule inside
      simp only [rules_eq, RuleTree.alternatives, rejoin, rejoinAlternatives_eq,
        List.mem_flatMap, List.mem_map] at inside ⊢
      obtain ⟨members, of, member, among, rule_⟩ := inside
      refine ⟨_, ⟨members, of, rfl⟩, _, List.mem_map_of_mem among, ?_⟩
      have inner := ih members of member among
      cases member with
      | rule test operand =>
          obtain rfl : rule = .rule test operand := by simpa [rulesOfMember] using rule_
          cases operand with
          | part id field =>
              simp only [rejoinMember]
              cases sources id with
              | none => simp [rulesOfMember]
              | some tree => simp [rulesOfMember]
          | literal | param | template | values => simp [rejoinMember, rulesOfMember]
      | group tree => exact inner tree rfl rule rule_
      | subQuery test target field tree =>
          simp only [rulesOfMember, rejoinMember, List.mem_cons] at rule_ ⊢
          rcases rule_ with rfl | deeper
          · exact Or.inl rfl
          · exact Or.inr (inner tree rfl rule deeper)

/-- A tree reads no bucket that is not read when it is rejoined. -/
theorem mem_bucketsRead_rejoin (sources : Nat → Option RuleTree) {tree : RuleTree}
    {bucket : String} (read : bucket ∈ tree.bucketsRead)
    : bucket ∈ (tree.rejoin sources).bucketsRead := by
  rcases List.mem_cons.mp read with rfl | inline
  · exact (bucket_rejoin sources tree) ▸ List.mem_cons_self
  · obtain ⟨rule, inside, names⟩ := List.mem_filterMap.mp inline
    refine List.mem_cons_of_mem _ (List.mem_filterMap.mpr
      ⟨_, mem_rules_rejoin sources tree rule inside, ?_⟩)
    cases rule with
    | rule | group => cases names
    | subQuery test target field inner => simpa [rejoinMember, Member.bucket?] using names

/-- The operands of a tree stay when it is rejoined, but for references to parts. -/
theorem mem_operands_rejoin (sources : Nat → Option RuleTree) {tree : RuleTree}
    {operand : Operand} (read : operand ∈ tree.operands) (plain : operand.part? = none)
    : operand ∈ (tree.rejoin sources).operands := by
  obtain ⟨rule, inside, compares⟩ := List.mem_filterMap.mp read
  refine List.mem_filterMap.mpr ⟨_, mem_rules_rejoin sources tree rule inside, ?_⟩
  cases rule with
  | subQuery | group => cases compares
  | rule test other =>
      obtain rfl := Option.some.inj compares
      cases other with
      | part => cases plain
      | literal | param | template | values => rfl

section crossings

variable {ρ : Type} (catalog : Catalog ρ)

@[simp]
theorem crossingsOfMembers_eq (scope : Option String) (members : List Member)
    : crossingsOfMembers catalog scope members
      = members.flatMap (crossingsOfMember catalog scope) := by
  induction members with
  | nil => rfl
  | cons member rest ih => simp [crossingsOfMembers, ih]

@[simp]
theorem crossingsOfAlternatives_eq (scope : Option String) (alternatives : List Alternative)
    : crossingsOfAlternatives catalog scope alternatives
      = alternatives.flatMap fun members => members.flatMap (crossingsOfMember catalog scope) := by
  induction alternatives with
  | nil => rfl
  | cons members rest ih => simp [crossingsOfAlternatives, ih]

/-- One of the rules is a sub-query with the tree, and the rules of the tree are among them. -/
structure Ask (rules : List Member) (tree : RuleTree) : Prop where
  subQuery : ∃ test bucket field, Member.subQuery test bucket field tree ∈ rules
  rules : ∀ rule ∈ tree.rules, rule ∈ rules

omit catalog in
theorem Ask.subset {rules more : List Member} {tree : RuleTree} (ask : Ask rules tree)
    (inside : ∀ rule ∈ rules, rule ∈ more)
    : Ask more tree where
  subQuery :=
    let ⟨test, bucket, field, asked⟩ := ask.subQuery
    ⟨test, bucket, field, inside _ asked⟩
  rules rule among := inside rule (ask.rules rule among)

/-- The rules of a tree ask for the sub-queries that cross, by induction on the tree. -/
theorem ask_of_mem_crossings (scope : Option String) (tree : RuleTree)
    : ∀ piece ∈ tree.crossings catalog scope, Ask tree.rules piece := by
  induction tree using induct generalizing scope with
  | step bucket known alternatives ih =>
      intro piece crosses
      simp only [crossings, crossingsOfAlternatives_eq, List.mem_flatMap] at crosses
      obtain ⟨members, of, member, among, crosses⟩ := crosses
      have inner := ih members of member among
      suffices asked : Ask (rulesOfMember member) piece by
        refine asked.subset fun rule inside => ?_
        simp only [rules_eq, RuleTree.alternatives, List.mem_flatMap]
        exact ⟨members, of, member, among, inside⟩
      cases member with
      | rule test operand => simp [crossingsOfMember] at crosses
      | group tree => exact inner tree rfl scope piece crosses
      | subQuery test target field tree =>
          have deeper : ∀ rule ∈ tree.rules,
              rule ∈ rulesOfMember (.subQuery test target field tree) :=
            fun rule inside => List.mem_cons_of_mem _ inside
          simp only [crossingsOfMember] at crosses
          split at crosses
          · exact (inner tree rfl _ piece crosses).subset deeper
          · rcases List.mem_cons.mp crosses with rfl | crosses
            · exact ⟨⟨test, target, field, by simp [rulesOfMember]⟩, deeper⟩
            · exact (inner tree rfl _ piece crosses).subset deeper

/-- The rules of the pieces of a tree are rules of the tree, and so are their operands. -/
theorem mem_operands_of_mem_pieces {tree piece : RuleTree}
    (inside : piece ∈ tree.pieces catalog) {operand : Operand}
    (read : operand ∈ piece.operands)
    : operand ∈ tree.operands := by
  rcases List.mem_cons.mp inside with rfl | crosses
  · exact read
  · obtain ⟨rule, among, compares⟩ := List.mem_filterMap.mp read
    have asked := (ask_of_mem_crossings catalog _ tree piece crosses).rules rule among
    exact List.mem_filterMap.mpr ⟨rule, asked, compares⟩

/-- The pieces of a tree read buckets that the tree reads. -/
theorem mem_bucketsRead_of_mem_pieces {tree piece : RuleTree}
    (inside : piece ∈ tree.pieces catalog) {bucket : String}
    (read : bucket ∈ piece.bucketsRead)
    : bucket ∈ tree.bucketsRead := by
  rcases List.mem_cons.mp inside with rfl | crosses
  · exact read
  · have ask := ask_of_mem_crossings catalog _ tree piece crosses
    apply List.mem_cons_of_mem _
    rcases List.mem_cons.mp read with rfl | inline
    · obtain ⟨test, target, field, asked⟩ := ask.subQuery
      exact List.mem_filterMap.mpr ⟨_, asked, rfl⟩
    · obtain ⟨rule, among, names⟩ := List.mem_filterMap.mp inline
      exact List.mem_filterMap.mpr ⟨rule, ask.rules rule among, names⟩

end crossings

/-- If the references to parts are replaced by what the sources in their places find, and nothing
else is replaced, then rows meet the tree as they meet the rejoined tree, by induction on it.
-/
theorem meets_rejoin {reading : Reading} {sources : Nat → Option RuleTree}
    (resolve : Operand → Operand) (tree : RuleTree)
    (parts
      : ∀ id field, Operand.part id field ∈ tree.operands
        → ∃ source,
            sources id = some source
            ∧ resolve (.part id field) = .values (distinctColumn (source.found reading) field))
    (others : ∀ operand, operand.part? = none → resolve operand = operand)
    : (tree.mapOperands resolve).meets reading = (tree.rejoin sources).meets reading := by
  induction tree using induct with
  | step bucket scope alternatives ih =>
      rw [mapOperands, mapAlternatives_eq, rejoin, rejoinAlternatives_eq]
      refine meets_map_congr fun members inside member among row => ?_
      have replaced : ∀ id field, Operand.part id field ∈ member.operands → _ :=
        fun id field read => parts id field (mem_operands_of_member inside among read)
      have inner := ih members inside member among
      cases member with
      | group tree => exact congrFun (inner tree rfl replaced) row
      | subQuery test target field tree =>
          have found : (tree.mapOperands resolve).found reading
              = (tree.rejoin sources).found reading := by
            simp only [RuleTree.found, bucket_mapOperands, bucket_rejoin,
              inner tree rfl replaced]
          simp only [mapMember, rejoinMember, memberMeets_subQuery, found]
      | rule test operand =>
          cases operand with
          | part id field =>
              obtain ⟨source, placed, resolved⟩ := replaced id field (by simp)
              simp only [mapMember, rejoinMember, resolved, placed, memberMeets_subQuery,
                memberMeets, Test.meets, distinctColumn, Test.passesSome_eraseDups, projected]
          | literal | param | template | values =>
              simp only [mapMember, rejoinMember]
              rw [others]
              rfl

end FederatedQuery.RuleTree
