import FederatedQuery.Proofs.Plan.Splitting
import FederatedQuery.Proofs.RuleTree.Written

/-! Which sub-queries become parts, and in which order. The sub-queries that cross into another
scope are listed as they are met in the tree, each before those inside it. Putting the listed
trees back in the place of the references to parts gives the listed trees again, so that the
parts neither lose nor move anything.
-/

namespace FederatedQuery

namespace RuleTree

section crossings

variable {ρ : Type} (catalog : Catalog ρ)

mutual

/-- The trees of the sub-queries that cross into another scope, in pre-order, for a tree that
runs in the given scope.
-/
def crossings (scope : Option String) : RuleTree → List RuleTree
  | anyOf _ _ alternatives => crossingsOfAlternatives scope alternatives

/-- The crossing sub-queries of alternatives. -/
def crossingsOfAlternatives (scope : Option String) : List (List Member) → List RuleTree
  | [] => []
  | members :: rest => crossingsOfMembers scope members ++ crossingsOfAlternatives scope rest

/-- The crossing sub-queries of an alternative. -/
def crossingsOfMembers (scope : Option String) : List Member → List RuleTree
  | [] => []
  | member :: rest => crossingsOfMember scope member ++ crossingsOfMembers scope rest

/-- The crossing sub-queries of a member. One that crosses comes before those in its tree,
which runs in the scope of its own bucket.
-/
def crossingsOfMember (scope : Option String) : Member → List RuleTree
  | .rule _ _ => []
  | .group tree => crossings scope tree
  | .subQuery _ bucket _ tree =>
      if catalog.scopeOf? bucket = scope then crossings scope tree
      else tree :: crossings (catalog.scopeOf? bucket) tree

end

/-- The tree and the sub-queries that cross into another scope, in pre-order. -/
def pieces (tree : RuleTree) : List RuleTree :=
  tree :: crossings catalog (catalog.scopeOf? tree.bucket) tree

end crossings

section rejoin

variable (sources : Nat → Option RuleTree)

mutual

/-- The tree without scopes, and with the trees given for parts as sub-queries in the place of
the references to them.
-/
def rejoin : RuleTree → RuleTree
  | anyOf bucket _ alternatives => anyOf bucket none (rejoinAlternatives alternatives)

/-- Alternatives with sub-queries in the place of references to parts. -/
def rejoinAlternatives : List (List Member) → List (List Member)
  | [] => []
  | members :: rest => rejoinMembers members :: rejoinAlternatives rest

/-- An alternative with sub-queries in the place of references to parts. -/
def rejoinMembers : List Member → List Member
  | [] => []
  | member :: rest => rejoinMember member :: rejoinMembers rest

/-- A member with sub-queries in the place of references to parts. -/
def rejoinMember : Member → Member
  | .rule test (.part id field) =>
      match sources id with
      | some tree => .subQuery test tree.bucket field tree
      | none => .rule test (.part id field)
  | .rule test operand => .rule test operand
  | .subQuery test bucket field tree => .subQuery test bucket field (rejoin tree)
  | .group tree => .group (rejoin tree)

end

end rejoin

@[simp]
theorem bucket_rejoin (sources : Nat → Option RuleTree) (tree : RuleTree)
    : (tree.rejoin sources).bucket = tree.bucket := by
  cases tree
  simp [rejoin, bucket]

/-- The trees stand in a row among the sources, from a place on. -/
def ListedFrom (sources : Nat → Option RuleTree) (next : Nat) (trees : List RuleTree) : Prop :=
  ∀ (place : Nat) (tree : RuleTree),
    trees[place]? = some tree → sources (next + place) = some tree

/-- Trees stand in a row when the first ones do, and the others from where these end. -/
theorem listedFrom_append_iff {sources : Nat → Option RuleTree} {next : Nat}
    {first second : List RuleTree}
    : ListedFrom sources next (first ++ second)
      ↔ ListedFrom sources next first ∧ ListedFrom sources (next + first.length) second := by
  constructor
  · intro listed
    refine ⟨fun place tree here => listed place tree ?_, fun place tree here => ?_⟩
    · exact List.getElem?_append_left (List.getElem?_eq_some_iff.mp here).1 ▸ here
    · rw [Nat.add_assoc]
      apply listed _ tree
      rw [List.getElem?_append_right (by omega)]
      simpa using here
  · rintro ⟨left, right⟩ place tree here
    by_cases early : place < first.length
    · exact left place tree (List.getElem?_append_left early ▸ here)
    · rw [List.getElem?_append_right (by omega)] at here
      have late := right _ tree here
      rwa [show next + first.length + (place - first.length) = next + place by omega] at late

theorem listedFrom_cons_iff {sources : Nat → Option RuleTree} {next : Nat} {tree : RuleTree}
    {rest : List RuleTree}
    : ListedFrom sources next (tree :: rest)
      ↔ sources next = some tree ∧ ListedFrom sources (next + 1) rest := by
  rw [← List.singleton_append, listedFrom_append_iff]
  refine and_congr_left fun _ => ⟨fun listed => listed 0 tree rfl, fun here place other found => ?_⟩
  obtain ⟨rfl, rfl⟩ : place = 0 ∧ tree = other := by
    cases place with
    | zero => simpa using found
    | succ place => simp at found
  exact here

/-- If the crossing sub-queries of a piece are listed among the sources, then as many parts
are split off from it, what remains of it can be rejoined, and every part rejoins to the source
in the place of its id.
-/
def Restores (sources : Nat → Option RuleTree) (next : Nat) (crossed : List RuleTree)
    (parts : List Part) (restored : Prop)
    : Prop :=
  ListedFrom sources next crossed
  → parts.length = crossed.length
    ∧ restored
    ∧ ∀ part ∈ parts, sources part.id = some (part.tree.rejoin sources)

theorem Restores.nil (sources : Nat → Option RuleTree) (next : Nat) {restored : Prop}
    (same : restored)
    : Restores sources next [] [] restored :=
  fun _ => ⟨rfl, same, by simp⟩

/-- Two pieces are restored one after the other. -/
theorem Restores.append {sources : Nat → Option RuleTree} {next : Nat}
    {crossed others : List RuleTree} {parts rest : List Part} {left right whole : Prop}
    (first : Restores sources next crossed parts left)
    (second : Restores sources (next + parts.length) others rest right)
    (together : left → right → whole)
    : Restores sources next (crossed ++ others) (parts ++ rest) whole := by
  intro listed
  obtain ⟨listedFirst, listedSecond⟩ := listedFrom_append_iff.mp listed
  obtain ⟨count, restored, rejoined⟩ := first listedFirst
  obtain ⟨countRest, restoredRest, rejoinedRest⟩ := second (count ▸ listedSecond)
  refine ⟨by simp [count, countRest], together restored restoredRest, fun part inside => ?_⟩
  rcases List.mem_append.mp inside with inside | inside
  · exact rejoined part inside
  · exact rejoinedRest part inside

/-- Every case of the traversal splits off the crossing sub-queries in pre-order and leaves
behind references by which what was read from a query can be restored.
-/
theorem restores_cases {ρ : Type} (catalog : Catalog ρ) (sources : Nat → Option RuleTree)
    : SplitCases catalog
        (fun next tree parts =>
          ∀ bucket, tree.Written bucket
          → Restores sources next (tree.pieces catalog) parts True)
        (fun scope next alternatives split =>
          ∀ bucket, AllWritten bucket alternatives
          → Restores sources next (crossingsOfAlternatives catalog scope alternatives)
              split.parts (rejoinAlternatives sources split.kept = alternatives))
        (fun scope next members split =>
          ∀ bucket, (∀ member ∈ members, member.Written bucket)
          → Restores sources next (crossingsOfMembers catalog scope members) split.parts
              (rejoinMembers sources split.kept = members))
        (fun scope next member split =>
          ∀ bucket, member.Written bucket
          → Restores sources next (crossingsOfMember catalog scope member) split.parts
              (rejoinMember sources split.kept = member)) where
  tree next bucket known alternatives scope split placed inner around written listed := by
    obtain ⟨inside⟩ := written
    simp only [pieces, RuleTree.bucket, placed, crossings] at listed ⊢
    obtain ⟨here, rest⟩ := listedFrom_cons_iff.mp listed
    obtain ⟨count, restored, rejoined⟩ := inner _ inside rest
    refine ⟨by simp [count], trivial, fun part inside => ?_⟩
    rcases List.mem_cons.mp inside with rfl | inside
    · simpa only [rejoin, restored] using here
    · exact rejoined part inside
  noAlternatives _ next _ _ := .nil sources next rfl
  alternative scope next first rest head tail ofHead ofTail bucket written :=
    (ofHead bucket (written first (by simp))).append
      (ofTail bucket fun members inside => written members (by simp [inside]))
      fun same sameRest => by simp [Split.combine, rejoinAlternatives, same, sameRest]
  noMembers _ next _ _ := .nil sources next rfl
  member scope next first rest head tail ofHead ofTail bucket written :=
    (ofHead bucket (written first (by simp))).append
      (ofTail bucket fun member inside => written member (by simp [inside]))
      fun same sameRest => by simp [Split.combine, rejoinMembers, same, sameRest]
  rule scope next test operand bucket written := by
    refine .nil sources next ?_
    cases written with
    | rule _ _ plain =>
        cases operand with
        | part => cases plain
        | literal | param | template | values => rfl
  group scope next bucket known alternatives split inner around written := by
    cases written with
    | group _ inside =>
        intro listed
        simp only [crossingsOfMember, crossings] at listed ⊢
        obtain ⟨count, restored, rejoined⟩ := inner _ inside listed
        exact ⟨count, by simp [Split.map, rejoinMember, rejoin, restored], rejoined⟩
  inlined scope next test bucket field name known alternatives split placed inner around
      written := by
    cases written with
    | subQuery _ _ _ _ inside =>
        intro listed
        simp only [crossingsOfMember, crossings, placed, ↓reduceIte] at listed ⊢
        obtain ⟨count, restored, rejoined⟩ := inner _ inside listed
        exact ⟨count, by simp [Split.map, rejoinMember, rejoin, restored], rejoined⟩
  crossing scope next test bucket field tree target parts placed different inner around
      written := by
    cases written with
    | subQuery _ _ _ _ inside =>
        intro listed
        have apart : ¬some target = some scope := fun same => different (Option.some.inj same)
        simp only [crossingsOfMember, placed, apart, ↓reduceIte] at listed ⊢
        have here := (listedFrom_cons_iff.mp listed).1
        have pieced : ∀ alternatives,
            pieces catalog (anyOf bucket none alternatives)
            = anyOf bucket none alternatives
              :: crossings catalog (some target) (anyOf bucket none alternatives) := by
          simp [pieces, RuleTree.bucket, placed]
        obtain ⟨count, _, rejoined⟩ := inner bucket (.anyOf inside) (pieced _ ▸ listed)
        exact ⟨pieced _ ▸ count, by simp [rejoinMember, here, RuleTree.bucket], rejoined⟩

end RuleTree

end FederatedQuery
