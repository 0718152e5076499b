import FederatedQuery.Proofs.Grouping
import FederatedQuery.Proofs.RuleTree.Operands
import FederatedQuery.RowSet
import FederatedQuery.RuleTree.Matching

/-! What a rule tree asks, wherever its buckets are kept: a row meets a tree or it does not, given
all objects and one parameter row. Sub-queries are read where they stand, each time afresh.
-/

namespace FederatedQuery

/-- The objects of each bucket in identity order, and a parameter row. -/
structure Reading where
  objects : String → List Row
  params : ParamRow

/-- The operand can be compared with as it is. -/
def Operand.isBound : Operand → Bool
  | .literal _ | .values _ => true
  | .param _ | .template _ | .part _ _ => false

namespace Test

/-- The field passes against one of the values that a sub-query finds. -/
def passesValue (test : Test) (field : Option Value) (value : Value) : Bool :=
  match test.op with
  | .eq | .isIn => Value.equal test.foldCase (field.getD .null) value
  | .contains | .containsAny => Value.containsValue test.foldCase (field.getD .null) value
  | .gt | .lt | .gte | .lte => test.ordered field value
  | .present => Value.isPresent field

/-- The field passes against at least one of the values. Only whether it is present does not
depend on them.
-/
def passesSome (test : Test) (field : Option Value) (values : List Value) : Bool :=
  if test.op = .present then Value.isPresent field
  else values.any fun value => test.passesValue field value

/-- Against values found earlier, a test passes if it passes against one of them. -/
theorem passesValues_eq (test : Test) (field : Option Value) (values : List Value)
    : test.passesValues field values = test.passesSome field values := by
  cases tested : test.op <;> simp [passesValues, passesSome, passesValue, tested]

/-- It makes no difference how often a value is found. -/
theorem passesSome_eraseDups (test : Test) (field : Option Value) (values : List Value)
    : test.passesSome field values.eraseDups = test.passesSome field values := by
  simp only [passesSome]
  split
  · rfl
  · rw [Bool.eq_iff_iff]
    simp [List.any_eq_true, List.mem_eraseDups]

/-- The row meets the test on an operand. Paths that a parameter row does not have are null, and
references to templates and parts are met by nothing.
-/
def meets (test : Test) (params : ParamRow) (operand : Operand) (row : Row) : Bool :=
  let field := row.at? test.field
  match operand with
  | .literal value => test.passesLiteral field value != test.negated
  | .param path => test.passesLiteral field (params.read path) != test.negated
  | .values values => test.passesSome field values != test.negated
  | .template _ | .part _ _ => false

/-- A test on a bound operand can be tried, and holds as the row meets it. -/
theorem holds_eq_meets (test : Test) (params : ParamRow) {operand : Operand}
    (bound : operand.isBound = true) (row : Row)
    : test.holds operand row = .ok (test.meets params operand row) := by
  cases operand with
  | literal value => rfl
  | values values => simp only [holds, meets, passesValues_eq]
  | param | template | part => cases bound

end Test

/-- The values at a path in a list of rows, without nulls. -/
def projected (rows : List Row) (path : String) : List Value :=
  (column rows path).filter fun value => !value.isNull

namespace RuleTree

mutual

/-- The row meets the tree: it has no alternatives, or the row meets one of them. -/
def meets (reading : Reading) : RuleTree → Row → Bool
  | anyOf _ _ alternatives, row => alternatives.isEmpty || someMeets reading alternatives row

/-- The row meets one of the alternatives. -/
def someMeets (reading : Reading) : List (List Member) → Row → Bool
  | [], _ => false
  | members :: rest, row => allMeet reading members row || someMeets reading rest row

/-- The row meets all members. -/
def allMeet (reading : Reading) : List Member → Row → Bool
  | [], _ => true
  | member :: rest, row => memberMeets reading member row && allMeet reading rest row

/-- The row meets the member. A sub-query's rule is met if the test passes against a value that
is not null in the field of an object that meets the sub-query's tree; negation turns it round.
-/
def memberMeets (reading : Reading) : Member → Row → Bool
  | .rule test operand, row => test.meets reading.params operand row
  | .subQuery test _ field tree, row =>
      let found := (reading.objects tree.bucket).filter fun object => meets reading tree object
      test.passesSome (row.at? test.field) (projected found field) != test.negated
  | .group tree, row => meets reading tree row

end

/-- The objects of the tree's bucket that meet the tree, in identity order. -/
def found (reading : Reading) (tree : RuleTree) : List Row :=
  (reading.objects tree.bucket).filter (tree.meets reading)

@[simp]
theorem allMeet_eq (reading : Reading) (members : List Member) (row : Row)
    : allMeet reading members row = members.all fun member => memberMeets reading member row := by
  induction members with
  | nil => rfl
  | cons member rest ih => simp [allMeet, ih]

@[simp]
theorem someMeets_eq (reading : Reading) (alternatives : List Alternative) (row : Row)
    : someMeets reading alternatives row
      = alternatives.any fun members =>
          members.all fun member => memberMeets reading member row := by
  induction alternatives with
  | nil => rfl
  | cons members rest ih => simp [someMeets, ih]

theorem memberMeets_subQuery (reading : Reading) (test : Test) (bucket field : String)
    (tree : RuleTree) (row : Row)
    : memberMeets reading (.subQuery test bucket field tree) row
      = (test.passesSome (row.at? test.field) (projected (tree.found reading) field)
          != test.negated) := by
  simp only [memberMeets, found]

/-- Two functions of members that ask the same of every row make trees that ask the same. -/
theorem meets_map_congr {reading other : Reading} {f g : Member → Member}
    {bucket name : String} {scope known : Option String} {alternatives : List Alternative}
    (same
      : ∀ members ∈ alternatives, ∀ member ∈ members, ∀ row,
          memberMeets reading (f member) row = memberMeets other (g member) row)
    : (anyOf bucket scope (alternatives.map fun members => members.map f)).meets reading
      = (anyOf name known (alternatives.map fun members => members.map g)).meets other := by
  funext row
  simp only [meets, someMeets_eq, List.any_map, List.isEmpty_map]
  congr 1
  rw [Bool.eq_iff_iff]
  simp only [List.any_eq_true, Function.comp, List.all_map, List.all_eq_true]
  constructor
  · rintro ⟨members, inside, met⟩
    exact ⟨members, inside, fun member among =>
      same members inside member among row ▸ met member among⟩
  · rintro ⟨members, inside, met⟩
    exact ⟨members, inside, fun member among =>
      (same members inside member among row).symm ▸ met member among⟩

/-- Replacing operands by others that rows meet alike, under readings of the same objects, gives
a tree that rows meet alike, by induction on the tree.
-/
theorem meets_mapOperands {reading other : Reading} (f : Operand → Operand) (tree : RuleTree)
    (objects : reading.objects = other.objects)
    (same
      : ∀ operand ∈ tree.operands, ∀ (test : Test) (row : Row),
          test.meets reading.params (f operand) row = test.meets other.params operand row)
    : (tree.mapOperands f).meets reading = tree.meets other := by
  induction tree using induct with
  | step bucket scope alternatives ih =>
      have kept : alternatives = alternatives.map fun members => members.map id := by simp
      rw [mapOperands, mapAlternatives_eq]
      conv => rhs; rw [kept]
      refine meets_map_congr fun members inside member among row => ?_
      have agree : ∀ operand ∈ member.operands, ∀ (test : Test) (row : Row),
          test.meets reading.params (f operand) row = test.meets other.params operand row :=
        fun operand read => same operand (mem_operands_of_member inside among read)
      have inner := ih members inside member among
      cases member with
      | rule test operand => exact agree operand (by simp) test row
      | group tree => exact congrFun (inner tree rfl agree) row
      | subQuery test target field tree =>
          have found : (tree.mapOperands f).found reading = tree.found other := by
            simp only [RuleTree.found, bucket_mapOperands, objects, inner tree rfl agree]
          simp only [mapMember, id, memberMeets_subQuery, found]

/-- A tree without a rule is met by every row, by induction on the tree. -/
theorem meets_of_rules_eq_nil {tree : RuleTree} (unconstrained : tree.rules = [])
    (reading : Reading) (row : Row)
    : tree.meets reading row = true := by
  induction tree using RuleTree.induct with
  | step bucket scope alternatives ih =>
      have members_met : ∀ members ∈ alternatives, ∀ member ∈ members,
          memberMeets reading member row = true := by
        intro members inside member among
        have none : rulesOfMember member = [] := by
          rw [rules_eq, List.flatMap_eq_nil_iff] at unconstrained
          exact List.flatMap_eq_nil_iff.mp (unconstrained members inside) member among
        cases member with
        | rule test operand => simp [rulesOfMember] at none
        | subQuery test target field tree => simp [rulesOfMember] at none
        | group tree => exact ih members inside _ among tree rfl none
      rw [meets, someMeets_eq]
      cases alternatives with
      | nil => rfl
      | cons members rest =>
          have first : (members.all fun member => memberMeets reading member row) = true :=
            List.all_eq_true.mpr (members_met members (by simp))
          simp [first]

end RuleTree

end FederatedQuery
