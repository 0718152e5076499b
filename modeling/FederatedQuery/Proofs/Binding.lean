import FederatedQuery.Binding
import FederatedQuery.Proofs.Grouping
import FederatedQuery.Proofs.RuleTree.Operands
import FederatedQuery.Proofs.Store.LoneEquality
import Mathlib.Data.List.Nodup
import Mathlib.Data.List.Perm.Basic

/-! The bind plan of a tree covers the parameter rows: every row that is not excluded belongs
to exactly one call, and the rows of one call bind the same values or share a lone equality.
-/

namespace FederatedQuery

theorem Operand.isSome_boundValue? (row : ParamRow) (template : Option Template)
    (operand : Operand)
    : (operand.boundValue? row template).isSome = operand.readsParams := by
  cases operand <;> rfl

theorem Operand.bind_of_not_readsParams {operand : Operand}
    (independent : operand.readsParams = false) (row : ParamRow) (template : Option Template)
    : operand.bind row template = operand := by
  have unbound : operand.boundValue? row template = none := by
    rw [← Option.not_isSome_iff_eq_none, isSome_boundValue?, independent]
    simp
  simp [Operand.bind, unbound]

theorem Operand.bind_of_readsParams {operand : Operand}
    (reads : operand.readsParams = true) (row : ParamRow) (template : Option Template)
    : operand.bind row template
      = .literal ((operand.boundValue? row template).getD .null) := by
  obtain ⟨value, bound⟩ := Option.isSome_iff_exists.mp
    ((isSome_boundValue? row template operand).trans reads)
  simp [Operand.bind, bound]

namespace RuleTree

/-- The template through which a parameter row is bound: the first that reaches all of the
tree's references.
-/
def templateFor? (tree : RuleTree) (templates : List Template) (row : ParamRow)
    : Option Template :=
  templates.find? fun template => tree.reachedBy template row

/-- The parameter row has no result: the tree has template references, and no template
reaches all of them.
-/
def excludes (tree : RuleTree) (templates : List Template) (row : ParamRow) : Bool :=
  tree.readsTemplates && (tree.templateFor? templates row).isNone

/-- The tree bound to the parameter row in a place, through that row's own template. -/
def boundAt (tree : RuleTree) (params : List ParamRow) (templates : List Template)
    (place : Nat)
    : RuleTree :=
  let row := params.getD place .null
  tree.bind row (tree.templateFor? templates row)

/-- Rows that bind the same values bind the same tree. -/
theorem bind_eq_of_boundValues_eq {tree : RuleTree} {first second : ParamRow}
    {template : Option Template}
    (same : tree.boundValues first template = tree.boundValues second template)
    : tree.bind first template = tree.bind second template := by
  have defined : ∀ operand ∈ tree.operands,
      (operand.boundValue? first template).isSome
      = (operand.boundValue? second template).isSome := by
    simp [Operand.isSome_boundValue?]
  have values := eq_of_filterMap_eq defined same
  exact mapOperands_congr tree fun operand read => by
    simp only [Operand.bind, values operand read]

/-- The references of a tree without template references are read alike through every template. -/
theorem boundValue?_of_not_readsTemplates {tree : RuleTree}
    (independent : tree.readsTemplates = false) (row : ParamRow) (first second : Option Template)
    : ∀ operand ∈ tree.operands,
        operand.boundValue? row first = operand.boundValue? row second := by
  intro operand read
  have plain : operand.isTemplate = false := by
    simpa using List.any_eq_false.mp independent operand read
  cases operand with
  | template => simp [Operand.isTemplate] at plain
  | literal | param | part | values => rfl

theorem bind_of_not_readsParams {tree : RuleTree} (independent : tree.readsParams = false)
    (row : ParamRow) (template : Option Template)
    : tree.bind row template = tree :=
  mapOperands_eq_self tree fun operand read =>
    Operand.bind_of_not_readsParams (by simpa using List.any_eq_false.mp independent operand read)
      row template

-----------------------------------------------------------------------------------------
-- The groups of rows that share a template
-----------------------------------------------------------------------------------------

/-- The places where a test holds are those whose row passes it. -/
theorem mem_placesWhere_iff (params : List ParamRow) (test : ParamRow → Bool) (place : Nat)
    : place ∈ placesWhere params test
      ↔ place < params.length ∧ test (params.getD place .null) = true := by
  simp only [placesWhere, List.mem_filter, List.mem_range, List.getD_eq_getElem?_getD]
  constructor
  · rintro ⟨inside, holds⟩
    simpa [inside] using holds
  · rintro ⟨inside, holds⟩
    simpa [inside] using holds

/-- The first template that reaches the references stands in the place that is found for it.
-/
theorem templateFor?_eq (tree : RuleTree) (templates : List Template) (row : ParamRow)
    : tree.templateFor? templates row
      = (tree.firstTemplate? templates row).bind fun place => templates[place]? :=
  List.find?_eq_bind_findIdx?_getElem?

theorem isNone_templateFor? (tree : RuleTree) (templates : List Template) (row : ParamRow)
    : (tree.templateFor? templates row).isNone
      = (tree.firstTemplate? templates row).isNone := by
  rw [Bool.eq_iff_iff]
  simp [templateFor?, firstTemplate?]

/-- A group of parameter rows serves rows whose references are read through the group's template.
-/
theorem boundValue?_of_mem_templateGroups {tree : RuleTree} {params : List ParamRow}
    {templates : List Template} {group : TemplateGroup}
    (member : group ∈ tree.templateGroups params templates) {place : Nat}
    (inside : place ∈ group.rows)
    : ∀ operand ∈ tree.operands,
        operand.boundValue? (params.getD place .null)
            (group.template.bind fun place => templates[place]?)
        = operand.boundValue? (params.getD place .null)
            (tree.templateFor? templates (params.getD place .null)) := by
  simp only [templateGroups] at member
  split at member
  · obtain ⟨index, _, rfl⟩ := List.mem_map.mp (List.mem_filter.mp member).1
    have first := ((mem_placesWhere_iff ..).mp inside).2
    simp only [templateFor?_eq]
    rw [show tree.firstTemplate? templates (params.getD place .null) = some index by
      simpa using first]
    exact fun _ _ => rfl
  · next independent =>
    exact boundValue?_of_not_readsTemplates (by simpa using independent) _ _ _

/-- A group of parameter rows serves rows that bind the tree through the group's template. -/
theorem bind_of_mem_templateGroups {tree : RuleTree} {params : List ParamRow}
    {templates : List Template} {group : TemplateGroup}
    (member : group ∈ tree.templateGroups params templates) {place : Nat}
    (inside : place ∈ group.rows)
    : tree.bind (params.getD place .null) (group.template.bind fun place => templates[place]?)
      = tree.boundAt params templates place := by
  refine mapOperands_congr tree fun operand read => ?_
  simp only [Operand.bind, boundValue?_of_mem_templateGroups member inside operand read]

theorem rows_ne_nil_of_mem_templateGroups {tree : RuleTree} {params : List ParamRow}
    {templates : List Template} (given : params ≠ []) {group : TemplateGroup}
    (member : group ∈ tree.templateGroups params templates)
    : group.rows ≠ [] := by
  simp only [templateGroups] at member
  split at member
  · simpa using (List.mem_filter.mp member).2
  · rw [List.mem_singleton.mp member]
    simpa using given

/-- The rows of all groups, template by template. Groups without rows add nothing. -/
theorem rows_templateGroups {tree : RuleTree} (reads : tree.readsTemplates = true)
    (params : List ParamRow) (templates : List Template)
    : (tree.templateGroups params templates).flatMap TemplateGroup.rows
      = (List.range templates.length).flatMap fun index =>
          placesWhere params fun row => tree.firstTemplate? templates row == some index := by
  have dropEmpty (groups : List TemplateGroup)
      : (groups.filter fun group => !group.rows.isEmpty).flatMap TemplateGroup.rows
        = groups.flatMap TemplateGroup.rows := by
    induction groups with
    | nil => rfl
    | cons group rest ih =>
        cases rows : group.rows with
        | nil => simpa [List.filter_cons, rows] using ih
        | cons => simpa [List.filter_cons, rows] using ih
  simp only [templateGroups, reads, ↓reduceIte, dropEmpty, List.flatMap_map]

/-- The rows of the groups are the rows that are not excluded. -/
theorem mem_rows_templateGroups_iff (tree : RuleTree) (params : List ParamRow)
    (templates : List Template) (place : Nat)
    : place ∈ (tree.templateGroups params templates).flatMap TemplateGroup.rows
      ↔ place < params.length
        ∧ tree.excludes templates (params.getD place .null) = false := by
  cases reads : tree.readsTemplates with
  | false => simp [templateGroups, excludes, reads]
  | true =>
      simp only [rows_templateGroups reads, List.mem_flatMap, List.mem_range,
        mem_placesWhere_iff, beq_iff_eq, excludes, reads, isNone_templateFor?, Bool.true_and]
      constructor
      · rintro ⟨index, _, inside, first⟩
        exact ⟨inside, by rw [first]; rfl⟩
      · rintro ⟨inside, reached⟩
        obtain ⟨index, first⟩ := Option.isSome_iff_exists.mp
          (Option.isNone_eq_false_iff.mp reached)
        have below := (List.findIdx?_eq_some_iff_findIdx_eq.mp first).1
        exact ⟨index, below, inside, first⟩

/-- No row belongs to two groups, because it has one first template. -/
theorem nodup_rows_templateGroups (tree : RuleTree) (params : List ParamRow)
    (templates : List Template)
    : ((tree.templateGroups params templates).flatMap TemplateGroup.rows).Nodup := by
  cases reads : tree.readsTemplates with
  | false => simp [templateGroups, reads, List.nodup_range]
  | true =>
      rw [rows_templateGroups reads, List.nodup_flatMap]
      refine ⟨fun index _ => List.nodup_range.filter _, ?_⟩
      refine List.nodup_range.imp fun different place first second => different ?_
      have left := ((mem_placesWhere_iff ..).mp first).2
      have right := ((mem_placesWhere_iff ..).mp second).2
      simp only [beq_iff_eq] at left right
      exact Option.some.inj (left.symm.trans right)

-----------------------------------------------------------------------------------------
-- The calls that serve a group
-----------------------------------------------------------------------------------------

theorem plainEquality?_eq_some {member : Member} {field : String} {reference : Operand}
    (found : plainEquality? member = some (field, reference))
    : ∃ test, member = .rule test reference ∧ test.field = field ∧ test.IsPlainEquality
        ∧ reference.readsParams = true := by
  cases member with
  | subQuery | group => simp [plainEquality?] at found
  | rule test operand =>
      simp only [plainEquality?] at found
      split at found
      · next plain =>
        obtain ⟨rfl, rfl⟩ := Prod.mk.inj (Option.some.inj found)
        simp only [Bool.and_eq_true, Bool.not_eq_true', beq_iff_eq] at plain
        exact ⟨test, rfl, rfl, ⟨plain.1.1.2, plain.1.2, plain.2⟩, plain.1.1.1⟩
      · cases found

/-- A tree with a lone equality is that rule between members that do not read the parameter
row, because the tree has only one reference to it.
-/
theorem exists_context_of_loneEquality? {tree : RuleTree} {field : String}
    {reference : Operand} (lone : tree.loneEquality? = some (field, reference))
    : ∃ context : RuleContext, context.test.field = field ∧ context.test.IsPlainEquality
        ∧ reference.readsParams = true
        ∧ ∀ f : Operand → Operand, (∀ operand, operand.readsParams = false → f operand = operand)
            → tree.mapOperands f = context.fill (f reference) := by
  obtain ⟨bucket, scope, alternatives⟩ := tree
  simp only [loneEquality?] at lone
  split at lone
  · next members shape =>
    obtain rfl : alternatives = [members] := shape
    split at lone
    · next single =>
      obtain ⟨before, member, after, rfl, found, _⟩ := List.findSome?_eq_some_iff.mp lone
      obtain ⟨test, rfl, sameField, plain, reads⟩ := plainEquality?_eq_some found
      refine ⟨⟨bucket, scope, before, test, after⟩, sameField, plain, reads, fun f fixed => ?_⟩
      simp only [operands_anyOf, List.flatMap_cons, List.flatMap_nil, List.append_nil,
        List.flatMap_append, operands_rule, List.countP_append, List.countP_cons,
        List.countP_nil, reads, ↓reduceIte] at single
      have untouched (side : List Member)
          (none : List.countP Operand.readsParams (side.flatMap Member.operands) = 0)
          : side.map (mapMember f) = side := by
        refine (List.map_congr_left fun member inside => ?_).trans (List.map_id _)
        refine mapMember_eq_self member fun operand read => fixed operand ?_
        have unread := List.countP_eq_zero.mp none operand
          (List.mem_flatMap.mpr ⟨member, inside, read⟩)
        simpa using unread
      simp [mapOperands, RuleContext.fill, mapMember, untouched before (by omega),
        untouched after (by omega)]
    · cases lone
  · cases lone

/-- Each separate call is for the rows that bind what some row binds, and binds that row. -/
theorem exists_of_mem_separateCalls {tree : RuleTree} {params : List ParamRow}
    {template : Option Template} {rows : List Nat} {call : BoundCall}
    (inside : call ∈ tree.separateCalls params template rows)
    : ∃ founder ∈ rows,
        call
        = ⟨tree.bind (params.getD founder .null) template,
            rows.filter fun place =>
              tree.boundValues (params.getD place .null) template
              = tree.boundValues (params.getD founder .null) template,
            none⟩ := by
  obtain ⟨⟨values, members⟩, known, rfl⟩ := List.mem_map.mp inside
  obtain ⟨⟨founder, among, rfl⟩, same⟩ := (mem_classes_iff ..).mp known
  have headMember : members.headD 0 ∈ members := by
    have founded : founder ∈ members := same ▸ List.mem_filter.mpr ⟨among, by simp⟩
    cases members with
    | nil => cases founded
    | cons head tail => exact List.mem_cons_self
  have alike : ∀ place ∈ members,
      tree.boundValues (params.getD place .null) template
      = tree.boundValues (params.getD founder .null) template := by
    simp [same]
  refine ⟨founder, among, ?_⟩
  rw [← same, ← bind_eq_of_boundValues_eq (alike _ headMember)]

/-- The calls that serve the rows of a group. -/
def callsOf (tree : RuleTree) (params : List ParamRow) (templates : List Template)
    (coalesce : Bool) (group : TemplateGroup)
    : List BoundCall :=
  let template := group.template.bind fun place => templates[place]?
  match if coalesce then tree.loneEquality? else none with
  | some (field, reference) =>
      [tree.coalescedCall params template group.rows field reference]
  | none => tree.separateCalls params template group.rows

theorem calls_bindPlan (tree : RuleTree) (params : List ParamRow)
    (templates : List Template) (coalesce : Bool)
    : (tree.bindPlan params templates coalesce).calls
      = (tree.templateGroups params templates).flatMap
          (tree.callsOf params templates coalesce) := rfl

/-- A call of a bind plan serves rows of one group. It is one of the group's separate calls, or it
coalesces the group, where the plan may do so.
-/
theorem bindPlan_cases {tree : RuleTree} {params : List ParamRow} {templates : List Template}
    {coalesce : Bool} {call : BoundCall}
    (inside : call ∈ (tree.bindPlan params templates coalesce).calls)
    : ∃ group ∈ tree.templateGroups params templates,
        call ∈ tree.separateCalls params (group.template.bind fun place => templates[place]?)
          group.rows
        ∨ coalesce = true
          ∧ ∃ field reference,
              tree.loneEquality? = some (field, reference)
              ∧ call
                = tree.coalescedCall params (group.template.bind fun place => templates[place]?)
                    group.rows field reference := by
  rw [calls_bindPlan] at inside
  obtain ⟨group, member, inside⟩ := List.mem_flatMap.mp inside
  refine ⟨group, member, ?_⟩
  simp only [callsOf] at inside
  split at inside
  · next field reference found =>
    split at found
    · next enabled => exact .inr ⟨enabled, field, reference, found, List.mem_singleton.mp inside⟩
    · cases found
  · exact .inl inside

/-- The calls of a group serve its rows, each once. -/
theorem rows_callsOf_perm (tree : RuleTree) (params : List ParamRow)
    (templates : List Template) (coalesce : Bool) (group : TemplateGroup)
    : ((tree.callsOf params templates coalesce group).flatMap BoundCall.rows).Perm
        group.rows := by
  simp only [callsOf]
  split
  · simp [coalescedCall]
  · simp only [separateCalls, List.flatMap_map]
    exact classes_perm _ _

/-- The calls of a bind plan serve every row that is not excluded, each once. -/
theorem rows_bindPlan_perm (tree : RuleTree) (params : List ParamRow)
    (templates : List Template) (coalesce : Bool)
    : ((tree.bindPlan params templates coalesce).calls.flatMap BoundCall.rows).Perm
        ((tree.templateGroups params templates).flatMap TemplateGroup.rows) := by
  rw [calls_bindPlan, List.flatMap_assoc]
  exact List.Perm.flatMap_left _ fun group _ => rows_callsOf_perm ..

/-- A row belongs to a call of the bind plan exactly when it is not excluded. -/
theorem mem_rows_bindPlan_iff (tree : RuleTree) (params : List ParamRow)
    (templates : List Template) (coalesce : Bool) (place : Nat)
    : place ∈ (tree.bindPlan params templates coalesce).calls.flatMap BoundCall.rows
      ↔ place < params.length
        ∧ tree.excludes templates (params.getD place .null) = false :=
  (rows_bindPlan_perm ..).mem_iff.trans (mem_rows_templateGroups_iff ..)

theorem nodup_rows_bindPlan (tree : RuleTree) (params : List ParamRow)
    (templates : List Template) (coalesce : Bool)
    : ((tree.bindPlan params templates coalesce).calls.flatMap BoundCall.rows).Nodup :=
  (rows_bindPlan_perm ..).nodup_iff.mpr (nodup_rows_templateGroups ..)

end RuleTree

end FederatedQuery
