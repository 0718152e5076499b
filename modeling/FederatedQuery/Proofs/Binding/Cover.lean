import FederatedQuery.Proofs.Binding

/-! The bind plan of a tree, row by row. Every parameter row is excluded or belongs to one call.
A call binds all its rows as each of them would be bound alone, or it tests a lone equality
against the values of all rows of a template and knows whose value is which.
-/

namespace FederatedQuery

namespace RuleTree

variable (tree : RuleTree) (params : List ParamRow) (templates : List Template)

/-- The template leads each of the tree's template references to a value other than null. -/
def Reaches (template : Template) (row : ParamRow) : Prop :=
  ∀ path ∈ tree.templatePaths,
    ∃ value, TemplatePath.read? path template row = some value ∧ value ≠ .null

/-- The place of the template through which the parameter row in a place is bound. -/
def templateAt? (place : Nat) : Option Nat :=
  tree.firstTemplate? templates (params.getD place .null)

/-- The values that the parameter row in a place binds, through that row's own template. -/
def valuesAt (place : Nat) : List Value :=
  let row := params.getD place .null
  tree.boundValues row (tree.templateFor? templates row)

/-- The value of a reference on the parameter row in a place, through that row's own template. -/
def valueAt (reference : Operand) (place : Nat) : Value :=
  let row := params.getD place .null
  (reference.boundValue? row (tree.templateFor? templates row)).getD .null

/-- The call is for all rows of a template that bind the same values. It binds each of them as it
would be bound alone.
-/
structure BindsAlike (call : BoundCall) : Prop where
  apart : call.fanout = none
  bound : ∀ place ∈ call.rows, call.tree = tree.boundAt params templates place
  shared
    : ∀ place ∈ call.rows, ∀ other,
        other ∈ call.rows
        ↔ other < params.length
          ∧ tree.templateAt? params templates other = tree.templateAt? params templates place
          ∧ tree.valuesAt params templates other = tree.valuesAt params templates place

/-- The call is for all rows of a template. It tests the tree's only reference, a plain equality,
against their distinct values in first-seen order, and keeps the rows of every value.
-/
structure BindsTogether (context : RuleContext) (reference : Operand) (fanout : Fanout)
    (call : BoundCall) : Prop where
  lone : tree = context.fill reference
  plain : context.test.IsPlainEquality
  reads : reference.readsParams = true
  bound
    : call.tree
      = context.fill
          (.values (call.rows.map (tree.valueAt params templates reference)).eraseDups)
  together : call.fanout = some fanout
  field : fanout.field = context.test.field
  targets
    : fanout.targets
      = (call.rows.map (tree.valueAt params templates reference)).eraseDups.map fun value =>
          (value, call.rows.filter fun place =>
            tree.valueAt params templates reference place = value)
  parted : (fanout.targets.flatMap Prod.snd).Perm call.rows
  shared
    : ∀ place ∈ call.rows, ∀ other,
        other ∈ call.rows
        ↔ other < params.length
          ∧ tree.templateAt? params templates other = tree.templateAt? params templates place

end RuleTree

/-- The plan answers the parameter rows through the templates. Every row is excluded or belongs
to one call. Rows are excluded where no template reaches the tree's references, and bound through
the first that does elsewhere; no call is left with a reference.
-/
structure BindPlan.Covers (tree : RuleTree) (params : List ParamRow) (templates : List Template)
    (coalesce : Bool) (plan : BindPlan) : Prop where
  rows : (plan.excluded ++ plan.calls.flatMap BoundCall.rows).Perm (List.range params.length)
  excluded
    : ∀ place,
        place ∈ plan.excluded
        ↔ place < params.length
          ∧ tree.readsTemplates = true
          ∧ ¬∃ template ∈ templates, tree.Reaches template (params.getD place .null)
  first
    : tree.readsTemplates = true
      → ∀ place < params.length,
          place ∉ plan.excluded
          → ∃ before template after,
              templates = before ++ template :: after
              ∧ tree.Reaches template (params.getD place .null)
              ∧ (∀ earlier ∈ before, ¬tree.Reaches earlier (params.getD place .null))
              ∧ tree.templateFor? templates (params.getD place .null) = some template
  unread : ∀ call ∈ plan.calls, call.tree.readsParams = false
  ascending : ∀ call ∈ plan.calls, call.rows.Pairwise (· < ·)
  calls
    : ∀ call ∈ plan.calls,
        tree.BindsAlike params templates call
        ∨ coalesce = true
          ∧ ∃ context reference fanout,
              tree.BindsTogether params templates context reference fanout call

namespace RuleTree

variable {tree : RuleTree} {params : List ParamRow} {templates : List Template}

theorem reachedBy_iff {template : Template} {row : ParamRow}
    : tree.reachedBy template row = true ↔ tree.Reaches template row := by
  simp only [reachedBy, Reaches, List.all_eq_true]
  refine forall₂_congr fun path _ => ?_
  cases TemplatePath.read? path template row with
  | none => simp
  | some value => cases value <;> simp [Value.isNull]

theorem mem_excludedRows_iff {place : Nat}
    : place ∈ tree.excludedRows params templates
      ↔ place < params.length ∧ tree.excludes templates (params.getD place .null) = true := by
  cases reads : tree.readsTemplates with
  | false => simp [excludedRows, excludes, reads]
  | true =>
      simp [excludedRows, excludes, reads, mem_placesWhere_iff, isNone_templateFor?]

theorem nodup_excludedRows : (tree.excludedRows params templates).Nodup := by
  simp only [excludedRows]
  split
  · exact List.nodup_range.filter _
  · exact List.nodup_nil

theorem excludes_iff {row : ParamRow}
    : tree.excludes templates row = true
      ↔ tree.readsTemplates = true ∧ ¬∃ template ∈ templates, tree.Reaches template row := by
  simp [excludes, templateFor?, ← reachedBy_iff]

/-- The template of a row that is not excluded is the first that reaches the references. -/
theorem exists_templateFor?_eq {row : ParamRow} (reads : tree.readsTemplates = true)
    (served : ¬tree.excludes templates row = true)
    : ∃ before template after,
        templates = before ++ template :: after
        ∧ tree.Reaches template row
        ∧ (∀ earlier ∈ before, ¬tree.Reaches earlier row)
        ∧ tree.templateFor? templates row = some template := by
  have reached : (tree.templateFor? templates row).isSome = true := by
    simpa [excludes, reads, Option.isSome_iff_ne_none] using served
  obtain ⟨template, found⟩ := Option.isSome_iff_exists.mp reached
  obtain ⟨reaches, before, after, split, earlier⟩ := List.find?_eq_some_iff_append.mp found
  refine ⟨before, template, after, split, reachedBy_iff.mp reaches, ?_, found⟩
  intro other inside reaches
  simpa [reachedBy_iff.mpr reaches] using earlier other inside

-----------------------------------------------------------------------------------------
-- The groups of rows that share a template
-----------------------------------------------------------------------------------------

theorem firstTemplate?_of_not_readsTemplates (independent : tree.readsTemplates = false)
    (templates : List Template) (first second : ParamRow)
    : tree.firstTemplate? templates first = tree.firstTemplate? templates second := by
  have pathless : tree.templatePaths = [] := by
    simp only [templatePaths, List.filterMap_eq_nil_iff]
    intro operand read
    have plain := List.any_eq_false.mp independent operand read
    cases operand <;> simp_all [Operand.isTemplate]
  simp [firstTemplate?, reachedBy, pathless]

variable {group : TemplateGroup}

/-- A group has all rows of its template. -/
theorem mem_rows_iff_of_mem_templateGroups (member : group ∈ tree.templateGroups params templates)
    {place : Nat} (inside : place ∈ group.rows) (other : Nat)
    : other ∈ group.rows
      ↔ other < params.length
        ∧ tree.templateAt? params templates other = tree.templateAt? params templates place := by
  simp only [templateGroups] at member
  split at member
  · obtain ⟨index, _, rfl⟩ := List.mem_map.mp (List.mem_filter.mp member).1
    have first := ((mem_placesWhere_iff ..).mp inside).2
    simp only [beq_iff_eq] at first
    simp only [mem_placesWhere_iff, templateAt?, first, beq_iff_eq]
  · next independent =>
    obtain rfl := List.mem_singleton.mp member
    have same := firstTemplate?_of_not_readsTemplates (by simpa using independent) templates
      (params.getD other .null) (params.getD place .null)
    simp only [List.mem_range, templateAt?, same, and_true]

theorem ascending_of_mem_templateGroups (member : group ∈ tree.templateGroups params templates)
    : group.rows.Pairwise (· < ·) := by
  simp only [templateGroups] at member
  split at member
  · obtain ⟨index, _, rfl⟩ := List.mem_map.mp (List.mem_filter.mp member).1
    exact List.pairwise_lt_range.filter _
  · obtain rfl := List.mem_singleton.mp member
    exact List.pairwise_lt_range

-----------------------------------------------------------------------------------------
-- The calls that serve a group
-----------------------------------------------------------------------------------------

/-- Binding leaves no reference. -/
theorem readsParams_bind (row : ParamRow) (template : Option Template)
    : (tree.bind row template).readsParams = false := by
  refine List.any_eq_false.mpr fun operand inside => ?_
  rw [bind, operands_mapOperands] at inside
  obtain ⟨operand, _, rfl⟩ := List.mem_map.mp inside
  cases reads : operand.readsParams with
  | false => simp [Operand.bind_of_not_readsParams reads, reads]
  | true => simp [Operand.bind_of_readsParams reads, Operand.readsParams]

theorem valuesAt_of_mem_templateGroups (member : group ∈ tree.templateGroups params templates)
    {place : Nat} (inside : place ∈ group.rows)
    : tree.boundValues (params.getD place .null)
        (group.template.bind fun place => templates[place]?)
      = tree.valuesAt params templates place :=
  List.filterMap_congr (boundValue?_of_mem_templateGroups member inside)

/-- Separate calls bind alike. -/
theorem bindsAlike_of_mem_separateCalls (member : group ∈ tree.templateGroups params templates)
    {call : BoundCall}
    (inside
      : call ∈ tree.separateCalls params (group.template.bind fun place => templates[place]?)
          group.rows)
    : tree.BindsAlike params templates call := by
  obtain ⟨founder, among, rfl⟩ := exists_of_mem_separateCalls inside
  refine ⟨rfl, ?_, ?_⟩
  · intro place inside
    obtain ⟨here, alike⟩ := List.mem_filter.mp inside
    rw [← bind_of_mem_templateGroups member here]
    exact bind_eq_of_boundValues_eq (of_decide_eq_true alike).symm
  · intro place inside other
    obtain ⟨here, alike⟩ := List.mem_filter.mp inside
    have values := valuesAt_of_mem_templateGroups member here
    simp only [List.mem_filter, decide_eq_true_eq, ← of_decide_eq_true alike, ← and_assoc,
      ← mem_rows_iff_of_mem_templateGroups member here, values]
    refine and_congr_right fun among => ?_
    rw [valuesAt_of_mem_templateGroups member among]

/-- A coalesced call binds together. -/
theorem bindsTogether_coalescedCall (member : group ∈ tree.templateGroups params templates)
    {field : String} {reference : Operand} (lone : tree.loneEquality? = some (field, reference))
    : ∃ context fanout,
        tree.BindsTogether params templates context reference fanout
          (tree.coalescedCall params (group.template.bind fun place => templates[place]?)
            group.rows field reference) := by
  obtain ⟨context, sameField, plain, reads, filled⟩ := exists_context_of_loneEquality? lone
  have shape : tree = context.fill reference :=
    (mapOperands_eq_self tree fun _ _ => rfl).symm.trans (filled id fun _ _ => rfl)
  have asked : reference ∈ tree.operands := by
    rw [shape]
    simp [RuleContext.fill]
  let template := group.template.bind fun place => templates[place]?
  let value := fun place => (reference.boundValue? (params.getD place .null) template).getD .null
  have values : ∀ place ∈ group.rows,
      value place = tree.valueAt params templates reference place := by
    intro place inside
    rw [valueAt, ← boundValue?_of_mem_templateGroups member inside reference asked]
  have targets := (classes_congr values).trans
    (classes_eq (tree.valueAt params templates reference) group.rows)
  have tested : (classes value group.rows).map Prod.fst
      = (group.rows.map (tree.valueAt params templates reference)).eraseDups := by
    rw [targets, List.map_map]
    exact List.map_id _
  have bound : (tree.coalescedCall params template group.rows field reference).tree
      = context.fill
          (.values (group.rows.map (tree.valueAt params templates reference)).eraseDups) := by
    rw [← tested, coalescedCall, filled _ fun operand unread => by simp [unread], if_pos reads]
  exact ⟨context, ⟨field, classes value group.rows⟩, shape, plain, reads, bound, rfl,
    sameField.symm, targets, classes_perm _ _,
    fun place inside => mem_rows_iff_of_mem_templateGroups member inside⟩

/-- A coalesced call tests no reference. -/
theorem readsParams_coalescedCall {template : Option Template} {rows : List Nat} {field : String}
    {reference : Operand}
    : (tree.coalescedCall params template rows field reference).tree.readsParams = false := by
  refine List.any_eq_false.mpr fun operand inside => ?_
  rw [coalescedCall, operands_mapOperands] at inside
  obtain ⟨operand, _, rfl⟩ := List.mem_map.mp inside
  split
  · simp [Operand.readsParams]
  · next unread => exact unread

/-- Every parameter row is excluded or belongs to one call of the bind plan. -/
theorem rows_covered (tree : RuleTree) (params : List ParamRow) (templates : List Template)
    (coalesce : Bool)
    : ((tree.bindPlan params templates coalesce).excluded
        ++ (tree.bindPlan params templates coalesce).calls.flatMap BoundCall.rows).Perm
        (List.range params.length) := by
  have distinct : ((tree.bindPlan params templates coalesce).excluded
      ++ (tree.bindPlan params templates coalesce).calls.flatMap BoundCall.rows).Nodup := by
    refine List.nodup_append.mpr ⟨nodup_excludedRows, nodup_rows_bindPlan .., ?_⟩
    intro place excluded other served same
    have missing := (mem_excludedRows_iff.mp excluded).2
    rw [same, ((mem_rows_bindPlan_iff ..).mp served).2] at missing
    cases missing
  refine (List.perm_ext_iff_of_nodup distinct List.nodup_range).mpr fun place => ?_
  rw [List.mem_append, mem_rows_bindPlan_iff, List.mem_range]
  refine (or_congr_left mem_excludedRows_iff).trans ?_
  rw [← and_or_left]
  cases tree.excludes templates (params.getD place .null) <;> simp

/-- The bind plan covers the parameter rows. -/
theorem covers_bindPlan (tree : RuleTree) (params : List ParamRow) (templates : List Template)
    (coalesce : Bool)
    : (tree.bindPlan params templates coalesce).Covers tree params templates coalesce := by
  refine ⟨rows_covered .., ?_, ?_, ?_, ?_, ?_⟩
  · exact fun place => mem_excludedRows_iff.trans (and_congr_right fun _ => excludes_iff)
  · intro reads place below served
    exact exists_templateFor?_eq reads fun missing =>
      served (mem_excludedRows_iff.mpr ⟨below, missing⟩)
  · intro call inside
    obtain ⟨group, _, separate | ⟨_, field, reference, _, rfl⟩⟩ := bindPlan_cases inside
    · obtain ⟨founder, _, rfl⟩ := exists_of_mem_separateCalls separate
      exact readsParams_bind _ _
    · exact readsParams_coalescedCall
  · intro call inside
    obtain ⟨group, member, separate | ⟨_, field, reference, _, rfl⟩⟩ := bindPlan_cases inside
    · obtain ⟨founder, _, rfl⟩ := exists_of_mem_separateCalls separate
      exact (ascending_of_mem_templateGroups member).filter _
    · exact ascending_of_mem_templateGroups member
  · intro call inside
    obtain ⟨group, member, separate | ⟨enabled, field, reference, lone, rfl⟩⟩ := bindPlan_cases inside
    · exact .inl (bindsAlike_of_mem_separateCalls member separate)
    · obtain ⟨context, fanout, together⟩ := bindsTogether_coalescedCall member lone
      exact .inr ⟨enabled, context, reference, fanout, together⟩

end RuleTree

end FederatedQuery
