import FederatedQuery.Proofs.Computation
import FederatedQuery.Store.Scan

/-! What a scan finds and when it fails. Matching a row against an alternative stops at the
first member that fails or cannot be tried, and a scan fails exactly when a sub-query does, when
its bucket is not held, or when a row reaches a rule whose values are unknown.
-/

namespace FederatedQuery

namespace RuleTree

-----------------------------------------------------------------------------------------
-- Matching a row
-----------------------------------------------------------------------------------------

/-- The row is tried without an error and satisfies the tree. -/
def accepts (tree : RuleTree) (row : Row) : Bool :=
  match tree.holds row with
  | .ok holds => holds
  | .error _ => false

theorem accepts_of_holds {tree : RuleTree} {row : Row} {holds : Bool}
    (tried : tree.holds row = .ok holds)
    : tree.accepts row = holds := by
  simp [accepts, tried]

/-- Members are tried in order, so those behind others are only tried once these hold. -/
theorem allHold_append (first second : List Member) (row : Row)
    : allHold (first ++ second) row
      = (allHold first row).bind fun holds =>
          if holds then allHold second row else .ok false := by
  induction first with
  | nil => simp [allHold, Except.bind]
  | cons member rest ih =>
      simp only [List.cons_append, allHold, ih]
      cases memberHolds member row with
      | error error => rfl
      | ok holds => cases holds <;> simp [Except.bind]

theorem holds_singleton (bucket : String) (scope : Option String) (members : List Member)
    (row : Row)
    : (anyOf bucket scope [members]).holds row = allHold members row := by
  simp only [holds, someHolds]
  cases allHold members row with
  | error error => rfl
  | ok holds => cases holds <;> rfl

/-- A rule between others is tried once those before it hold, and those behind it are tried
once it holds.
-/
theorem holds_between (bucket : String) (scope : Option String) (before after : List Member)
    {test : Test} {operand : Operand} {row : Row} {passes : Bool}
    (tried : test.holds operand row = .ok passes)
    : (anyOf bucket scope [before ++ .rule test operand :: after]).holds row
      = (allHold before row).bind fun holds =>
          if holds && passes then allHold after row else .ok false := by
  rw [holds_singleton, allHold_append]
  simp only [allHold, memberHolds, tried]
  cases allHold before row with
  | error error => rfl
  | ok holds => cases holds <;> cases passes <;> rfl

end RuleTree

namespace Store

-----------------------------------------------------------------------------------------
-- Selecting rows
-----------------------------------------------------------------------------------------

/-- Selection fails when some row does, by induction on the rows. -/
theorem fails_selectRows_iff (tree : RuleTree) (rows : List Row)
    : Fails (selectRows tree rows) ↔ ∃ row ∈ rows, Fails (tree.holds row) := by
  induction rows with
  | nil => simp [selectRows]
  | cons row rest ih =>
      simp only [selectRows, Fails.bind_iff, ih, List.mem_cons, exists_eq_or_imp]
      constructor
      · intro either
        rcases either with first | ⟨holds, _, others | ⟨_, _, none⟩⟩
        · exact Or.inl first
        · exact Or.inr others
        · exact absurd none (Fails.not_ok _)
      · intro either
        rcases either with first | others
        · exact Or.inl first
        · by_cases first : Fails (tree.holds row)
          · exact Or.inl first
          · obtain ⟨holds, tried⟩ := (Fails.not_iff _).mp first
            exact Or.inr ⟨holds, tried, Or.inl others⟩

/-- A selection that does not fail finds the accepted rows, by induction on the rows. -/
theorem selectRows_eq_filter {tree : RuleTree} {rows found : List Row}
    (selected : selectRows tree rows = .ok found)
    : found = rows.filter tree.accepts := by
  induction rows generalizing found with
  | nil => exact (Except.ok.inj selected).symm
  | cons row rest ih =>
      cases tried : tree.holds row with
      | error error => simp [selectRows, tried, bind, Except.bind] at selected
      | ok holds =>
          cases others : selectRows tree rest with
          | error error => simp [selectRows, tried, others, bind, Except.bind] at selected
          | ok more =>
              simp only [selectRows, tried, others, bind, Except.bind, pure, Except.pure,
                Except.ok.injEq] at selected
              rw [← selected, ih others, List.filter_cons,
                RuleTree.accepts_of_holds tried]

/-- The objects of a bucket by ascending identity, and none if it is not held. -/
def objects (store : Store) (bucket : String) : List Row :=
  ((store.bucket? bucket).map fun held => held.objects.map Prod.snd).getD []

/-- The store holds the bucket. -/
def Holds (store : Store) (bucket : String) : Prop := (store.bucket? bucket).isSome

instance (store : Store) (bucket : String) : Decidable (store.Holds bucket) :=
  inferInstanceAs (Decidable ((store.bucket? bucket).isSome = true))

/-- Selection from a bucket fails when it is not held or when some object does. -/
theorem fails_select_iff (store : Store) (tree : RuleTree)
    : Fails (store.select tree)
      ↔ ¬store.Holds tree.bucket ∨ ∃ row ∈ store.objects tree.bucket, Fails (tree.holds row) := by
  simp only [select, Holds, objects]
  cases store.bucket? tree.bucket with
  | none => simp
  | some held =>
      simp only [Option.isSome_some, not_true_eq_false, false_or, Option.map_some,
        Option.getD_some, ← fails_selectRows_iff]
      cases selectRows tree (held.objects.map Prod.snd) <;> simp

theorem select_eq_filter {store : Store} {tree : RuleTree} {found : List Row}
    (selected : store.select tree = .ok found)
    : found = (store.objects tree.bucket).filter tree.accepts := by
  simp only [select, objects] at selected ⊢
  cases held : store.bucket? tree.bucket with
  | none => simp [held] at selected
  | some bucket =>
      simp only [held, Option.map_some, Option.getD_some] at selected ⊢
      cases rows : selectRows tree (bucket.objects.map Prod.snd) with
      | error error => simp [rows] at selected
      | ok rows' =>
          have same : rows' = found := by simpa [rows] using selected
          rw [← same, selectRows_eq_filter rows]

/-- The sub-queries of members are answered one after the other. -/
theorem resolveMembers_append (store : Store) (first second : List Member)
    : store.resolveMembers (first ++ second)
      = (store.resolveMembers first).bind fun before =>
          (store.resolveMembers second).bind fun after => .ok (before ++ after) := by
  induction first with
  | nil =>
      cases resolved : store.resolveMembers second <;>
        simp [resolveMembers, Except.bind, resolved]
  | cons member rest ih =>
      simp only [List.cons_append, resolveMembers, ih, bind, pure, Except.pure]
      cases store.resolveMember member with
      | error error => rfl
      | ok resolved =>
          cases store.resolveMembers rest with
          | error error => rfl
          | ok others => cases store.resolveMembers second <;> simp [Except.bind]

end Store

end FederatedQuery
