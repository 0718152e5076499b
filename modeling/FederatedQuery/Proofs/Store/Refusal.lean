import FederatedQuery.Proofs.Store.History

/-! What a refused insertion leaves behind. The bucket is there before the object is looked at, so
an object without identity opens a bucket that was not held. The bucket is empty, and an empty
bucket differs from one that is not held in one way only: asking for it is no error.
-/

namespace FederatedQuery.Store

-----------------------------------------------------------------------------------------
-- Which buckets an operation opens
-----------------------------------------------------------------------------------------

/-- The operation makes its bucket a held one, whether it succeeds or not. -/
def Operation.Opens : Operation → Prop
  | createBucket _ _ => True
  | insert _ (.object _) => True
  | extend _ (.object _ :: _) => True
  | _ => False

theorem holds_putBucket (store : Store) (name : String) (bucket : StoredBucket) (other : String)
    : (store.putBucket name bucket).Holds other ↔ store.Holds other ∨ name = other := by
  rw [Holds, bucket?_putBucket]
  by_cases same : other = name
  · simp [same]
  · simp [same, Ne.symm same, Holds]

/-- A bucket that is held stays held when it is given other content. -/
theorem holds_putBucket_of_holds {store : Store} {name : String} (held : store.Holds name)
    (bucket : StoredBucket) (other : String)
    : (store.putBucket name bucket).Holds other ↔ store.Holds other := by
  rw [holds_putBucket]
  exact or_iff_left_of_imp fun same => same ▸ held

/-- Every object opens the bucket, even if it is refused. Other values do not reach it. -/
theorem holds_insert (store : Store) (name : String) (object : Value) (other : String)
    : (store.insert name object).1.Holds other
      ↔ store.Holds other ∨ name = other ∧ (Operation.insert name object).Opens := by
  cases object with
  | object entries =>
      simp only [insert, Operation.Opens, and_true]
      split
      · exact store.holds_putBucket name _ other
      · exact store.holds_putBucket name _ other
  | null | bool | number | string | array => simp [insert, Operation.Opens]

/-- The first of several objects opens the bucket for the rest, by induction on them. -/
theorem holds_extend (store : Store) (name : String) (objects : List Value) (other : String)
    : (store.extend name objects).1.Holds other
      ↔ store.Holds other ∨ name = other ∧ (Operation.extend name objects).Opens := by
  induction objects generalizing store with
  | nil => simp [extend, Operation.Opens]
  | cons object rest ih =>
      have first := store.holds_insert name object other
      cases object with
      | object entries =>
          rw [extend]
          split
          · next next inserted =>
            rw [inserted] at first
            rw [ih, first, or_assoc]
            simp +contextual [Operation.Opens, or_iff_left_of_imp]
          · next next error inserted =>
            rw [inserted] at first
            exact first
      | null | bool | number | string | array => simp [extend, insert, Operation.Opens]

/-- Buckets are opened by some operations and closed by none. -/
theorem holds_step (store : Store) (operation : Operation) (other : String)
    : (store.step operation).Holds other
      ↔ store.Holds other ∨ operation.bucket = other ∧ operation.Opens := by
  cases operation with
  | createBucket name identityField =>
      simp only [step, createBucket, Operation.bucket, Operation.Opens, and_true]
      exact store.holds_putBucket name _ other
  | insert name object => exact store.holds_insert name object other
  | extend name objects => exact store.holds_extend name objects other
  | remove name identity =>
      simp only [step, remove, take, Operation.Opens, and_false, or_false]
      split
      · next held => exact holds_putBucket_of_holds (by simp [Holds, held]) _ other
      · exact Iff.rfl
  | clearBucket name =>
      simp only [step, clearBucket, Operation.Opens, and_false, or_false]
      split
      · next held => exact holds_putBucket_of_holds (by simp [Holds, held]) _ other
      · exact Iff.rfl

-----------------------------------------------------------------------------------------
-- Stores that differ in one bucket being held
-----------------------------------------------------------------------------------------

/-- The other store has every bucket as the store has it, and holds one that the store may hold or
not.
-/
structure OpenedIn (name : String) (store other : Store) : Prop where
  same : ∀ bucket, other.bucketOrNew bucket = store.bucketOrNew bucket
  holds : ∀ bucket, other.Holds bucket ↔ store.Holds bucket ∨ name = bucket

namespace OpenedIn

variable {name : String} {store other : Store} (opened : OpenedIn name store other)

include opened

/-- An operation does the same in both stores, because it does not ask whether a bucket is held. -/
theorem step (operation : Operation)
    : OpenedIn name (store.step operation) (other.step operation) where
  same bucket := by
    by_cases mine : operation.bucket = bucket
    · subst mine
      rw [bucketOrNew_step, bucketOrNew_step, opened.same]
    · have before := opened.same bucket
      rw [bucketOrNew, bucketOrNew] at before ⊢
      rw [bucket?_step_of_ne other operation mine, bucket?_step_of_ne store operation mine, before]
  holds bucket := by
    rw [holds_step, holds_step, opened.holds]
    exact or_right_comm

/-- The stores stay alike through any operations, by induction on these. -/
theorem foldl_step (later : List Operation)
    : OpenedIn name (later.foldl Store.step store) (later.foldl Store.step other) := by
  induction later generalizing store other with
  | nil => exact opened
  | cons operation rest ih => exact ih (opened.step operation)

theorem get? (bucket : String) (identity : Value)
    : other.get? bucket identity = store.get? bucket identity := by
  rw [get?_eq, get?_eq, opened.same]

theorem size (bucket : String) : other.size bucket = store.size bucket := by
  rw [size_eq, size_eq, opened.same]

theorem snd_insert (bucket : String) (object : Value)
    : (other.insert bucket object).2 = (store.insert bucket object).2 := by
  cases object with
  | object entries =>
      simp only [insert, opened.same]
      split <;> rfl
  | null | bool | number | string | array => rfl

/-- A bucket held in one store only is empty there, and not held in the other. -/
theorem bucket?_eq (bucket : String)
    : other.bucket? bucket = store.bucket? bucket
      ∨ bucket = name
        ∧ store.bucket? bucket = none
        ∧ other.bucket? bucket = some ⟨"id", []⟩ := by
  have holds := opened.holds bucket
  have same := opened.same bucket
  rw [bucketOrNew, bucketOrNew] at same
  cases mine : store.bucket? bucket with
  | none =>
      cases theirs : other.bucket? bucket with
      | none => exact Or.inl rfl
      | some found =>
          obtain rfl : name = bucket := by simpa [Holds, mine, theirs] using holds
          have empty : found = ⟨"id", []⟩ := by simpa [mine, theirs] using same
          exact Or.inr ⟨rfl, rfl, congrArg some empty⟩
  | some held =>
      cases theirs : other.bucket? bucket with
      | none => simp [Holds, mine, theirs] at holds
      | some found =>
          have alike : found = held := by simpa [mine, theirs] using same
          exact Or.inl (congrArg some alike)

end OpenedIn

-----------------------------------------------------------------------------------------
-- What queries answer
-----------------------------------------------------------------------------------------

/-- The other answer is the same, unless that is the error that the bucket is not held. -/
def Spared {α : Type} (name : String) (answer other : Except StoreError α) : Prop :=
  answer = .error (.unknownBucket name) ∨ other = answer

namespace Spared

variable {α β : Type} {name : String}

theorem refl (answer : Except StoreError α) : Spared name answer answer := Or.inr rfl

/-- What is made of the same answer is the same, and an error stays what it is. -/
theorem bind {answer other : Except StoreError α} {next next' : α → Except StoreError β}
    (first : Spared name answer other) (second : ∀ value, Spared name (next value) (next' value))
    : Spared name (answer >>= next) (other >>= next') := by
  rcases first with rfl | rfl
  · exact Or.inl rfl
  · cases other with
    | error error => exact refl _
    | ok value => exact second value

/-- Answers that are collected from a list, by induction on it. -/
theorem mapM {f g : α → Except StoreError β} (each : ∀ x, Spared name (f x) (g x))
    (xs : List α)
    : Spared name (xs.mapM f) (xs.mapM g) := by
  induction xs with
  | nil => exact refl _
  | cons head rest ih =>
      rw [List.mapM_cons, List.mapM_cons]
      exact (each head).bind fun value => ih.bind fun values => refl _

end Spared

namespace OpenedIn

variable {name : String} {store other : Store} (opened : OpenedIn name store other)

include opened

theorem select (tree : RuleTree) : Spared name (store.select tree) (other.select tree) := by
  rw [Store.select, Store.select]
  rcases opened.bucket?_eq tree.bucket with same | ⟨mine, missing, _⟩
  · rw [same]
    exact Spared.refl _
  · rw [missing, mine]
    exact Or.inl rfl

omit opened

mutual

/-- A scan differs where a bucket is selected from, which is the last thing that it does with a
tree. By induction on the tree and the lists in it.
-/
theorem scan (opened : OpenedIn name store other)
    : (tree : RuleTree) → Spared name (store.scan tree) (other.scan tree)
  | .anyOf bucket scope alternatives => by
      rw [Store.scan, Store.scan]
      exact (resolveAlternatives opened alternatives).bind fun resolved => opened.select _

theorem resolveAlternatives (opened : OpenedIn name store other)
    : (alternatives : List (List Member))
      → Spared name (store.resolveAlternatives alternatives)
          (other.resolveAlternatives alternatives)
  | [] => Spared.refl _
  | members :: rest => by
      rw [Store.resolveAlternatives, Store.resolveAlternatives]
      exact (resolveMembers opened members).bind fun first =>
        (resolveAlternatives opened rest).bind fun others => Spared.refl _

theorem resolveMembers (opened : OpenedIn name store other)
    : (members : List Member)
      → Spared name (store.resolveMembers members) (other.resolveMembers members)
  | [] => Spared.refl _
  | member :: rest => by
      rw [Store.resolveMembers, Store.resolveMembers]
      exact (resolveMember opened member).bind fun first =>
        (resolveMembers opened rest).bind fun others => Spared.refl _

theorem resolveMember (opened : OpenedIn name store other)
    : (member : Member)
      → Spared name (store.resolveMember member) (other.resolveMember member)
  | .rule test operand => Spared.refl _
  | .subQuery test bucket field tree => by
      rw [Store.resolveMember, Store.resolveMember]
      exact (scan opened tree).bind fun rows => Spared.refl _
  | .group (.anyOf bucket scope alternatives) => by
      rw [Store.resolveMember, Store.resolveMember]
      exact (resolveAlternatives opened alternatives).bind fun resolved => Spared.refl _

end

include opened

theorem query (sorter : StableSort Row) (tree : RuleTree) (sort : List SortKey)
    (pagination : Option Pagination)
    : Spared name (store.query sorter tree sort pagination)
        (other.query sorter tree sort pagination) :=
  (opened.scan tree).bind fun _ => Spared.refl _

theorem evaluate (sorter : StableSort Row) (request : RunRequest)
    : Spared name (store.evaluate sorter request) (other.evaluate sorter request) := by
  simp only [Store.evaluate]
  split
  · exact (opened.scan _).bind fun _ => Spared.refl _
  · exact (Spared.mapM (fun _ => opened.scan _) _).bind fun _ => Spared.refl _

end OpenedIn

-----------------------------------------------------------------------------------------
-- Refused insertions
-----------------------------------------------------------------------------------------

theorem bucket?_eq_none {store : Store} {name : String} (missing : ¬store.Holds name)
    : store.bucket? name = none :=
  Option.not_isSome_iff_eq_none.mp missing

/-- Holding a bucket that was not held is creating it with the default identity field. -/
theorem putBucket_bucketOrNew_of_not_holds {store : Store} {name : String}
    (missing : ¬store.Holds name)
    : store.putBucket name (store.bucketOrNew name) = store.createBucket name "id" := by
  have vacant := bucket?_eq_none missing
  rw [createBucket, bucketOrNew_eq_of_not_held vacant, vacant]
  rfl

/-- A bucket that was not held is empty, so that opening it leaves every bucket as it is. -/
theorem openedIn_createBucket {store : Store} {name : String} (missing : ¬store.Holds name)
    : OpenedIn name store (store.createBucket name "id") where
  same bucket := by
    rw [← putBucket_bucketOrNew_of_not_holds missing]
    by_cases mine : name = bucket
    · subst mine
      exact store.bucketOrNew_putBucket name _
    · rw [bucketOrNew, bucket?_putBucket_of_ne store mine, bucketOrNew]
  holds := store.holds_putBucket name _

/-- Giving a bucket that is held the content that it has leaves the store as it is. -/
theorem putBucket_bucketOrNew {store : Store} {name : String} (held : store.Holds name)
    : store.putBucket name (store.bucketOrNew name) = store := by
  obtain ⟨bucket, found⟩ := Option.isSome_iff_exists.mp held
  rw [bucketOrNew_eq_of_bucket? found, putBucket, Table.put_of_get? found]

/-- An object without a key is refused after its bucket was opened, any other value before. -/
theorem insert_of_refused {store : Store} {name : String} {object : Value} {error : StoreError}
    (refused : (store.insert name object).2 = .error error)
    : (error = .notAnObject name ∨ store.Holds name) ∧ (store.insert name object).1 = store
      ∨ error ≠ .notAnObject name
        ∧ ¬store.Holds name
        ∧ (store.insert name object).1 = store.createBucket name "id" := by
  cases object with
  | object entries =>
      simp only [insert] at refused ⊢
      split at refused
      · cases refused
      · obtain rfl := Except.error.inj refused
        by_cases held : store.Holds name
        · exact Or.inl ⟨Or.inr held, putBucket_bucketOrNew held⟩
        · exact Or.inr ⟨StoreError.noConfusion, held, putBucket_bucketOrNew_of_not_holds held⟩
  | null | bool | number | string | array =>
      exact Or.inl ⟨Or.inl (Except.error.inj refused).symm, rfl⟩

/-- A refused insertion either leaves the store as it was, or opens the bucket: the store is left
alone if the value is no object or the bucket is held, and otherwise an empty bucket identified by
`id` is there, so that asking for all its objects is no error any more. Whatever is done to the
store afterwards, nothing else comes of it. All buckets have the same identity fields and objects as
without the insertion, other buckets are held or not as without it, the same objects are found and
the same values refused; and a query or a request is answered as without it, unless the answer would
have been that the bucket is not held.
-/
theorem insert_refused {store : Store} {name : String} {object : Value} {error : StoreError}
    (refused : (store.insert name object).2 = .error error)
    : let after := (store.insert name object).1
      (after = store ↔ error = .notAnObject name ∨ store.Holds name)
      ∧ (after ≠ store
        → after = store.createBucket name "id"
          ∧ ∀ sorter scope,
              store.query sorter (.anyOf name scope []) [] none = .error (.unknownBucket name)
              ∧ after.query sorter (.anyOf name scope []) [] none = .ok (some RowSet.empty))
      ∧ ∀ later : List Operation,
          let without := later.foldl step store
          let present := later.foldl step after
          (∀ bucket, present.bucketOrNew bucket = without.bucketOrNew bucket)
          ∧ (∀ bucket, bucket ≠ name → (present.Holds bucket ↔ without.Holds bucket))
          ∧ (∀ bucket identity, present.get? bucket identity = without.get? bucket identity)
          ∧ (∀ bucket value,
              (present.insert bucket value).2 = (without.insert bucket value).2)
          ∧ (∀ sorter tree sort pagination,
              Spared name (without.query sorter tree sort pagination)
                (present.query sorter tree sort pagination))
          ∧ ∀ sorter request,
              Spared name (without.evaluate sorter request) (present.evaluate sorter request) := by
  intro after
  rcases insert_of_refused refused with ⟨harmless, same⟩ | ⟨anonymous, missing, opens⟩
  · refine ⟨iff_of_true same harmless, fun differs => absurd same differs, fun later => ?_⟩
    simp [after, same, Spared.refl]
  · have opened : OpenedIn name store after := by
      rw [show after = store.createBucket name "id" from opens]
      exact openedIn_createBucket missing
    have held : after.Holds name := (opened.holds name).mpr (Or.inr rfl)
    have differs : after ≠ store := fun same => missing (same ▸ held)
    refine ⟨iff_of_false differs (not_or.mpr ⟨anonymous, missing⟩), fun _ => ⟨opens, ?_⟩, ?_⟩
    · intro sorter scope
      have vacant := bucket?_eq_none missing
      have listed : after.query sorter (.anyOf name scope []) [] none = _ :=
        query_of_rules_eq_nil held rfl sorter
      rw [objects_eq, RuleTree.bucket, opened.same, bucketOrNew_eq_of_not_held vacant] at listed
      refine ⟨?_, listed⟩
      simp [query, scan, resolveAlternatives, select, RuleTree.bucket, vacant, bind, Except.bind]
    · intro later
      have alike := opened.foldl_step later
      exact ⟨alike.same,
        fun bucket other => (alike.holds bucket).trans (or_iff_left (Ne.symm other)),
        alike.get?, alike.snd_insert, alike.query, alike.evaluate⟩

/-- A shape without identity. -/
def namelessShape : Value := .object [("color", .string "red")]

/-- A shape with an identity. -/
def namedShape : Value := .object [("id", .string "a")]

/-- The first shape inserted into a fresh store is refused. The next one is filed as if the first
had not been tried.
-/
theorem insert_refused_nameless
    : (empty.insert "shape" namelessShape).2 = .error (.missingIdentity "shape" "id")
      ∧ (empty.insert "shape" namelessShape).1 = empty.createBucket "shape" "id"
      ∧ ((empty.insert "shape" namelessShape).1.insert "shape" namedShape).1.get? "shape"
          (.string "a")
        = some namedShape := by
  have refused
      : (empty.insert "shape" namelessShape).2 = .error (.missingIdentity "shape" "id") := by
    decide +kernel
  obtain ⟨unchanged, opens, further⟩ := insert_refused refused
  have differs : (empty.insert "shape" namelessShape).1 ≠ empty := fun same =>
    absurd (unchanged.mp same) (by decide +kernel)
  obtain ⟨_, _, found, _⟩ := further [.insert "shape" namedShape]
  refine ⟨refused, (opens differs).1, (found "shape" (.string "a")).trans ?_⟩
  decide +kernel

/-- A refused shape makes the bucket one that is held. Asking for all shapes is an error before, and
afterwards it is not.
-/
theorem empty_insert_nameless
    : let after := (empty.insert "shape" namelessShape).1
      let shapes := RuleTree.anyOf "shape" none []
      empty.Reachable
      ∧ (empty.insert "shape" namelessShape).2 = .error (.missingIdentity "shape" "id")
      ∧ after ≠ empty
      ∧ ¬empty.Holds "shape"
      ∧ after.Holds "shape"
      ∧ empty.query .insertion shapes [] none = .error (.unknownBucket "shape")
      ∧ after.query .insertion shapes [] none = .ok (some RowSet.empty) := by
  refine ⟨Reachable.empty, ?_⟩
  decide +kernel

end FederatedQuery.Store
