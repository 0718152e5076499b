import FederatedQuery.Proofs.Store.History

/-! Objects are filed under their identity for as long as no bucket is given another identity field
while it holds objects. Those that it holds then stay under the keys that they had.
-/

namespace FederatedQuery

/-- Every object is filed under the key that it has in the identity field. -/
def StoredBucket.FilesByIdentity (bucket : StoredBucket) : Prop :=
  ∀ key object,
    Table.get? bucket.objects key = some object
    → Store.filing? bucket.identityField object = some key

namespace Store

/-- An object that is filed has an identity. -/
theorem exists_identity_of_filing? {identityField key : String} {object : Value}
    (filed : filing? identityField object = some key)
    : ∃ identity, object.at? identityField = some identity ∧ identity.identityKey = some key := by
  cases object with
  | object entries => exact Option.bind_eq_some_iff.mp filed
  | null | bool | number | string | array => cases filed

-----------------------------------------------------------------------------------------
-- Filing by identity is kept
-----------------------------------------------------------------------------------------

/-- Objects are filed one by one with the keys that they have. -/
theorem filing?_of_mem_filings {identityField key : String} {object : Value}
    {objects : List Value} (inside : .filed key object ∈ filings identityField objects)
    : filing? identityField object = some key := by
  induction objects with
  | nil => cases inside
  | cons first rest ih =>
      rw [filings] at inside
      split at inside
      · next firstKey filed =>
        rcases List.mem_cons.mp inside with same | later
        · injection same with sameKey sameObject
          rw [sameKey, sameObject, filed]
        · exact ih later
      · cases inside

theorem filing?_of_mem_events {operation : Operation} {identityField key : String}
    {object : Value} (inside : .filed key object ∈ operation.events identityField)
    : filing? identityField object = some key := by
  cases operation with
  | insert name object => exact filing?_of_mem_filings inside
  | extend name objects => exact filing?_of_mem_filings inside
  | remove name identity => simp [Operation.events] at inside
  | createBucket | clearBucket => simp [Operation.events] at inside

/-- What holds of all objects there and of all that are filed holds of those there afterwards, by
induction on the events.
-/
theorem of_get?_foldl_record {P : String → Value → Prop} {log : List Event}
    (filed : ∀ key object, .filed key object ∈ log → P key object)
    {objects : Table String Value}
    (there : ∀ key object, Table.get? objects key = some object → P key object)
    : ∀ key object, Table.get? (log.foldl record objects) key = some object → P key object := by
  induction log generalizing objects with
  | nil => exact there
  | cons event rest ih =>
      refine ih (fun key object later => filed key object (List.mem_cons_of_mem _ later)) ?_
      intro key object found
      rcases (get?_record objects event key object).mp found with rfl | ⟨_, earlier⟩
      · exact filed key object List.mem_cons_self
      · exact there key object earlier

/-- The operation gives the bucket another identity field while that holds objects. -/
def Operation.Renames (store : Store) (name : String) : Operation → Prop
  | createBucket bucket identityField =>
      bucket = name
      ∧ identityField ≠ (store.bucketOrNew name).identityField
      ∧ store.size name ≠ 0
  | _ => False

/-- An operation that does not rename its bucket keeps its objects filed by identity. -/
theorem filesByIdentity_step {store : Store} {operation : Operation}
    (files : (store.bucketOrNew operation.bucket).FilesByIdentity)
    (steady : ¬operation.Renames store operation.bucket)
    : ((store.step operation).bucketOrNew operation.bucket).FilesByIdentity := by
  rw [bucketOrNew_step]
  cases operation with
  | createBucket name identityField =>
      intro key object found
      by_cases same : identityField = (store.bucketOrNew name).identityField
      · simp only [Operation.fieldAfter, same]
        exact files key object found
      · have none : (store.bucketOrNew name).objects.length = 0 := by
          simpa [Operation.Renames, Operation.bucket, same, size_eq] using steady
        rw [Operation.events, Operation.bucket, List.foldl_nil,
          List.length_eq_zero_iff.mp none] at found
        cases found
  | insert | extend | remove | clearBucket =>
      exact of_get?_foldl_record (fun key object inside => filing?_of_mem_events inside) files

/-- The bucket has not been renamed since it held no objects. -/
structure Settled (name : String) (earlier later : List Operation) : Prop where
  vacant : (run earlier).size name = 0
  kept
    : ∀ before operation after,
        later = before ++ operation :: after
        → ¬operation.Renames (run (earlier ++ before)) name

theorem Settled.of_concat {name : String} {earlier later : List Operation}
    {operation : Operation} (settled : Settled name earlier (later ++ [operation]))
    : Settled name earlier later where
  vacant := settled.vacant
  kept before other after split :=
    settled.kept before other (after ++ [operation]) (by simp [split])

/-- From when a bucket holds no objects until it is renamed, objects stay filed by identity, by
induction on the operations, the last first.
-/
theorem filesByIdentity_run {name : String} {earlier later : List Operation}
    (settled : Settled name earlier later)
    : ((run (earlier ++ later)).bucketOrNew name).FilesByIdentity := by
  induction later using List.reverseRecOn with
  | nil =>
      intro key object found
      have none := settled.vacant
      rw [size_eq, List.length_eq_zero_iff] at none
      rw [List.append_nil, none] at found
      cases found
  | append_singleton later operation ih =>
      have files := ih settled.of_concat
      rw [← List.append_assoc, run, List.foldl_concat]
      by_cases same : operation.bucket = name
      · subst same
        exact filesByIdentity_step files (settled.kept later operation [] rfl)
      · rw [bucketOrNew, bucket?_step_of_ne _ operation same]
        exact files

-----------------------------------------------------------------------------------------
-- What filing by identity is good for
-----------------------------------------------------------------------------------------

/-- An object with the key of a stored one takes its place. -/
theorem insert_replaces {store : Store} {name key : String} {other : Value}
    (ascending : (store.bucketOrNew name).objects.Ascending)
    (known : key ∈ Table.keys (store.bucketOrNew name).objects)
    (filed : filing? (store.bucketOrNew name).identityField other = some key)
    : ∃ next,
        store.insert name other = (next, .ok ())
        ∧ next.size name = store.size name
        ∧ ∀ place object,
            (place, object) ∈ (next.bucketOrNew name).objects
            ↔ if place = key then object = other
              else (place, object) ∈ (store.bucketOrNew name).objects := by
  rcases insert_cases store name other with ⟨found, filedHere, inserted⟩ | ⟨refused, _⟩
  · obtain rfl := Option.some.inj (filedHere.symm.trans filed)
    refine ⟨_, inserted, ?_, fun place object => ?_⟩
    · have same := congrArg List.length (Table.keys_insert_of_mem ascending known other)
      simpa only [size_eq, bucketOrNew_putBucket, Table.keys, List.length_map] using same
    · rw [bucketOrNew_putBucket,
        Table.mem_iff_get? (Table.ascending_insert ascending _ other).nodup,
        Table.mem_iff_get? ascending.nodup, Table.get?_insert]
      split
      · exact Option.some_inj.trans eq_comm
      · exact Iff.rfl
  · rw [filed] at refused
    cases refused

/-- Objects are stored under their identity in every bucket that was not renamed since it last held
none. Every object there is filed under the key that it has in the bucket's identity field, is
found by its own identity, and is replaced by any object with the same key, itself included; and no
two objects have the same key.
-/
theorem run_files_by_identity (name : String) (earlier later : List Operation)
    (settled : Settled name earlier later)
    : let store := run (earlier ++ later)
      let bucket := store.bucketOrNew name
      let keyOf := filing? bucket.identityField
      (∀ key object,
          (key, object) ∈ bucket.objects
          → keyOf object = some key
            ∧ (∃ identity,
                object.at? bucket.identityField = some identity
                ∧ store.get? name identity = some object)
            ∧ ∀ other,
                keyOf other = some key
                → ∃ next,
                    store.insert name other = (next, .ok ())
                    ∧ next.size name = store.size name
                    ∧ ∀ place kept,
                        (place, kept) ∈ (next.bucketOrNew name).objects
                        ↔ if place = key then kept = other else (place, kept) ∈ bucket.objects)
      ∧ bucket.objects.Pairwise fun first second => keyOf first.2 ≠ keyOf second.2 := by
  intro store bucket keyOf
  have ascending : bucket.objects.Ascending := (reachable_run (earlier ++ later)).ordered.bucketOrNew name
  have files : bucket.FilesByIdentity := filesByIdentity_run settled
  have filed : ∀ entry ∈ bucket.objects, keyOf entry.2 = some entry.1 :=
    fun entry inside => files entry.1 entry.2 (Table.get?_of_mem ascending.nodup inside)
  refine ⟨fun key object inside => ⟨filed _ inside, ?_, fun other sameKey => ?_⟩, ?_⟩
  · obtain ⟨identity, read, identified⟩ := exists_identity_of_filing? (filed _ inside)
    refine ⟨identity, read, ?_⟩
    rw [get?_eq, identified]
    exact Table.get?_of_mem ascending.nodup inside
  · exact insert_replaces ascending (List.mem_map.mpr ⟨_, inside, rfl⟩) sameKey
  · have distinct : bucket.objects.Pairwise fun first second => first.1 ≠ second.1 :=
      List.pairwise_map.mp ascending.nodup
    refine distinct.imp_of_mem fun first second differ same => ?_
    rw [filed _ first, filed _ second] at same
    exact differ (Option.some.inj same)

/-- A shape with an identity and a code. -/
def codedShape : Value := .object [("id", .string "a"), ("code", .string "x")]

/-- Shapes are filed under their codes from now on, with one shape there already. -/
def recoded : List Operation :=
  [.insert "shape" codedShape, .createBucket "shape" "code"]

/-- Once the bucket was cleared, the shape is filed under its code. -/
theorem run_files_by_identity_cleared
    : let store := run (recoded ++ [.clearBucket "shape"] ++ [.insert "shape" codedShape])
      Settled "shape" (recoded ++ [.clearBucket "shape"]) [.insert "shape" codedShape]
      ∧ ("x", codedShape) ∈ (store.bucketOrNew "shape").objects
      ∧ filing? (store.bucketOrNew "shape").identityField codedShape = some "x"
      ∧ ∃ next,
          store.insert "shape" codedShape = (next, .ok ())
          ∧ next.size "shape" = store.size "shape" := by
  have settled
      : Settled "shape" (recoded ++ [.clearBucket "shape"]) [.insert "shape" codedShape] := by
    refine ⟨by decide +kernel, fun before operation after split => ?_⟩
    have only : operation ∈ [Operation.insert "shape" codedShape] := by simp [split]
    rw [List.mem_singleton.mp only]
    exact id
  have inside : ("x", codedShape)
      ∈ ((run (recoded ++ [.clearBucket "shape"] ++ [.insert "shape" codedShape])).bucketOrNew
          "shape").objects := by
    decide +kernel
  obtain ⟨filed, _, replaced⟩ := (run_files_by_identity "shape" _ _ settled).1 _ _ inside
  obtain ⟨next, inserted, same, _⟩ := replaced codedShape filed
  exact ⟨settled, inside, filed, next, inserted, same⟩

/-- A shape that is there when the field changes stays under its identity. It is not found by its
code, and another insertion stores it a second time.
-/
theorem run_recoded
    : let store := run recoded
      let bucket := store.bucketOrNew "shape"
      ("a", codedShape) ∈ bucket.objects
      ∧ bucket.identityField = "code"
      ∧ filing? bucket.identityField codedShape = some "x"
      ∧ codedShape.at? bucket.identityField = some (.string "x")
      ∧ store.get? "shape" (.string "x") = none
      ∧ (store.insert "shape" codedShape).2 = .ok ()
      ∧ ((store.insert "shape" codedShape).1.bucketOrNew "shape").objects
        = [("a", codedShape), ("x", codedShape)] := by
  decide +kernel

end Store

end FederatedQuery
