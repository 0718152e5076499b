import FederatedQuery.Proofs.Sorting
import FederatedQuery.Proofs.Store.Answering
import FederatedQuery.Proofs.Store.Reachable
import FederatedQuery.Proofs.Table
import FederatedQuery.Proofs.Text.ByteOrder
import Mathlib.Data.List.Induction

/-! The store as the fold of its history. Every bucket has a log of what was filed in it, removed
from it and cleared away, and keeps exactly the objects that its log leaves there.
-/

namespace FederatedQuery.Store

/-- What can be done to a store. -/
inductive Operation where
  | createBucket (name identityField : String)
  | insert (name : String) (object : Value)
  | extend (name : String) (objects : List Value)
  | remove (name : String) (identity : Value)
  | clearBucket (name : String)

def step (store : Store) : Operation → Store
  | .createBucket name identityField => store.createBucket name identityField
  | .insert name object => (store.insert name object).1
  | .extend name objects => (store.extend name objects).1
  | .remove name identity => store.remove name identity
  | .clearBucket name => store.clearBucket name

/-- The store after operations on a fresh one, whether they succeed or not. -/
def run (history : List Operation) : Store := history.foldl step empty

-----------------------------------------------------------------------------------------
-- What a history says of a bucket
-----------------------------------------------------------------------------------------

/-- The key under which a bucket with the identity field files a value. Only objects are filed. -/
def filing? (identityField : String) : Value → Option String
  | .object entries => keyOf? identityField (.object entries)
  | _ => none

/-- What happens in a bucket. -/
inductive Event where
  | filed (key : String) (object : Value)
  | removed (key : String)
  | cleared

/-- What was filed under the key before is there no longer. -/
def Event.Ends (key : String) : Event → Prop
  | filed other _ => other = key
  | removed other => other = key
  | cleared => True

/-- The filings of values one after the other, up to the first that is refused. -/
def filings (identityField : String) : List Value → List Event
  | [] => []
  | object :: rest =>
      match filing? identityField object with
      | some key => .filed key object :: filings identityField rest
      | none => []

namespace Operation

/-- The bucket to which the operation is done. -/
def bucket : Operation → String
  | createBucket name _ => name
  | insert name _ => name
  | extend name _ => name
  | remove name _ => name
  | clearBucket name => name

/-- The identity field of the operation's bucket afterwards. -/
def fieldAfter (identityField : String) : Operation → String
  | createBucket _ new => new
  | _ => identityField

/-- What the operation makes happen in its bucket, if that has the identity field. -/
def events (identityField : String) : Operation → List Event
  | createBucket _ _ => []
  | insert _ object => filings identityField [object]
  | extend _ objects => filings identityField objects
  | remove _ identity => (identity.identityKey.map Event.removed).toList
  | clearBucket _ => [.cleared]

end Operation

/-- What happens in a bucket through operations on it. -/
def eventsFrom (identityField : String) : List Operation → List Event
  | [] => []
  | operation :: rest =>
      operation.events identityField ++ eventsFrom (operation.fieldAfter identityField) rest

/-- The operations of a history on a bucket. -/
def ofBucket (name : String) (history : List Operation) : List Operation :=
  history.filter fun operation => operation.bucket = name

/-- The identity field that a bucket has after a history. -/
def fieldOf (name : String) (history : List Operation) : String :=
  (ofBucket name history).foldl Operation.fieldAfter "id"

/-- What has happened in a bucket, with the identity field that it had each time. -/
def log (name : String) (history : List Operation) : List Event :=
  eventsFrom "id" (ofBucket name history)

/-- The object was the last to be filed under the key, and has not been removed since. -/
def Live (log : List Event) (key : String) (object : Value) : Prop :=
  ∃ before after,
    log = before ++ .filed key object :: after ∧ ∀ event ∈ after, ¬event.Ends key

/-- The last event makes its object live, or leaves alive what it does not end. -/
theorem live_concat {log : List Event} {event : Event} {key : String} {object : Value}
    : Live (log ++ [event]) key object
      ↔ event = .filed key object ∨ ¬event.Ends key ∧ Live log key object := by
  constructor
  · intro live
    obtain ⟨before, after, split, kept⟩ := live
    rcases List.eq_nil_or_concat after with rfl | ⟨others, last, rfl⟩
    · exact Or.inl (List.singleton_inj.mp (List.append_inj' split rfl).2)
    · have same : log ++ [event] = (before ++ .filed key object :: others) ++ [last] := by
        simpa using split
      obtain ⟨logSame, eventSame⟩ := List.append_inj' same rfl
      obtain rfl := List.singleton_inj.mp eventSame
      exact Or.inr ⟨kept event (by simp),
        before, others, logSame, fun other inside => kept other (by simp [inside])⟩
  · intro either
    rcases either with rfl | ⟨unended, before, after, rfl, kept⟩
    · exact ⟨log, [], rfl, by simp⟩
    · refine ⟨before, after ++ [event], by simp, fun other inside => ?_⟩
      rcases List.mem_append.mp inside with earlier | last
      · exact kept other earlier
      · exact List.mem_singleton.mp last ▸ unended

-----------------------------------------------------------------------------------------
-- What a log leaves
-----------------------------------------------------------------------------------------

/-- The objects of a bucket after an event. -/
def record (objects : Table String Value) : Event → Table String Value
  | .filed key object => Table.insert objects key object
  | .removed key => Table.erase objects key
  | .cleared => []

theorem get?_record (objects : Table String Value) (event : Event) (key : String)
    (object : Value)
    : Table.get? (record objects event) key = some object
      ↔ event = .filed key object ∨ ¬event.Ends key ∧ Table.get? objects key = some object := by
  cases event with
  | filed other filed =>
      rw [record, Table.get?_insert]
      by_cases same : key = other
      · simp [same, Event.Ends]
      · simp [same, Ne.symm same, Event.Ends]
  | removed other =>
      rw [record, Table.get?_erase]
      by_cases same : key = other
      · simp [same, Event.Ends]
      · simp [same, Ne.symm same, Event.Ends]
  | cleared => simp [record, Event.Ends]

/-- A log leaves the objects that are live in it, by induction on its events, the last first. -/
theorem get?_foldl_record (log : List Event) (key : String) (object : Value)
    : Table.get? (log.foldl record []) key = some object ↔ Live log key object := by
  induction log using List.reverseRecOn with
  | nil =>
      refine iff_of_false (by simp) ?_
      intro live
      obtain ⟨before, after, split, _⟩ := live
      simp at split
  | append_singleton log event ih => rw [List.foldl_concat, get?_record, live_concat, ih]

-----------------------------------------------------------------------------------------
-- What an operation does to its bucket and to others
-----------------------------------------------------------------------------------------

theorem bucket?_putBucket (store : Store) (name : String) (bucket : StoredBucket)
    (other : String)
    : (store.putBucket name bucket).bucket? other
      = if other = name then some bucket else store.bucket? other :=
  Table.get?_put store.buckets name bucket other

theorem bucket?_putBucket_of_ne (store : Store) {name other : String} (differs : name ≠ other)
    (bucket : StoredBucket)
    : (store.putBucket name bucket).bucket? other = store.bucket? other := by
  rw [bucket?_putBucket, if_neg (Ne.symm differs)]

theorem bucketOrNew_putBucket (store : Store) (name : String) (bucket : StoredBucket)
    : (store.putBucket name bucket).bucketOrNew name = bucket := by
  rw [bucketOrNew, bucket?_putBucket, if_pos rfl, Option.getD_some]

theorem bucketOrNew_eq_of_bucket? {store : Store} {name : String} {bucket : StoredBucket}
    (held : store.bucket? name = some bucket)
    : store.bucketOrNew name = bucket := by
  rw [bucketOrNew, held, Option.getD_some]

theorem bucketOrNew_eq_of_not_held {store : Store} {name : String}
    (missing : store.bucket? name = none)
    : store.bucketOrNew name = ⟨"id", []⟩ := by
  rw [bucketOrNew, missing, Option.getD_none]

/-- What is read off a bucket that may not be held is read off the one in its place. -/
theorem getD_map_bucket? {α : Type} (store : Store) (name : String) (f : StoredBucket → α)
    : ((store.bucket? name).map f).getD (f ⟨"id", []⟩) = f (store.bucketOrNew name) := by
  rw [bucketOrNew]
  cases store.bucket? name <;> rfl

/-- An object is filed under its key, or it is refused and changes nothing in any bucket. -/
theorem insert_cases (store : Store) (name : String) (object : Value)
    : (∃ key,
          filing? (store.bucketOrNew name).identityField object = some key
          ∧ store.insert name object
            = (store.putBucket name
                {
                  store.bucketOrNew name with
                  objects := Table.insert (store.bucketOrNew name).objects key object
                },
                .ok ()))
      ∨ filing? (store.bucketOrNew name).identityField object = none
        ∧ ∃ next error,
            store.insert name object = (next, .error error)
            ∧ (next = store ∨ next = store.putBucket name (store.bucketOrNew name)) := by
  cases object with
  | object entries =>
      simp only [filing?, insert]
      cases keyOf? (store.bucketOrNew name).identityField (.object entries) with
      | some key => exact Or.inl ⟨key, rfl, rfl⟩
      | none => exact Or.inr ⟨rfl, _, _, rfl, Or.inr rfl⟩
  | null | bool | number | string | array => exact Or.inr ⟨rfl, store, _, rfl, Or.inl rfl⟩

/-- Filing objects adds their filings to the log, and succeeds if none is refused. By induction on
the objects.
-/
theorem extend_spec (store : Store) (name : String) (objects : List Value)
    : (store.extend name objects).1.bucketOrNew name
        = {
            store.bucketOrNew name with
            objects :=
              (filings (store.bucketOrNew name).identityField objects).foldl record
                (store.bucketOrNew name).objects
          }
      ∧ ((store.extend name objects).2 = .ok ()
        ↔ ∀ object ∈ objects,
            (filing? (store.bucketOrNew name).identityField object).isSome = true) := by
  induction objects generalizing store with
  | nil => exact ⟨rfl, iff_of_true rfl (by simp)⟩
  | cons object rest ih =>
      rcases insert_cases store name object with
        ⟨key, filed, inserted⟩ | ⟨refused, next, error, inserted, unchanged⟩
      · have after := ih (store.putBucket name
          {
            store.bucketOrNew name with
            objects := Table.insert (store.bucketOrNew name).objects key object
          })
        simp only [bucketOrNew_putBucket] at after
        simpa [extend, inserted, filings, filed, record] using after
      · have same : next.bucketOrNew name = store.bucketOrNew name := by
          rcases unchanged with rfl | rfl
          · rfl
          · exact bucketOrNew_putBucket ..
        simp [extend, inserted, filings, refused, same]

theorem extend_singleton (store : Store) (name : String) (object : Value)
    : store.extend name [object] = store.insert name object := by
  rcases insert_cases store name object with ⟨key, _, inserted⟩ | ⟨_, next, error, inserted, _⟩
  · simp [extend, inserted]
  · simp [extend, inserted]

/-- An operation gives its bucket the field it says, and makes happen there what it says. -/
theorem bucketOrNew_step (store : Store) (operation : Operation)
    : (store.step operation).bucketOrNew operation.bucket
      = ⟨
          operation.fieldAfter (store.bucketOrNew operation.bucket).identityField,
          (operation.events (store.bucketOrNew operation.bucket).identityField).foldl record
            (store.bucketOrNew operation.bucket).objects
        ⟩ := by
  cases operation with
  | createBucket name identityField =>
      have kept := store.getD_map_bucket? name StoredBucket.objects
      simp only [step, createBucket, Operation.bucket, bucketOrNew_putBucket, Operation.fieldAfter,
        Operation.events, List.foldl_nil]
      rw [← kept]
  | insert name object =>
      simp only [step, ← extend_singleton]
      exact (store.extend_spec name [object]).1
  | extend name objects => exact (store.extend_spec name objects).1
  | remove name identity =>
      simp only [step, remove, take, Operation.bucket, Operation.fieldAfter, Operation.events]
      cases identity.identityKey with
      | none => rfl
      | some key =>
          cases held : store.bucket? name with
          | none => simp [bucketOrNew_eq_of_not_held held, record, Table.erase]
          | some bucket =>
              simp [bucketOrNew_putBucket, bucketOrNew_eq_of_bucket? held, record]
  | clearBucket name =>
      simp only [step, clearBucket, Operation.bucket, Operation.fieldAfter, Operation.events]
      cases held : store.bucket? name with
      | none => simp [bucketOrNew_eq_of_not_held held, record]
      | some bucket => simp [bucketOrNew_putBucket, bucketOrNew_eq_of_bucket? held, record]

theorem bucket?_insert_of_ne (store : Store) {name other : String} (differs : name ≠ other)
    (object : Value)
    : (store.insert name object).1.bucket? other = store.bucket? other := by
  rcases insert_cases store name object with
    ⟨key, _, inserted⟩ | ⟨_, next, error, inserted, rfl | rfl⟩
  · rw [inserted, bucket?_putBucket_of_ne store differs]
  · rw [inserted]
  · rw [inserted, bucket?_putBucket_of_ne store differs]

theorem bucket?_extend_of_ne (store : Store) {name other : String} (differs : name ≠ other)
    (objects : List Value)
    : (store.extend name objects).1.bucket? other = store.bucket? other := by
  induction objects generalizing store with
  | nil => rfl
  | cons object rest ih =>
      have first := store.bucket?_insert_of_ne differs object
      simp only [extend]
      split
      · next next inserted =>
        rw [inserted] at first
        exact (ih next).trans first
      · next next error inserted =>
        rw [inserted] at first
        exact first

/-- An operation leaves all buckets but its own as they are. -/
theorem bucket?_step_of_ne (store : Store) (operation : Operation) {other : String}
    (differs : operation.bucket ≠ other)
    : (store.step operation).bucket? other = store.bucket? other := by
  cases operation with
  | createBucket name identityField => exact store.bucket?_putBucket_of_ne differs _
  | insert name object => exact store.bucket?_insert_of_ne differs object
  | extend name objects => exact store.bucket?_extend_of_ne differs objects
  | remove name identity =>
      simp only [step, remove, take]
      split
      · exact store.bucket?_putBucket_of_ne differs _
      · rfl
  | clearBucket name =>
      simp only [step, clearBucket]
      split
      · exact store.bucket?_putBucket_of_ne differs _
      · rfl

-----------------------------------------------------------------------------------------
-- Histories
-----------------------------------------------------------------------------------------

/-- Through a history a bucket comes to the fold of its events, by induction on the operations. -/
theorem bucketOrNew_foldl_step (store : Store) (history : List Operation) (name : String)
    : (history.foldl step store).bucketOrNew name
      = ⟨
          (ofBucket name history).foldl Operation.fieldAfter
            (store.bucketOrNew name).identityField,
          (eventsFrom (store.bucketOrNew name).identityField (ofBucket name history)).foldl
            record (store.bucketOrNew name).objects
        ⟩ := by
  induction history generalizing store with
  | nil => rfl
  | cons operation rest ih =>
      rw [List.foldl_cons, ih]
      by_cases same : operation.bucket = name
      · subst same
        simp [ofBucket, eventsFrom, bucketOrNew_step]
      · have untouched : (store.step operation).bucketOrNew name = store.bucketOrNew name := by
          rw [bucketOrNew, bucketOrNew, bucket?_step_of_ne store operation same]
        simp [ofBucket, same, untouched]

theorem bucketOrNew_run (history : List Operation) (name : String)
    : (run history).bucketOrNew name
      = ⟨fieldOf name history, (log name history).foldl record []⟩ :=
  bucketOrNew_foldl_step empty history name

theorem Reachable.step {store : Store} (reachable : store.Reachable) (operation : Operation)
    : (store.step operation).Reachable := by
  cases operation with
  | createBucket name identityField => exact reachable.createBucket name identityField
  | insert name object => exact reachable.insert name object
  | extend name objects => exact reachable.extend name objects
  | remove name identity => exact reachable.remove name identity
  | clearBucket name => exact reachable.clearBucket name

theorem reachable_run (history : List Operation) : (run history).Reachable := by
  induction history using List.reverseRecOn with
  | nil => exact Reachable.empty
  | append_singleton history operation ih =>
      rw [run, List.foldl_concat]
      exact ih.step operation

theorem get?_eq (store : Store) (name : String) (identity : Value)
    : store.get? name identity
      = identity.identityKey.bind fun key => Table.get? (store.bucketOrNew name).objects key := by
  simp only [get?, bind]
  cases identity.identityKey with
  | none => rfl
  | some key =>
      cases held : store.bucket? name with
      | none => simp [bucketOrNew_eq_of_not_held held]
      | some bucket => simp [bucketOrNew_eq_of_bucket? held]

theorem size_eq (store : Store) (name : String)
    : store.size name = (store.bucketOrNew name).objects.length :=
  store.getD_map_bucket? name fun bucket => bucket.objects.length

theorem objects_eq (store : Store) (name : String)
    : store.objects name = (store.bucketOrNew name).objects.map Prod.snd :=
  store.getD_map_bucket? name fun bucket => bucket.objects.map Prod.snd

/-- What is taken is what would have been found. -/
theorem fst_take (store : Store) (name : String) (identity : Value)
    : (store.take name identity).1 = store.get? name identity := by
  simp only [take, get?, bind]
  cases identity.identityKey with
  | none => rfl
  | some key => cases store.bucket? name <;> rfl

/-- A removal deletes the object of its key and no other. -/
theorem get?_remove (store : Store) (name : String) (identity other : Value)
    : (store.remove name identity).get? name other
      = if other.identityKey = identity.identityKey then none else store.get? name other := by
  have after := store.bucketOrNew_step (.remove name identity)
  simp only [step, Operation.bucket, Operation.events, Operation.fieldAfter] at after
  rw [get?_eq, get?_eq, after]
  cases asked : other.identityKey with
  | none => simp
  | some key =>
      cases identity.identityKey with
      | none => simp
      | some removed => simp [record, Table.get?_erase]

/-- A query without rules lists all objects of a bucket. -/
theorem query_of_rules_eq_nil {store : Store} {tree : RuleTree} (holds : store.Holds tree.bucket)
    (unconstrained : tree.rules = []) (sorter : StableSort Row)
    : store.query sorter tree [] none
      = .ok (some (RowSet.ofRows (store.objects tree.bucket))) := by
  have bound : ∀ operand ∈ tree.operands, operand.isBound = true := by
    simp [RuleTree.operands, unconstrained]
  have kept : ∀ bucket ∈ tree.bucketsRead, store.Keeps ⟨store.objects, .null⟩ bucket := by
    intro bucket inside
    simp only [RuleTree.bucketsRead, RuleTree.inlineBuckets, unconstrained] at inside
    obtain rfl : bucket = tree.bucket := by simpa using inside
    exact ⟨holds, rfl⟩
  have every : tree.found ⟨store.objects, .null⟩ = store.objects tree.bucket :=
    List.filter_eq_self.mpr fun row _ => RuleTree.meets_of_rules_eq_nil unconstrained _ row
  simp only [query, scan_eq_found bound kept, every, bind, Except.bind, pure, Except.pure,
    finishRows_nil_none]

/-- The store is the fold of its history. In each bucket it finds, under the key of an identity,
the object filed there last and not removed since. It files an object when that has a key in the
bucket's identity field, and several up to the first that has none. It removes what it would have
found and nothing else, and no operation changes another bucket. It counts the live objects of a
bucket, and lists each of them once by the ascending bytes of their keys.
-/
theorem run_refines_history (history : List Operation) (name : String)
    : let store := run history
      let live := Live (log name history)
      let filed := fun object => (filing? (fieldOf name history) object).isSome = true
      let objects := (store.bucketOrNew name).objects
      (∀ identity object,
          store.get? name identity = some object
          ↔ ∃ key, identity.identityKey = some key ∧ live key object)
      ∧ (∀ object, (store.insert name object).2 = .ok () ↔ filed object)
      ∧ (∀ objects, (store.extend name objects).2 = .ok () ↔ ∀ object ∈ objects, filed object)
      ∧ (∀ identity,
          (store.take name identity).1 = store.get? name identity
          ∧ ∀ other,
              (store.take name identity).2.get? name other
              = if other.identityKey = identity.identityKey then none
                else store.get? name other)
      ∧ (∀ operation : Operation,
          operation.bucket ≠ name → (store.step operation).bucket? name = store.bucket? name)
      ∧ (∀ key object, (key, object) ∈ objects ↔ live key object)
      ∧ (objects.keys.Pairwise fun first second => utf8Bytes first < utf8Bytes second)
      ∧ store.size name = objects.length
      ∧ ∀ sorter tree,
          tree.bucket = name
          → tree.rules = []
          → store.Holds name
          → store.query sorter tree [] none
            = .ok (some ⟨objects.map Prod.snd, objects.length⟩) := by
  intro store live filed objects
  have folded : store.bucketOrNew name
      = ⟨fieldOf name history, (log name history).foldl record []⟩ := bucketOrNew_run history name
  have extended := fun objects => (store.extend_spec name objects).2
  have ascending : objects.Ascending := (reachable_run history).ordered.bucketOrNew name
  have leaves : ∀ key object, Table.get? objects key = some object ↔ live key object := by
    simp only [objects, folded]
    exact get?_foldl_record (log name history)
  refine ⟨fun identity object => ?_, fun object => ?_, fun several => ?_,
    fun identity => ⟨store.fst_take name identity, store.get?_remove name identity⟩,
    fun operation differs => store.bucket?_step_of_ne operation differs,
    fun key object => ?_, ascending.imp fun below => (utf8Bytes_lt_iff _ _).mpr below,
    store.size_eq name, ?_⟩
  · rw [get?_eq, Option.bind_eq_some_iff]
    exact exists_congr fun key => and_congr_right fun _ => leaves key object
  · rw [← extend_singleton, extended, folded]
    simp [filed]
  · rw [extended, folded]
  · exact (Table.mem_iff_get? ascending.nodup).trans (leaves key object)
  · intro sorter tree same unconstrained holds
    subst same
    rw [query_of_rules_eq_nil holds unconstrained, objects_eq, RowSet.ofRows, List.length_map]

/-- Filing stops at a shape without identity. Later shapes are filed under their codes, so that one
of them takes the place of another.
-/
def refiled : List Operation :=
  [
    .extend "shape"
      [
        .object [("id", .string "b")],
        .object [("id", .string "a")],
        .object [("code", .string "c")],
        .object [("id", .string "c")]
      ],
    .createBucket "shape" "code",
    .insert "shape" (.object [("id", .string "d"), ("code", .string "a")])
  ]

/-- Two shapes are live, one under its code and one under its identity. -/
theorem run_refines_history_refiled
    : let store := run refiled
      store.Holds "shape"
      ∧ (∀ identity object,
          store.get? "shape" identity = some object
          ↔ ∃ key, identity.identityKey = some key ∧ Live (log "shape" refiled) key object)
      ∧ store.query .insertion (.anyOf "shape" none []) [] none
        = .ok
          (some
            ⟨
              [
                .object [("id", .string "d"), ("code", .string "a")],
                .object [("id", .string "b")]
              ],
              2
            ⟩) := by
  obtain ⟨found, _, _, _, _, _, _, _, listed⟩ := run_refines_history refiled "shape"
  have holds : (run refiled).Holds "shape" := by decide +kernel
  refine ⟨holds, found, ?_⟩
  rw [listed .insertion (.anyOf "shape" none []) rfl rfl holds]
  decide +kernel

end FederatedQuery.Store
