import FederatedQuery.RuleTree.Matching
import FederatedQuery.Table.Sorted

/-! The store in memory: buckets of objects, filed under the text of their identity. -/

namespace FederatedQuery

/-- Why the store refuses something. -/
inductive StoreError where
  | missingIdentity (bucket field : String)
  | unknownBucket (bucket : String)
  | notAnObject (bucket : String)
  | unbound (rule : UnboundRule)
deriving DecidableEq

/-- The text of a store error. -/
def StoreError.message : StoreError → String
  | .missingIdentity bucket field =>
      "object in bucket '" ++ bucket ++ "' has no string or number '" ++ field ++ "' field"
  | .unknownBucket bucket => "bucket '" ++ bucket ++ "' is not held by this runner"
  | .notAnObject bucket => "cannot insert a non-object value into bucket '" ++ bucket ++ "'"
  | .unbound rule => rule.message

/-- The objects of a bucket by ascending identity, and the field that identifies them. -/
structure StoredBucket where
  identityField : String
  objects : Table String Value
deriving DecidableEq

/-- The buckets held, by name. -/
structure Store where
  buckets : Table String StoredBucket
deriving DecidableEq

namespace Store

/-- The store that holds no bucket. -/
def empty : Store := ⟨[]⟩

/-- The bucket of a name, if it is held. -/
def bucket? (store : Store) (name : String) : Option StoredBucket :=
  Table.get? store.buckets name

/-- The store with a bucket in the place of the one of that name. -/
def putBucket (store : Store) (name : String) (bucket : StoredBucket) : Store :=
  ⟨Table.put store.buckets name bucket⟩

/-- Holds a bucket with the given identity field from now on. A bucket already held keeps its
objects.
-/
def createBucket (store : Store) (name identityField : String) : Store :=
  store.putBucket name ⟨identityField, ((store.bucket? name).map StoredBucket.objects).getD []⟩

/-- The bucket of a name or, if it is not held, an empty one identified by `id`. -/
def bucketOrNew (store : Store) (name : String) : StoredBucket :=
  (store.bucket? name).getD ⟨"id", []⟩

/-- The text under which an object is filed in a bucket with this identity field. -/
def keyOf? (identityField : String) (object : Value) : Option String :=
  (object.at? identityField).bind Value.identityKey

/-- Files an object under its identity, in the place of an earlier one with the same
identity. A bucket that was not held is held from then on, even if the object turns out to
have no identity.
-/
def insert (store : Store) (name : String) (object : Value)
    : Store × Except StoreError Unit :=
  match object with
  | .object _ =>
      let bucket := store.bucketOrNew name
      match keyOf? bucket.identityField object with
      | some key =>
          (store.putBucket name
            { bucket with objects := Table.insert bucket.objects key object }, .ok ())
      | none =>
          (store.putBucket name bucket, .error (.missingIdentity name bucket.identityField))
  | _ => (store, .error (.notAnObject name))

/-- Files objects one after the other, up to the first that is refused. -/
def extend (store : Store) (name : String) : List Value → Store × Except StoreError Unit
  | [] => (store, .ok ())
  | object :: rest =>
      match store.insert name object with
      | (next, .ok ()) => extend next name rest
      | (next, .error error) => (next, .error error)

/-- The object with an identity. -/
def get? (store : Store) (name : String) (identity : Value) : Option Value := do
  let key ← identity.identityKey
  let bucket ← store.bucket? name
  Table.get? bucket.objects key

/-- Takes the object of an identity out of the store. -/
def take (store : Store) (name : String) (identity : Value) : Option Value × Store :=
  match identity.identityKey, store.bucket? name with
  | some key, some bucket =>
      (Table.get? bucket.objects key,
        store.putBucket name { bucket with objects := Table.erase bucket.objects key })
  | _, _ => (none, store)

/-- The store without the object of an identity. -/
def remove (store : Store) (name : String) (identity : Value) : Store :=
  (store.take name identity).2

/-- The store without the objects of a bucket. The bucket itself stays. -/
def clearBucket (store : Store) (name : String) : Store :=
  match store.bucket? name with
  | some bucket => store.putBucket name { bucket with objects := [] }
  | none => store

/-- Number of objects in a bucket, none in one that is not held. -/
def size (store : Store) (name : String) : Nat :=
  ((store.bucket? name).map fun bucket => bucket.objects.length).getD 0

end Store

end FederatedQuery
