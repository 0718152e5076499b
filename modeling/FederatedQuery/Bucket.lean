import FederatedQuery.Value.Path
import FederatedQuery.Value.Record

/-! Bucket definitions: what a collection of objects is called and which fields it has. -/

namespace FederatedQuery

/-- A named collection of objects. No declared fields means that any field is accepted. -/
structure BucketDef where
  name : String
  identityField : String
  fields : List String
deriving DecidableEq

namespace BucketDef

/-- The identity field of buckets that name none. -/
def defaultIdentityField : String := "id"

/-- A field path is addressable when its first segment is declared or identifies objects.
What follows the first segment is free.
-/
def hasField (bucket : BucketDef) (path : String) : Bool :=
  bucket.fields.isEmpty || Path.head path == bucket.identityField
    || bucket.fields.contains (Path.head path)

/-- The definition with further fields declared. -/
def addFields (bucket : BucketDef) (fields : List String) : BucketDef :=
  { bucket with fields := bucket.fields ++ fields }

/-- Reads the record form. Only the name has to be there. -/
def ofValue? (value : Value) : Option BucketDef := do
  let fields ← value.fields? ["name", "identity_field", "fields"]
  let name ← Value.required fields "name" Value.string?
  let identityField ←
    Value.optional fields "identity_field" defaultIdentityField Value.string?
  let declared ← Value.optional fields "fields" [] (Value.listOf? Value.string?)
  return ⟨name, identityField, declared⟩

/-- The record form. -/
def toValue (bucket : BucketDef) : Value :=
  .object
    [
      ("name", .string bucket.name),
      ("identity_field", .string bucket.identityField),
      ("fields", .array (bucket.fields.map .string))
    ]

end BucketDef

end FederatedQuery
