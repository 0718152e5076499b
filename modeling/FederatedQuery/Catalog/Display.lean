import FederatedQuery.Catalog
import FederatedQuery.Text.Escaped

/-! Debugging displays of registrations. -/

namespace FederatedQuery

/-- The display of a bucket definition. -/
def BucketDef.display (bucket : BucketDef) : String :=
  "BucketDef \x7b name: " ++ Text.displayQuoted bucket.name
    ++ ", identity_field: " ++ Text.displayQuoted bucket.identityField
    ++ ", fields: [" ++ String.intercalate ", " (bucket.fields.map Text.displayQuoted)
    ++ "] \x7d"

/-- The display of a registration. The runner shows only by its scope. -/
def Registration.display {ρ : Type} (registration : Registration ρ) : String :=
  "RegisteredBucket \x7b def: " ++ registration.definition.display
    ++ ", scope: " ++ Text.displayQuoted registration.scope ++ " \x7d"

end FederatedQuery
