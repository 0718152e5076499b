/-! What can go wrong before and while a query runs, and the text of each error. -/

namespace FederatedQuery

/-- A request that is malformed in itself, whatever the catalog holds. -/
inductive RequestError where
  | invalidQuery (detail : String)
  | invalidSort (specifier : String)
  | invalidPagination (detail : String)
deriving DecidableEq

/-- The text of a request error. -/
def RequestError.message : RequestError → String
  | .invalidQuery detail => "invalid query: " ++ detail
  | .invalidSort specifier =>
      "invalid sort specifier '" ++ specifier ++ "': expected 'path@asc' or 'path@desc'"
  | .invalidPagination detail => "invalid pagination: " ++ detail

/-- What is wrong with a query's structure. -/
inductive StructuralKind where
  | unknownOperator
  | invalidModifier
  | unknownBucket
  | unknownField
  | malformedGroup
  | malformedMarker
  | invalidValue
  | emptyFieldPath
  | missingParams
  | limitExceeded
  | cyclicPlan
deriving DecidableEq

/-- A query that cannot be compiled or run as it is. The key, where known, is the entry of
the query object that is to blame.
-/
structure StructuralError where
  kind : StructuralKind
  key : Option String
  message : String
deriving DecidableEq

namespace StructuralError

/-- The same error, blamed on a key. -/
def withKey (error : StructuralError) (key : String) : StructuralError :=
  { error with key := some key }

/-- A key holds a token that is no operator. -/
def unknownOperator (key token : String) : StructuralError :=
  ⟨.unknownOperator, some key, "unknown operator '" ++ token ++ "' in key '" ++ key ++ "'"⟩

/-- A key's modifiers contradict each other or its operator. -/
def invalidModifier (key detail : String) : StructuralError :=
  ⟨.invalidModifier, some key, "invalid modifier in key '" ++ key ++ "': " ++ detail⟩

/-- The catalog has no such bucket. -/
def unknownBucket (bucket : String) : StructuralError :=
  ⟨.unknownBucket, none, "unknown bucket '" ++ bucket ++ "'"⟩

/-- The bucket does not declare such a field. -/
def unknownField (bucket field : String) : StructuralError :=
  ⟨.unknownField, none, "unknown field '" ++ field ++ "' on bucket '" ++ bucket ++ "'"⟩

/-- A group key or its value is malformed. -/
def malformedGroup (key detail : String) : StructuralError :=
  ⟨.malformedGroup, some key, "malformed boolean group '" ++ key ++ "': " ++ detail⟩

/-- A reference or sub-query marker is malformed. -/
def malformedMarker (key detail : String) : StructuralError :=
  ⟨.malformedMarker, some key, "malformed value marker for '" ++ key ++ "': " ++ detail⟩

/-- An operator cannot take the literal it is given. -/
def invalidValue (key detail : String) : StructuralError :=
  ⟨.invalidValue, some key, "invalid value for '" ++ key ++ "': " ++ detail⟩

/-- A key has no field path at all. -/
def emptyFieldPath (key : String) : StructuralError :=
  ⟨.emptyFieldPath, some key, "key '" ++ key ++ "' has no field path"⟩

/-- A compile limit is exceeded. -/
def limitExceeded (detail : String) : StructuralError := ⟨.limitExceeded, none, detail⟩

/-- A query with parameter references came without parameter rows. -/
def missingParams (bucket : String) : StructuralError :=
  ⟨.missingParams, none,
    "query on '" ++ bucket ++ "' references parameters but none were supplied"⟩

/-- The parts of a query wait for each other. -/
def cyclicPlan (bucket : String) : StructuralError :=
  ⟨.cyclicPlan, none, "part dependencies of '" ++ bucket ++ "' form a cycle"⟩

end StructuralError

/-- Why the engine returned no result. -/
inductive ExecutionError where
  | structural (error : StructuralError)
  | unresolvedScope (part : Nat) (bucket detail : String)
  | backend (bucket scope source : String)
  | cancelled
  | request (error : RequestError)
deriving DecidableEq

/-- The text of an execution error. -/
def ExecutionError.message : ExecutionError → String
  | .structural error => "structural query error: " ++ error.message
  | .unresolvedScope part bucket detail =>
      "unresolved scope in part " ++ Nat.repr part ++ " of bucket '" ++ bucket ++ "': "
        ++ detail
  | .backend bucket scope source =>
      "backend error in bucket '" ++ bucket ++ "' (scope '" ++ scope ++ "'): " ++ source
  | .cancelled => "query execution cancelled"
  | .request error => "protocol error: " ++ error.message

end FederatedQuery
