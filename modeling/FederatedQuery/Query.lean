import FederatedQuery.Error
import FederatedQuery.Pagination
import FederatedQuery.SortKey

/-! Queries and the requests that carry them. -/

namespace FederatedQuery

/-- A declarative query: what each field has to satisfy. The order of the entries counts. -/
structure Query where
  entries : Table String Value
deriving DecidableEq

namespace Query

/-- The query that everything satisfies. -/
def empty : Query := ⟨[]⟩

/-- The query with an entry added, or with the value of a known key replaced in its place. -/
def insert (query : Query) (key : String) (value : Value) : Query :=
  ⟨Table.put query.entries key value⟩

/-- Reads a query, which has to be an object. -/
def ofValue : Value → Except RequestError Query
  | .object entries => .ok ⟨entries⟩
  | value => .error (.invalidQuery ("expected an object, got " ++ value.kind))

/-- The query as a JSON object. -/
def toValue (query : Query) : Value := .object query.entries

end Query

/-- Candidate texts for the numbered placeholders of template references. -/
abbrev Template := List String

/-- A query addressed to a bucket, with everything needed to run it. -/
structure Request where
  bucket : String
  query : Query
  params : List ParamRow
  templates : List Template
  sort : List SortKey
  pagination : Option Pagination

namespace Request

/-- The request asks for one result per parameter row. -/
def isParameterized (request : Request) : Bool := !request.params.isEmpty

/-- Reads the record form. Only the bucket and the query have to be there. -/
def ofValue? (value : Value) : Option Request := do
  let fields ← value.fields? ["bucket", "query", "params", "templates", "sort", "pagination"]
  let bucket ← Value.required fields "bucket" Value.string?
  let entries ← Value.required fields "query" Value.object?
  let params ← Value.optional fields "params" [] Value.array?
  let templates ← Value.optional fields "templates" [] (Value.listOf? (Value.listOf? Value.string?))
  let sort ← Value.optional fields "sort" [] (Value.listOf? SortKey.ofValue?)
  let pagination ← Value.optional fields "pagination" none Pagination.ofNullable?
  return ⟨bucket, ⟨entries⟩, params, templates, sort, pagination⟩

/-- The record form. -/
def toValue (request : Request) : Value :=
  .object
    [
      ("bucket", .string request.bucket),
      ("query", request.query.toValue),
      ("params", .array request.params),
      ("templates",
        .array (request.templates.map fun template => .array (template.map .string))),
      ("sort", .array (request.sort.map SortKey.toValue)),
      ("pagination", (request.pagination.map Pagination.toValue).getD .null)
    ]

end Request

end FederatedQuery
