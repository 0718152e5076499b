import FederatedQuery.Error
import FederatedQuery.Number
import FederatedQuery.Value.Record

/-! Offset pagination of a list of rows. -/

namespace FederatedQuery

/-- A page size and the number of rows to skip. A size of -1 asks for all rows, a size of 0
for none.
-/
structure Pagination where
  perPage : Int
  offset : Nat
deriving DecidableEq

namespace Pagination

/-- Every row. -/
def all : Pagination := ⟨-1, 0⟩

/-- The page with a number, counted from 1; number 0 is read as 1. An offset that is too
large stops at the greatest word. Sizes that are not positive start at the first row.
-/
def page (number : Nat) (perPage : Int) : Pagination :=
  if 0 < perPage then ⟨perPage, min ((number - 1) * perPage.toNat) Word.greatest⟩
  else ⟨perPage, 0⟩

/-- The greatest number of rows on a page, if there is one. -/
def limit (pagination : Pagination) : Option Nat :=
  if pagination.perPage < 0 then none else some pagination.perPage.toNat

/-- Sizes below -1 are an error. -/
def validate (pagination : Pagination) : Except RequestError Unit :=
  if pagination.perPage < -1 then
    .error (.invalidPagination
      ("per_page must be -1 or greater, got " ++ Number.intText pagination.perPage))
  else .ok ()

/-- Reads the record form. -/
def ofValue? (value : Value) : Option Pagination := do
  let fields ← value.fields? ["per_page", "offset"]
  let perPage ← Value.required fields "per_page" Value.signedWord?
  let offset ← Value.required fields "offset" Value.word?
  return ⟨perPage, offset⟩

/-- Reads the record form, with null for no pagination. -/
def ofNullable? : Value → Option (Option Pagination)
  | .null => some none
  | value => (ofValue? value).map some

/-- The record form. -/
def toValue (pagination : Pagination) : Value :=
  .object [("per_page", .ofInt pagination.perPage), ("offset", .ofNat pagination.offset)]

end Pagination

end FederatedQuery
