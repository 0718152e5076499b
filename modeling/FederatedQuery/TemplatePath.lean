import FederatedQuery.Query
import FederatedQuery.Text.Digits
import FederatedQuery.Text.Split

/-! Template paths: paths with placeholder segments `$N` that stand for the entries of a
template.
-/

namespace FederatedQuery.TemplatePath

/-- The number of a placeholder segment: a dollar sign and digits, and nothing else. -/
def placeholder? (segment : String) : Option Nat :=
  match segment.toList with
  | '$' :: digits => Text.word? digits
  | _ => none

/-- The path has at least one placeholder. -/
def hasPlaceholder (path : String) : Bool :=
  (Text.split '.' path).any fun segment => (placeholder? segment).isSome

/-- What stands for a segment: the template's entry for a placeholder, if the template is
long enough, and the segment itself otherwise.
-/
def substitute (template : Template) (segment : String) : Option String :=
  match placeholder? segment with
  | some index => template[index]?
  | none => some segment

/-- The path with its placeholders replaced. There is none when a placeholder points past
the end of the template.
-/
def resolve (path : String) (template : Template) : Option String :=
  ((Text.split '.' path).mapM (substitute template)).map (String.intercalate ".")

end FederatedQuery.TemplatePath
