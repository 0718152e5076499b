import FederatedQuery.Text.CharSet
import FederatedQuery.Text.Split

/-! Blank characters, and the texts that remain when blanks are dropped from an end or used
as separators. Blank means the Unicode property White_Space.
-/

namespace FederatedQuery.Text

/-- The characters with the property White_Space. -/
def blanks : CharSet :=
  ⟨[9, 14, 32, 33, 133, 134, 160, 161, 5760, 5761, 8192, 8203, 8232, 8234, 8239, 8240,
    8287, 8288, 12288, 12289]⟩

/-- The character is blank. -/
def isBlank (c : Char) : Bool := blanks.contains c

/-- The text without its leading blanks. -/
def trimStart (text : List Char) : List Char := text.dropWhile isBlank

/-- The text without its leading and trailing blanks. -/
def trim (text : List Char) : List Char :=
  ((text.dropWhile isBlank).reverse.dropWhile isBlank).reverse

/-- The maximal runs of characters that are not blank. -/
def words (text : List Char) : List (List Char) :=
  (cutAt isBlank text).filter fun piece => !piece.isEmpty

/-- A word is not empty, because empty pieces are filtered out. -/
theorem ne_nil_of_mem_words {text word : List Char} (member : word ∈ words text)
    : word ≠ [] := by
  have := (List.mem_filter.mp member).2
  simpa using this

/-- A word holds no blank, because it is a piece between blanks. -/
theorem not_isBlank_of_mem_words {text word : List Char} (member : word ∈ words text)
    {c : Char} (inside : c ∈ word)
    : isBlank c = false :=
  not_separates_of_mem_cutAt (List.mem_filter.mp member).1 inside

end FederatedQuery.Text
