import FederatedQuery.Text.Lowercase.Context
import FederatedQuery.Text.Lowercase.Mapping

/-! Lower case of whole texts. Two characters need more than their own mapping: a capital
sigma is written differently at the end of a word, and a dotted capital I keeps its dot as a
combining mark.
-/

namespace FederatedQuery.Text

/-- The nearest character that is not passed over has case. -/
def reachesCased (around : List Char) : Bool :=
  match around.dropWhile isCaseIgnorable with
  | [] => false
  | c :: _ => isCased c

/-- A sigma ends its word when a cased letter comes before it and none after it. The text
before is given backwards, nearest character first.
-/
def endsWord (before after : List Char) : Bool :=
  reachesCased before && !reachesCased after

/-- Lower case of a text whose earlier characters are given backwards. -/
def lowerFrom (before : List Char) : List Char → List Char
  | [] => []
  | c :: rest =>
      let written :=
        if c = 'Σ' then [if endsWord before rest then 'ς' else 'σ']
        else if c = 'İ' then ['i', '\u0307']
        else [lowerOne c]
      written ++ lowerFrom (c :: before) rest

/-- The text in lower case. -/
def lower (text : String) : String := String.ofList (lowerFrom [] text.toList)

end FederatedQuery.Text
