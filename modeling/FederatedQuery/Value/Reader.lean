import FederatedQuery.Text.Digits
import FederatedQuery.Value

/-! Reading JSON text. A number without point and exponent that fits in a word is an integer,
every other number the nearest float; the last value of a repeated key counts, at the place of
the first.
-/

namespace FederatedQuery.Value

/-- The rest of a text after blanks. JSON has four of them. -/
def skipBlanks (text : List Char) : List Char :=
  text.dropWhile fun c => c = ' ' || c = '\t' || c = '\n' || c = '\r'

/-- The value of a hexadecimal digit. -/
def hexValue? (c : Char) : Option Nat :=
  if '0' ≤ c ∧ c ≤ '9' then some (c.toNat - 48)
  else if 'a' ≤ c ∧ c ≤ 'f' then some (c.toNat - 87)
  else if 'A' ≤ c ∧ c ≤ 'F' then some (c.toNat - 55)
  else none

/-- The code unit that four hexadecimal digits stand for, and the rest of the text. -/
def readUnit? : List Char → Option (Nat × List Char)
  | a :: b :: c :: d :: rest => do
      let a ← hexValue? a
      let b ← hexValue? b
      let c ← hexValue? c
      let d ← hexValue? d
      return (((a * 16 + b) * 16 + c) * 16 + d, rest)
  | _ => none

/-- The character that an escape after `\u` stands for. A high surrogate needs the escape of
a low one right behind it.
-/
def readEscapedUnit? (text : List Char) : Option (Char × List Char) := do
  let (unit, rest) ← readUnit? text
  if unit < 0xD800 ∨ 0xDFFF < unit then return (Char.ofNat unit, rest)
  else if 0xDBFF < unit then none
  else
    match rest with
    | '\\' :: 'u' :: more =>
        let (low, rest) ← readUnit? more
        if 0xDC00 ≤ low ∧ low ≤ 0xDFFF then
          return (Char.ofNat (0x10000 + (unit - 0xD800) * 0x400 + (low - 0xDC00)), rest)
        else none
    | _ => none

/-- The character behind a backslash, and the rest of the text. -/
def readEscape? : List Char → Option (Char × List Char)
  | '"' :: rest => some ('"', rest)
  | '\\' :: rest => some ('\\', rest)
  | '/' :: rest => some ('/', rest)
  | 'b' :: rest => some (Char.ofNat 8, rest)
  | 'f' :: rest => some (Char.ofNat 12, rest)
  | 'n' :: rest => some ('\n', rest)
  | 'r' :: rest => some ('\r', rest)
  | 't' :: rest => some ('\t', rest)
  | 'u' :: rest => readEscapedUnit? rest
  | _ => none

/-- The string up to the closing quote, after the characters read so far, last one first. -/
def readString? : Nat → List Char → List Char → Option (String × List Char)
  | 0, _, _ => none
  | _ + 1, _, [] => none
  | fuel + 1, done, c :: rest =>
      if c = '"' then some (String.ofList done.reverse, rest)
      else if c = '\\' then do
        let (c, rest) ← readEscape? rest
        readString? fuel (c :: done) rest
      else if c.toNat < 32 then none
      else readString? fuel (c :: done) rest

/-- The digits at the start of a text, and the rest of it. -/
def readDigits (text : List Char) : List Char × List Char :=
  (text.takeWhile Char.isDigit, text.dropWhile Char.isDigit)

/-- The exponent of a number: none written is none, a mark without digits is an error. -/
def readExponent? : List Char → Option (Option Int × List Char)
  | [] => some (none, [])
  | c :: rest =>
      if c = 'e' ∨ c = 'E' then
        let (negative, rest) :=
          match rest with
          | '-' :: rest => (true, rest)
          | '+' :: rest => (false, rest)
          | rest => (false, rest)
        let (digits, rest) := readDigits rest
        (Text.natural? digits).map fun n =>
          (some (if negative then -(n : Int) else n), rest)
      else some (none, c :: rest)

/-- The fraction of a number: the digits behind a point, of which there is one at least. -/
def readFraction? : List Char → Option (Option (List Char) × List Char)
  | '.' :: rest =>
      match readDigits rest with
      | ([], _) => none
      | (digits, rest) => some (some digits, rest)
  | rest => some (none, rest)

/-- A number from its written parts. -/
def numberOf? (negative : Bool) (whole : List Char) (fraction : Option (List Char))
    (exponent : Option Int) : Option Number :=
  let magnitude := Text.digitsFrom 0 whole
  let value : Int := if negative then -(magnitude : Int) else magnitude
  if h : fraction = none ∧ exponent = none ∧ FitsWord value ∧ ¬(negative ∧ magnitude = 0) then
    some (.int value h.2.2.1)
  else
    let fraction := fraction.getD []
    (Binary64.ofDecimal? negative (Text.digitsFrom magnitude fraction)
      (exponent.getD 0 - fraction.length)).map .float

/-- A number at the start of a text. No digit may follow a leading zero. -/
def readNumber? (text : List Char) : Option (Number × List Char) := do
  let (negative, text) :=
    match text with
    | '-' :: rest => (true, rest)
    | text => (false, text)
  let (whole, text) := readDigits text
  match whole with
  | [] => none
  | '0' :: _ :: _ => none
  | whole =>
      let (fraction, text) ← readFraction? text
      let (exponent, text) ← readExponent? text
      let number ← numberOf? negative whole fraction exponent
      return (number, text)

mutual

/-- A value at the start of a text, and the rest of the text. -/
def readValue? : Nat → List Char → Option (Value × List Char)
  | 0, _ => none
  | fuel + 1, text =>
      match skipBlanks text with
      | 'n' :: 'u' :: 'l' :: 'l' :: rest => some (.null, rest)
      | 't' :: 'r' :: 'u' :: 'e' :: rest => some (.bool true, rest)
      | 'f' :: 'a' :: 'l' :: 's' :: 'e' :: rest => some (.bool false, rest)
      | '"' :: rest =>
          (readString? fuel [] rest).map fun (s, rest) => (.string s, rest)
      | '[' :: rest =>
          match skipBlanks rest with
          | ']' :: rest => some (.array [], rest)
          | rest => (readItems? fuel rest).map fun (items, rest) => (.array items, rest)
      | '\x7b' :: rest =>
          match skipBlanks rest with
          | '\x7d' :: rest => some (.object [], rest)
          | rest =>
              (readEntries? fuel [] rest).map fun (entries, rest) => (.object entries, rest)
      | rest => (readNumber? rest).map fun (n, rest) => (.number n, rest)

/-- The items of an array from one item on, up to the closing bracket. -/
def readItems? : Nat → List Char → Option (List Value × List Char)
  | 0, _ => none
  | fuel + 1, text => do
      let (value, rest) ← readValue? fuel text
      match skipBlanks rest with
      | ',' :: rest =>
          let (items, rest) ← readItems? fuel rest
          return (value :: items, rest)
      | ']' :: rest => return ([value], rest)
      | _ => none

/-- The entries of an object from one key on, up to the closing brace, put behind those that
came before.
-/
def readEntries? : Nat → List (String × Value) → List Char →
    Option (List (String × Value) × List Char)
  | 0, _, _ => none
  | fuel + 1, done, text => do
      match skipBlanks text with
      | '"' :: rest =>
          let (key, rest) ← readString? fuel [] rest
          match skipBlanks rest with
          | ':' :: rest =>
              let (value, rest) ← readValue? fuel rest
              let done := Table.put done key value
              match skipBlanks rest with
              | ',' :: rest => readEntries? fuel done rest
              | '\x7d' :: rest => return (done, rest)
              | _ => none
          | _ => none
      | _ => none

end

/-- The value that a JSON text stands for. Nothing but blanks may follow it. -/
def ofText? (text : String) : Option Value := do
  let characters := text.toList
  let (value, rest) ← readValue? (2 * characters.length + 2) characters
  if (skipBlanks rest).isEmpty then return value else none

end FederatedQuery.Value
