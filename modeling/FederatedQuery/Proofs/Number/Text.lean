import FederatedQuery.Number
import FederatedQuery.Proofs.Number.Shortest
import Mathlib.Data.List.TakeWhile

/-! Different numbers have different texts. A text of a float can be read back: whether its digits
are written plainly or with an exponent, they stand for its shortest decimal. A text of an integer is
no text of a float, since it has neither a point nor an exponent.
-/

namespace FederatedQuery.Number

open Nat (ofDigitChars toDigits)

-----------------------------------------------------------------------------------------
-- Reading a text
-----------------------------------------------------------------------------------------

/-- What is in front of the first mark, and what is behind it. -/
def cut (mark : Char) (chars : List Char) : List Char × List Char :=
  (chars.takeWhile (· ≠ mark), (chars.dropWhile (· ≠ mark)).tail)

/-- What digits with or without a point among them stand for. -/
def readMantissa (chars : List Char) : ℚ :=
  ofDigitChars 10 ((cut '.' chars).1 ++ (cut '.' chars).2) 0
    * 10 ^ (-((cut '.' chars).2.length : Int))

/-- The exponent that digits behind a sign stand for, and zero where nothing is written. -/
def readExponent : List Char → Int
  | [] => 0
  | sign :: digits =>
      if sign = '-' then -(ofDigitChars 10 digits 0 : Int) else ofDigitChars 10 digits 0

/-- What the text of a number without its sign stands for. -/
def read (chars : List Char) : ℚ :=
  readMantissa (cut 'e' chars).1 * 10 ^ readExponent (cut 'e' chars).2

theorem decide_ne_of_not_mem {mark : Char} {chars : List Char} (unmarked : mark ∉ chars)
    : ∀ char ∈ chars, decide (char ≠ mark) = true :=
  fun _ inside => decide_eq_true fun same => unmarked (same ▸ inside)

theorem cut_append {mark : Char} {front : List Char} (unmarked : mark ∉ front)
    (behind : List Char)
    : cut mark (front ++ mark :: behind) = (front, behind) := by
  have differ := decide_ne_of_not_mem unmarked
  rw [cut, List.takeWhile_append_of_pos differ, List.dropWhile_append_of_pos differ]
  simp

theorem cut_of_not_mem {mark : Char} {chars : List Char} (unmarked : mark ∉ chars)
    : cut mark chars = (chars, []) := by
  have differ := decide_ne_of_not_mem unmarked
  rw [cut, List.takeWhile_eq_self_iff.mpr differ, List.dropWhile_eq_nil_iff.mpr differ,
    List.tail_nil]

/-- The characters are decimal digits. -/
def AreDigits (chars : List Char) : Prop := ∀ char ∈ chars, char.isDigit = true

theorem AreDigits.not_mem {chars : List Char} (digits : AreDigits chars) {mark : Char}
    (other : mark.isDigit = false)
    : mark ∉ chars :=
  fun inside => Bool.false_ne_true (other.symm.trans (digits mark inside))

theorem areDigits_append {front behind : List Char}
    : AreDigits (front ++ behind) ↔ AreDigits front ∧ AreDigits behind := List.forall_mem_append

theorem areDigits_toDigits (n : Nat) : AreDigits (toDigits 10 n) :=
  fun _ inside => Nat.isDigit_of_mem_toDigits (by decide) (by decide) inside

theorem areDigits_zeros (count : Nat) : AreDigits (List.replicate count '0') :=
  fun _ inside => List.eq_of_mem_replicate inside ▸ rfl

theorem readMantissa_point {whole fraction : List Char} (digits : AreDigits (whole ++ fraction))
    : readMantissa (whole ++ '.' :: fraction)
      = ofDigitChars 10 (whole ++ fraction) 0 * 10 ^ (-(fraction.length : Int)) := by
  rw [readMantissa, cut_append ((areDigits_append.mp digits).1.not_mem rfl)]

theorem readMantissa_whole {whole : List Char} (digits : AreDigits whole)
    : readMantissa whole = ofDigitChars 10 whole 0 := by
  rw [readMantissa, cut_of_not_mem (digits.not_mem rfl)]
  simp

-----------------------------------------------------------------------------------------
-- Texts of decimals
-----------------------------------------------------------------------------------------

/-- The first of the characters is a digit, and so no sign. -/
def StartsWithDigit (chars : List Char) : Prop :=
  ∃ first rest, chars = first :: rest ∧ first.isDigit = true

theorem startsWithDigit_toDigits (n : Nat) : StartsWithDigit (toDigits 10 n) := by
  obtain ⟨first, rest, split⟩ := List.exists_cons_of_length_pos (Nat.length_toDigits_pos (b := 10))
  exact ⟨first, rest, split, areDigits_toDigits n first (by simp [split])⟩

theorem StartsWithDigit.append {chars : List Char} (starts : StartsWithDigit chars)
    (behind : List Char)
    : StartsWithDigit (chars ++ behind) := by
  obtain ⟨first, rest, rfl, isDigit⟩ := starts
  exact ⟨first, rest ++ behind, rfl, isDigit⟩

theorem StartsWithDigit.ne_sign {chars : List Char} (starts : StartsWithDigit chars)
    (behind : List Char)
    : chars ≠ '-' :: behind := by
  obtain ⟨first, rest, rfl, isDigit⟩ := starts
  rintro ⟨rfl, _⟩
  cases isDigit

/-- The text starts with a digit, has a point or an exponent, and stands for the rational. -/
structure Spells (chars : List Char) (q : ℚ) : Prop where
  digit : StartsWithDigit chars
  marked : '.' ∈ chars ∨ 'e' ∈ chars
  reads : read chars = q

/-- Digits around a point stand for a decimal with as many fractional digits. -/
theorem spells_point {whole fraction : List Char} (nonempty : whole ≠ [])
    (digits : AreDigits (whole ++ fraction)) {n : Nat}
    (value : ofDigitChars 10 (whole ++ fraction) 0 = n)
    : Spells (whole ++ '.' :: fraction) (n * 10 ^ (-(fraction.length : Int))) where
  digit := by
    obtain ⟨first, rest, rfl⟩ := List.exists_cons_of_ne_nil nonempty
    exact ⟨first, _, rfl, digits first (by simp)⟩
  marked := Or.inl (by simp)
  reads := by
    have parts := areDigits_append.mp digits
    have unmarked : 'e' ∉ whole ++ '.' :: fraction := by
      rw [List.mem_append, List.mem_cons]
      rintro (front | same | back)
      · exact parts.1.not_mem rfl front
      · cases same
      · exact parts.2.not_mem rfl back
    rw [read, cut_of_not_mem unmarked, readMantissa_point digits, readExponent, zpow_zero,
      mul_one, value]

section

variable (n count : Nat)

/-- All digits and some zeros are in front of the point. -/
theorem spells_zeros_behind
    : Spells (toDigits 10 n ++ List.replicate count '0' ++ ['.', '0']) (n * 10 ^ (count : Int)) := by
  have digits : AreDigits (toDigits 10 n ++ List.replicate count '0' ++ ['0']) :=
    areDigits_append.mpr
      ⟨areDigits_append.mpr ⟨areDigits_toDigits n, areDigits_zeros count⟩, areDigits_zeros 1⟩
  have value : ofDigitChars 10 (toDigits 10 n ++ List.replicate count '0' ++ ['0']) 0
      = n * 10 ^ count * 10 := by
    rw [Nat.ofDigitChars_append, Nat.ofDigitChars_append, Nat.ofDigitChars_ten_toDigits,
      Nat.ofDigitChars_replicate_zero, Nat.ofDigitChars_cons, Nat.ofDigitChars_nil]
    simp [Nat.mul_comm]
  have spelled := spells_point (by simp) digits value
  rw [List.length_singleton] at spelled
  push_cast at spelled
  rw [mul_assoc _ 10, ← zpow_one_add₀ (by norm_num), add_neg_cancel, zpow_zero, mul_one,
    ← zpow_natCast] at spelled
  exact spelled

/-- The point is behind some of the digits. -/
theorem spells_point_between (inside : count < (toDigits 10 n).length)
    : Spells ((toDigits 10 n).take (count + 1) ++ '.' :: (toDigits 10 n).drop (count + 1))
        (n * 10 ^ (count + 1 - (toDigits 10 n).length : Int)) := by
  have nonempty : (toDigits 10 n).take (count + 1) ≠ [] := by simp
  have digits
      : AreDigits ((toDigits 10 n).take (count + 1) ++ (toDigits 10 n).drop (count + 1)) := by
    rw [List.take_append_drop]
    exact areDigits_toDigits n
  have value
      : ofDigitChars 10 ((toDigits 10 n).take (count + 1) ++ (toDigits 10 n).drop (count + 1)) 0
        = n := by
    rw [List.take_append_drop, Nat.ofDigitChars_ten_toDigits]
  have spelled := spells_point nonempty digits value
  rw [List.length_drop, Nat.cast_sub inside, neg_sub] at spelled
  exact_mod_cast spelled

/-- Zeros are between the point and the digits. -/
theorem spells_zeros_before
    : Spells ('0' :: '.' :: (List.replicate count '0' ++ toDigits 10 n))
        (n * 10 ^ (-(count + (toDigits 10 n).length) : Int)) := by
  have digits : AreDigits (['0'] ++ (List.replicate count '0' ++ toDigits 10 n)) :=
    areDigits_append.mpr
      ⟨areDigits_zeros 1, areDigits_append.mpr ⟨areDigits_zeros count, areDigits_toDigits n⟩⟩
  have value : ofDigitChars 10 (['0'] ++ (List.replicate count '0' ++ toDigits 10 n)) 0 = n := by
    rw [Nat.ofDigitChars_append, Nat.ofDigitChars_append, Nat.ofDigitChars_cons,
      Nat.ofDigitChars_nil, Nat.ofDigitChars_replicate_zero]
    simp
  have spelled := spells_point (List.cons_ne_nil _ _) digits value
  rw [List.length_append, List.length_replicate] at spelled
  exact_mod_cast spelled

end

/-- A text without an exponent stands for the decimal, wherever the point is. -/
theorem spells_plainText (d : Decimal) : Spells (plainText d).toList d.value := by
  have leading : d.leading = d.power + (toDigits 10 d.digits).length - 1 := rfl
  rw [plainText, Decimal.value]
  split
  · next whole =>
    have spelled := spells_zeros_behind d.digits d.power.toNat
    rw [Int.toNat_of_nonneg whole] at spelled
    simpa using spelled
  · next fractional =>
    split
    · next atLeastOne =>
      have spelled := spells_point_between d.digits d.leading.toNat (by omega)
      have places : (d.leading.toNat + 1 - (toDigits 10 d.digits).length : Int) = d.power := by
        omega
      rw [places] at spelled
      simpa using spelled
    · next lessThanOne =>
      have spelled := spells_zeros_before d.digits ((-d.leading).toNat - 1)
      have places : -(((-d.leading).toNat - 1 : Nat) + (toDigits 10 d.digits).length : Int)
          = d.power := by omega
      rw [places] at spelled
      simpa using spelled

/-- What is written behind the exponent mark reads as the exponent. -/
theorem readExponent_sign (exponent : Int)
    : readExponent
        ((if 0 ≤ exponent then "+" else "-").toList ++ toDigits 10 exponent.natAbs)
      = exponent := by
  split
  · next positive => simpa [readExponent] using positive
  · next negative => simp [readExponent, abs_of_neg (not_le.mp negative)]

/-- A mantissa is scaled by the exponent that is written behind it. -/
theorem spells_scaled {mantissa : List Char} {q : ℚ} (exponent : Int)
    (digit : StartsWithDigit mantissa) (unmarked : 'e' ∉ mantissa) (reads : readMantissa mantissa = q)
    : Spells
        (mantissa
          ++ 'e' :: ((if 0 ≤ exponent then "+" else "-").toList ++ toDigits 10 exponent.natAbs))
        (q * 10 ^ exponent) where
  digit := digit.append _
  marked := Or.inr (by simp)
  reads := by rw [read, cut_append unmarked, readExponent_sign, reads]

/-- A text with an exponent stands for the decimal. It has a point behind its first digit, unless
that is the only one.
-/
theorem spells_exponentText (d : Decimal) : Spells (exponentText d).toList d.value := by
  have digits := areDigits_toDigits d.digits
  have value : ofDigitChars 10 (toDigits 10 d.digits) 0 = d.digits :=
    Nat.ofDigitChars_ten_toDigits
  have leading : d.leading = d.power + (toDigits 10 d.digits).length - 1 := rfl
  have written : (Nat.repr d.digits).toList = toDigits 10 d.digits := Nat.toList_repr
  obtain ⟨first, rest, split, isDigit⟩ := startsWithDigit_toDigits d.digits
  rw [split] at digits value leading written
  cases rest with
  | nil =>
      have spelled := spells_scaled d.leading ⟨first, _, rfl, isDigit⟩ (digits.not_mem rfl)
        (readMantissa_whole digits)
      rw [value] at spelled
      simpa [exponentText, written, Decimal.value, leading] using spelled
  | cons second others =>
      have reads : readMantissa (first :: '.' :: second :: others) = _ :=
        readMantissa_point (show AreDigits ([first] ++ second :: others) from digits)
      have unmarked : 'e' ∉ first :: '.' :: second :: others := by
        have absent : 'e' ∉ first :: second :: others := digits.not_mem rfl
        simpa using absent
      have spelled := spells_scaled d.leading ⟨first, _, rfl, isDigit⟩ unmarked reads
      rw [List.singleton_append, value, mul_assoc, ← zpow_add₀ (by norm_num)] at spelled
      have power : -((second :: others).length : Int) + d.leading = d.power := by
        rw [leading, List.length_cons (a := first)]
        omega
      rw [power] at spelled
      simpa [exponentText, written, Decimal.value] using spelled

-----------------------------------------------------------------------------------------
-- Texts of numbers
-----------------------------------------------------------------------------------------

/-- A sign that is written in front of texts of different numbers makes no two of them the same. -/
theorem sign_append_inj {negative negative' : Bool} {text text' : String}
    (digit : StartsWithDigit text.toList) (digit' : StartsWithDigit text'.toList)
    (same
      : (if negative then "-" else "") ++ text = (if negative' then "-" else "") ++ text')
    : negative = negative' ∧ text = text' := by
  have chars := congrArg String.toList same
  cases negative with
  | false =>
      cases negative' with
      | false => exact ⟨rfl, by simpa using same⟩
      | true => exact absurd (by simpa using chars) (digit.ne_sign _)
  | true =>
      cases negative' with
      | false => exact absurd (by simpa using chars.symm) (digit'.ne_sign _)
      | true => exact ⟨rfl, by simpa using same⟩

/-- The text of an integer is its digits behind a sign if it is negative. -/
theorem intText_eq (n : Int)
    : intText n = (if decide (n < 0) then "-" else "") ++ Nat.repr n.natAbs := by
  rw [intText]
  split <;> simp [*]

theorem intText_injective : Function.Injective intText := by
  intro m n same
  rw [intText_eq, intText_eq] at same
  obtain ⟨signs, digits⟩ := sign_append_inj
    (by rw [Nat.toList_repr]; exact startsWithDigit_toDigits _)
    (by rw [Nat.toList_repr]; exact startsWithDigit_toDigits _) same
  have chars := congrArg String.toList digits
  rw [Nat.toList_repr, Nat.toList_repr] at chars
  have magnitudes := congrArg (ofDigitChars 10 · 0) chars
  simp only [Nat.ofDigitChars_ten_toDigits] at magnitudes
  rw [decide_eq_decide] at signs
  omega

/-- The text of a float without its sign. -/
def unsignedText (x : Binary64) : String :=
  if x.mantissa = 0 then "0.0"
  else
    let d := shortest x
    if plainRange.least ≤ d.leading ∧ d.leading ≤ plainRange.greatest then plainText d
    else exponentText d

theorem binary64Text_eq (x : Binary64)
    : binary64Text x = (if x.negative then "-" else "") ++ unsignedText x := by
  rw [binary64Text, unsignedText]
  split <;> rfl

/-- The text of a float stands for zero or for the shortest decimal of the float. -/
theorem spells_unsignedText (x : Binary64)
    : Spells (unsignedText x).toList (if x.mantissa = 0 then 0 else (shortest x).value) := by
  rw [unsignedText]
  split
  · simpa using spells_zeros_behind 0 0
  · simp only
    split
    · exact spells_plainText _
    · exact spells_exponentText _

/-- Floats whose texts stand for the same rational have the same magnitude. -/
theorem eq_of_unsignedText {x y : Binary64} (same : unsignedText x = unsignedText y)
    : x.exponent = y.exponent ∧ x.mantissa = y.mantissa := by
  have values := (spells_unsignedText x).reads
  rw [same, (spells_unsignedText y).reads] at values
  split at values
  · next zero =>
    split at values
    · next zero' =>
      exact ⟨(Binary64.exponent_eq_zero zero').trans (Binary64.exponent_eq_zero zero).symm,
        zero'.trans zero.symm⟩
    · next positive => exact absurd values (value_shortest_pos (Nat.pos_of_ne_zero positive)).ne
  · next positive' =>
    split at values
    · exact absurd values (value_shortest_pos (Nat.pos_of_ne_zero positive')).ne'
    · next positive =>
      exact eq_of_value_shortest (Nat.pos_of_ne_zero positive) (Nat.pos_of_ne_zero positive')
        values.symm

/-- Two floats of one text are the same down to the sign of zero. -/
theorem binary64Text_injective : Function.Injective binary64Text := by
  intro x y same
  rw [binary64Text_eq, binary64Text_eq] at same
  obtain ⟨signs, magnitudes⟩ :=
    sign_append_inj (spells_unsignedText x).digit (spells_unsignedText y).digit same
  exact Binary64.ext_of_eq signs (eq_of_unsignedText magnitudes)

/-- The text of an integer has neither of the marks of which the text of a float has one. -/
theorem intText_ne_binary64Text (n : Int) (x : Binary64) : intText n ≠ binary64Text x := by
  intro same
  have absent : ∀ mark, mark.isDigit = false → mark ≠ '-' → mark ∉ (intText n).toList := by
    intro mark other noSign
    have digits := (areDigits_toDigits n.natAbs).not_mem other
    rw [intText_eq]
    split <;> simp [digits, noSign]
  rw [same, binary64Text_eq, String.toList_append] at absent
  rcases (spells_unsignedText x).marked with point | exponent
  · exact absent '.' rfl (by decide) (List.mem_append_right _ point)
  · exact absent 'e' rfl (by decide) (List.mem_append_right _ exponent)

/-- Numbers of one text are the same number. -/
theorem text_injective : Function.Injective text := by
  intro a b same
  cases a with
  | int m fits =>
      cases b with
      | int n fits' =>
          obtain rfl := intText_injective same
          rfl
      | float y => exact absurd same (intText_ne_binary64Text m y)
  | float x =>
      cases b with
      | int n fits' => exact absurd same.symm (intText_ne_binary64Text n x)
      | float y => exact congrArg float (binary64Text_injective same)

end FederatedQuery.Number
