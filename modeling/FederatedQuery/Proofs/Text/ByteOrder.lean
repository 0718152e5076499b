import Mathlib.Order.Basic

/-! The order of texts by their code points is the order of their bytes in UTF-8. -/

namespace FederatedQuery

/-- The bytes of a text in UTF-8. -/
def utf8Bytes (text : String) : List UInt8 := text.toUTF8.data.toList

theorem utf8Bytes_eq (text : String)
    : utf8Bytes text = text.toList.flatMap String.utf8EncodeChar := by
  obtain ⟨characters, rfl⟩ : ∃ characters, text = String.ofList characters :=
    ⟨text.toList, String.ofList_toList.symm⟩
  rw [utf8Bytes, String.toUTF8_eq_toByteArray, String.toByteArray_ofList, List.utf8Encode,
    List.data_toByteArray, String.toList_ofList]

theorem cons_ofNat_lt_iff {m n : Nat} (m_lt : m < 256) (n_lt : n < 256)
    (first second : List UInt8)
    : UInt8.ofNat m :: first < UInt8.ofNat n :: second ↔ m < n ∨ m = n ∧ first < second := by
  rw [List.cons_lt_cons_iff, UInt8.lt_iff_toNat_lt, ← UInt8.toNat_inj, UInt8.toNat_ofNat',
    UInt8.toNat_ofNat', Nat.mod_eq_of_lt m_lt, Nat.mod_eq_of_lt n_lt]

/-- The bytes of a smaller code point come first, whatever follows them. A first byte tells how
many bytes there are and grows with their number, so that different numbers need no comparison of
later bytes; for equal numbers, the bytes are the digits of the code points.
-/
theorem utf8EncodeChar_append_lt {c d : Char} (below : c < d) (first second : List UInt8)
    : String.utf8EncodeChar c ++ first < String.utf8EncodeChar d ++ second := by
  have less : c.val.toNat < d.val.toNat := below
  have bound : d.val.toNat < 1114112 := by
    rcases d.valid with low | high
    · exact Nat.lt_trans low (by omega)
    · exact high.2
  simp only [String.utf8EncodeChar]
  generalize c.val.toNat = m at *
  generalize d.val.toNat = n at *
  -- Code points have no more digits than these.
  have m_lead : m / 262144 % 8 = m / 262144 := by omega
  have n_lead : n / 262144 % 8 = n / 262144 := by omega
  split_ifs <;>
    simp (disch := omega) only [List.cons_append, List.nil_append, cons_ofNat_lt_iff, m_lead,
      n_lead] <;>
    omega

/-- Texts ascend like their bytes, by induction on the characters that they share. -/
theorem flatMap_utf8EncodeChar_lt {first second : List Char} (below : first < second)
    : first.flatMap String.utf8EncodeChar < second.flatMap String.utf8EncodeChar := by
  induction first generalizing second with
  | nil =>
      cases second with
      | nil => exact absurd below (List.lt_irrefl _)
      | cons d others =>
          have some_bytes : String.utf8EncodeChar d ≠ [] := String.utf8EncodeChar_ne_nil
          obtain ⟨byte, more, encoded⟩ := List.exists_cons_of_ne_nil some_bytes
          rw [List.flatMap_cons, encoded]
          exact List.nil_lt_cons ..
  | cons c rest ih =>
      cases second with
      | nil => exact absurd below (List.not_lt_nil _)
      | cons d others =>
          rw [List.flatMap_cons, List.flatMap_cons]
          rcases List.cons_lt_cons_iff.mp below with less | ⟨rfl, later⟩
          · exact utf8EncodeChar_append_lt less _ _
          · exact List.append_left_lt (ih later)

theorem utf8Bytes_lt {first second : String} (below : first < second)
    : utf8Bytes first < utf8Bytes second := by
  rw [utf8Bytes_eq, utf8Bytes_eq]
  exact flatMap_utf8EncodeChar_lt below

/-- Comparing texts is comparing their bytes. -/
theorem utf8Bytes_lt_iff (first second : String)
    : utf8Bytes first < utf8Bytes second ↔ first < second := by
  constructor
  · intro below
    rcases Std.lt_trichotomy first second with less | same | greater
    · exact less
    · exact absurd below (same ▸ List.lt_irrefl _)
    · exact absurd below (List.lt_asymm (utf8Bytes_lt greater))
  · exact utf8Bytes_lt

end FederatedQuery
