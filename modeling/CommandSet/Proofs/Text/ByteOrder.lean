import Mathlib.Data.String.Basic

/-!
# The order of bytes

Texts are compared code point by code point.  UTF-8 keeps that order: of two characters the
greater one has the greater byte where their bytes first differ, so texts are compared in the
same way byte by byte.

Main definition:

- {lit}`bytes`: a text in UTF-8.

Main results:

- Theorem {lit}`encode_lt_encode`: the bytes of a smaller character are smaller.
- Theorem {lit}`bytes_lt_bytes`: texts are in the order of their bytes.
-/

namespace CommandSet
namespace Text

/-- The bytes of a text in UTF-8. -/
def bytes (text : String) : List UInt8 :=
  text.toUTF8.data.toList

/-- The bytes of a text are those of its characters. -/
theorem bytes_eq (text : String) : bytes text = text.toList.flatMap String.utf8EncodeChar := by
  have hlist : text.toUTF8 = (text.toList.flatMap String.utf8EncodeChar).toByteArray := by
    rw [String.toUTF8_eq_toByteArray, ← String.utf8Encode_toList, List.utf8Encode]
  rw [bytes, hlist, List.toList_data_toByteArray]

/-! ## Bytes of characters -/

theorem ofNat_lt_ofNat {m n : Nat} (hm : m < 256) (hn : n < 256) :
    UInt8.ofNat m < UInt8.ofNat n ↔ m < n := by
  rw [UInt8.lt_iff_toNat_lt, UInt8.toNat_ofNat', UInt8.toNat_ofNat']
  omega

theorem ofNat_eq_ofNat {m n : Nat} (hm : m < 256) (hn : n < 256) :
    UInt8.ofNat m = UInt8.ofNat n ↔ m = n := by
  rw [← UInt8.toNat_inj, UInt8.toNat_ofNat', UInt8.toNat_ofNat']
  omega

theorem code_lt (c : Char) : c.val.toNat < 0x110000 := by
  rcases c.valid with hlow | ⟨-, hhigh⟩
  · have hcode : c.val.toNat < 0xd800 := hlow
    omega
  · exact hhigh

/-- The smaller of two codes has the smaller digit where their digits to base 64 first
differ. -/
theorem digits_lt {m n : Nat} (h : m < n) :
    m / 262144 < n / 262144 ∨ m / 262144 = n / 262144 ∧
      (m / 4096 % 64 < n / 4096 % 64 ∨ m / 4096 % 64 = n / 4096 % 64 ∧
        (m / 64 % 64 < n / 64 % 64 ∨ m / 64 % 64 = n / 64 % 64 ∧ m % 64 < n % 64)) := by
  have hdigit {a b : Nat} (hlt : a < b) : a / 64 < b / 64 ∨ a / 64 = b / 64 ∧ a % 64 < b % 64 := by
    omega
  have hsecond (code : Nat) : code / 64 / 64 = code / 4096 := Nat.div_div_eq_div_mul code 64 64
  have hthird (code : Nat) : code / 4096 / 64 = code / 262144 := Nat.div_div_eq_div_mul code 4096 64
  rcases hdigit h with h | ⟨hsame, h⟩
  · rcases hdigit h with h | ⟨hsame, h⟩
    · rw [hsecond, hsecond] at h
      rcases hdigit h with h | ⟨hsame, h⟩
      · rw [hthird, hthird] at h
        exact .inl h
      · rw [hthird, hthird] at hsame
        exact .inr ⟨hsame, .inl h⟩
    · rw [hsecond, hsecond] at hsame
      have htop : m / 262144 = n / 262144 := by rw [← hthird, hsame, hthird]
      exact .inr ⟨htop, .inr ⟨by rw [hsame], .inl h⟩⟩
  · have hmiddle : m / 4096 = n / 4096 := by rw [← hsecond, hsame, hsecond]
    have htop : m / 262144 = n / 262144 := by rw [← hthird, hmiddle, hthird]
    exact .inr ⟨htop, .inr ⟨by rw [hmiddle], .inr ⟨by rw [hsame], h⟩⟩⟩

/-- The bytes of a smaller character are smaller, whatever stands behind them. -/
theorem encode_lt_encode {c d : Char} (h : c < d) (first second : List UInt8) :
    String.utf8EncodeChar c ++ first < String.utf8EncodeChar d ++ second := by
  have hcode : c.val.toNat < d.val.toNat := h
  have hdigits := digits_lt hcode
  have hlast := code_lt d
  unfold String.utf8EncodeChar
  generalize c.val.toNat = m at *
  generalize d.val.toNat = n at *
  have htop : m / 262144 % 8 = m / 262144 := by omega
  have htop' : n / 262144 % 8 = n / 262144 := by omega
  simp only
  -- characters of fewer bytes start with a smaller byte; those of as many differ in a digit
  split_ifs
  all_goals
    simp (disch := omega) only [List.cons_append, List.nil_append, List.cons_lt_cons_iff,
      ofNat_lt_ofNat, ofNat_eq_ofNat]
    omega

/-! ## Bytes of texts -/

theorem flatMap_encode_lt {first : List Char} : ∀ {second : List Char}, first < second →
    first.flatMap String.utf8EncodeChar < second.flatMap String.utf8EncodeChar := by
  induction first with
  | nil =>
      intro second h
      cases second with
      | nil => exact absurd h (List.lt_irrefl _)
      | cons d second =>
          rw [List.flatMap_nil, List.flatMap_cons]
          cases hbytes : String.utf8EncodeChar d with
          | nil => exact absurd hbytes String.utf8EncodeChar_ne_nil
          | cons byte rest => exact List.nil_lt_cons _ _
  | cons c first ih =>
      intro second h
      cases second with
      | nil => exact absurd h (List.not_lt_nil _)
      | cons d second =>
          rw [List.flatMap_cons, List.flatMap_cons]
          rcases List.cons_lt_cons_iff.mp h with hlt | ⟨rfl, hrest⟩
          · exact encode_lt_encode hlt _ _
          · exact List.append_left_lt (ih hrest)

/-- Texts are in the order of their bytes. -/
theorem bytes_lt_bytes {first second : String} : bytes first < bytes second ↔ first < second := by
  rw [bytes_eq, bytes_eq]
  constructor
  · intro h
    by_contra hnot
    rcases lt_or_eq_of_le (not_lt.mp hnot) with hlt | rfl
    · exact absurd (flatMap_encode_lt (String.lt_iff_toList_lt.mp hlt)) (List.lt_asymm h)
    · exact absurd h (List.lt_irrefl _)
  · intro h
    exact flatMap_encode_lt (String.lt_iff_toList_lt.mp h)

end Text
end CommandSet
