import CommandSet.Proofs.Schema.Reading
import Mathlib.Data.List.Induction
import Mathlib.Data.List.TakeWhile

/-!
# Numbers and names as tokens

Every spelling of a number reads as a numeral with its value, and a name reads as
itself.

Main results:

- Theorem {lit}`digitsValue_toDigits`: digits have the value they are written for.
- Theorem {lit}`readsToken_number`: spelled numbers are read with their value.
- Theorem {lit}`readsToken_ident`: names are read whole.
-/

namespace CommandSet
namespace Schema

/-! ## Values of digits -/

theorem digitsValue_append_singleton (base : Nat) (digits : List Char) (c : Char) :
    digitsValue base (digits ++ [c]) = base * digitsValue base digits + digitValue c := by
  simp [digitsValue]

/-- Leading zeros do not count. -/
theorem digitsValue_replicate_append (base zeros : Nat) (digits : List Char) :
    digitsValue base (List.replicate zeros '0' ++ digits) = digitsValue base digits := by
  induction zeros with
  | zero => rfl
  | succ zeros ih =>
      rw [← ih, List.replicate_succ, List.cons_append, digitsValue, List.foldl_cons]
      rfl

theorem digitValue_digitChar : ∀ d < 16, digitValue (Nat.digitChar d) = d := by
  decide

theorem isHexDigit_digitChar : ∀ d < 16, isHexDigit (Nat.digitChar d) = true := by
  decide

/-- Digits have the value they are written for, also if each is spelled in another way. -/
theorem digitsValue_map_toDigits {base : Nat} {spell : Char → Char} (hlow : 1 < base)
    (hspell : ∀ d < base, digitValue (spell (Nat.digitChar d)) = d) (n : Nat) :
    digitsValue base ((Nat.toDigits base n).map spell) = n := by
  induction n using Nat.strong_induction_on with
  | _ n ih =>
      rw [Nat.toDigits_eq_if hlow]
      split
      next hsmall => simp [digitsValue, hspell n hsmall]
      next hlarge =>
        have hlt : n / base < n := Nat.div_lt_self (by omega) hlow
        have hmod : n % base < base := Nat.mod_lt n (by omega)
        rw [List.map_append, List.map_singleton, digitsValue_append_singleton, ih _ hlt,
          hspell _ hmod]
        exact Nat.div_add_mod n base

/-- Digits have the value they are written for. -/
theorem digitsValue_toDigits {base : Nat} (hlow : 1 < base) (hhigh : base ≤ 16) (n : Nat) :
    digitsValue base (Nat.toDigits base n) = n := by
  have hvalue := @digitsValue_map_toDigits base id hlow
    (fun d hd => digitValue_digitChar d (by omega)) n
  rwa [List.map_id] at hvalue

/-- Numbers have the value they are shown with. -/
theorem digitsValue_toString (n : Nat) : digitsValue 10 (toString n).toList = n := by
  rw [Nat.toString_eq_repr, Nat.toList_repr]
  exact digitsValue_toDigits (by decide) (by decide) n

/-- What holds of all hexadecimal digits holds of those of a number. -/
theorem forall_mem_toDigits {P : Char → Prop} (h : ∀ d < 16, P (Nat.digitChar d)) (n : Nat) :
    ∀ c ∈ Nat.toDigits 16 n, P c := by
  induction n using Nat.strong_induction_on with
  | _ n ih =>
      rw [Nat.toDigits_eq_if (by decide)]
      split
      next hsmall => exact List.forall_mem_singleton.mpr (h n hsmall)
      next hlarge =>
        rw [List.forall_mem_append, List.forall_mem_singleton]
        exact ⟨ih (n / 16) (by omega), h _ (Nat.mod_lt n (by decide))⟩

/-- Hexadecimal numbers are written in hexadecimal digits. -/
theorem isHexDigit_of_mem_toDigits {n : Nat} {c : Char} (h : c ∈ Nat.toDigits 16 n) :
    isHexDigit c = true :=
  @forall_mem_toDigits (isHexDigit · = true) isHexDigit_digitChar n c h

/-- Capital letters are hexadecimal digits as the small ones are, with the same
value. -/
private theorem hexDigit_of_capital :
    ∀ n < 26, isHexDigit (Char.ofNat (65 + n)).toLower = true →
      isHexDigit (Char.ofNat (65 + n)) = true ∧
        digitValue (Char.ofNat (65 + n)) = digitValue (Char.ofNat (65 + n)).toLower := by
  decide

/-- The case of a hexadecimal digit does not count. -/
theorem hexDigit_of_toLower {c : Char} (h : isHexDigit c.toLower = true) :
    isHexDigit c = true ∧ digitValue c = digitValue c.toLower := by
  by_cases hcapital : 65 ≤ c.toNat ∧ c.toNat ≤ 90
  · have hc : Char.ofNat (65 + (c.toNat - 65)) = c := by
      rw [Nat.add_sub_cancel' hcapital.1, Char.ofNat_toNat]
    have hcase := hexDigit_of_capital (c.toNat - 65) (by omega)
    rw [hc] at hcase
    exact hcase h
  · have hlower : c.toLower = c := by
      unfold Char.toLower
      rw [dif_neg]
      simpa [UInt32.le_iff_toNat_le] using hcapital
    rw [hlower] at h ⊢
    exact ⟨h, rfl⟩

/-- Hexadecimal digits in either case have the value they are written for. -/
theorem digitsValue_map_toLower {digits : List Char}
    (h : ∀ c ∈ digits, isHexDigit c.toLower = true) :
    digitsValue 16 (digits.map Char.toLower) = digitsValue 16 digits := by
  induction digits using List.reverseRecOn with
  | nil => rfl
  | append_singleton digits c ih =>
      have hc := (hexDigit_of_toLower (h c (by simp))).2
      rw [List.map_append, List.map_singleton, digitsValue_append_singleton,
        digitsValue_append_singleton, ih fun d hd => h d (by simp [hd]), hc]

/-! ## Maximal tokens -/

/-- Characters of a class that layout does not start with are read to the end of the
token. -/
theorem takeWhile_token {p : Char → Bool} {token rest : List Char}
    (htoken : ∀ c ∈ token, p c = true) (hlayout : layoutStarts.any p = false) (hrest : Loose rest) :
    (token ++ rest).takeWhile p = token := by
  rw [List.takeWhile_append_of_pos htoken]
  cases rest with
  | nil => contradiction
  | cons c rest =>
      have hc := List.any_eq_false.mp hlayout c hrest
      simp [hc]

/-- A token of a class that layout does not start with is solid. -/
theorem solidToken_of_forall_mem {p : Char → Bool} {token : Token} (hne : token ≠ [])
    (htoken : ∀ c ∈ token, p c = true) (hlayout : layoutStarts.any p = false) :
    SolidToken token := by
  refine ⟨hne, ?_⟩
  cases token with
  | nil => contradiction
  | cons c token =>
      intro hstart
      have hc := htoken c List.mem_cons_self
      exact List.any_eq_false.mp hlayout c hstart hc

/-! ## Names -/

theorem isNameRest_eq_true_iff {c : Char} : Grammar.isNameRest c = true ↔ IsNameRest c :=
  isNameRest_iff

theorem isNameStart_eq_true_iff {c : Char} : Grammar.isNameStart c = true ↔ IsNameStart c :=
  isNameStart_iff

/-- Names are read whole. -/
theorem readsToken_ident {name : String} (h : IsName name) :
    ReadsToken Grammar.ident name.toList name := by
  intro rest hrest
  obtain ⟨first, others, hname, hfirst, hothers⟩ := h
  have hspan : (others ++ rest).takeWhile Grammar.isNameRest = others :=
    takeWhile_token (fun c hc => isNameRest_eq_true_iff.mpr (hothers c hc)) (by decide) hrest
  have hofList : String.ofList (first :: others) = name := by
    rw [← hname, String.ofList_toList]
  rw [hname]
  refine Reads.named _ (reads_plain (n := (first :: others).length) ?_ List.drop_left)
  simp [Grammar.nameAt, isNameStart_eq_true_iff.mpr hfirst, hspan, hofList]

theorem solidToken_name {name : String} (h : IsName name) : SolidToken name.toList :=
  solidToken_of_forall_mem h.toList_ne_nil
    (fun c hc => isNameRest_eq_true_iff.mpr (h.forall_mem c hc)) (by decide)

/-! ## Numbers -/

/-- Decimal digits are no beginning of a hexadecimal number. -/
private theorem hexAt_digits {digits rest : List Char} (hdigits : ∀ c ∈ digits, c.isDigit = true)
    (hne : digits ≠ []) (hrest : Loose rest) : Grammar.hexAt (digits ++ rest) = none := by
  have hmark : ∀ x tail, digits ++ rest = '0' :: x :: tail → (x == 'x' || x == 'X') = false := by
    intro x tail htext
    have hx : x.isDigit = true ∨ x ∈ layoutStarts := by
      match digits, hne with
      | [d], _ =>
          obtain ⟨-, rfl⟩ := List.cons.inj htext
          exact Or.inr hrest
      | d :: e :: digits, _ =>
          simp only [List.cons_append, List.cons.injEq] at htext
          obtain ⟨-, rfl, -⟩ := htext
          exact Or.inl (hdigits e (by simp))
    by_contra hmark
    simp only [Bool.not_eq_false, Bool.or_eq_true, beq_iff_eq] at hmark
    rcases hmark with rfl | rfl
    · exact absurd hx (by decide)
    · exact absurd hx (by decide)
  unfold Grammar.hexAt
  split
  next x tail htext => simp [hmark x tail htext]
  next => rfl

private theorem decAt_digits {digits rest : List Char} (hdigits : ∀ c ∈ digits, c.isDigit = true)
    (hne : digits ≠ []) (hrest : Loose rest) :
    Grammar.decAt (digits ++ rest) = some (.dec false digits) := by
  have hspan : (digits ++ rest).takeWhile Char.isDigit = digits :=
    takeWhile_token hdigits (by decide) hrest
  unfold Grammar.decAt
  split
  next tail htext =>
    obtain ⟨d, digits, rfl⟩ := List.exists_cons_of_ne_nil hne
    obtain ⟨rfl, -⟩ := List.cons.inj htext
    exact absurd (hdigits _ List.mem_cons_self) (by decide)
  next => simp [hspan, hne]

private theorem decAt_minus {digits rest : List Char} (hdigits : ∀ c ∈ digits, c.isDigit = true)
    (hne : digits ≠ []) (hrest : Loose rest) :
    Grammar.decAt ('-' :: (digits ++ rest)) = some (.dec true digits) := by
  have hspan : (digits ++ rest).takeWhile Char.isDigit = digits :=
    takeWhile_token hdigits (by decide) hrest
  simp [Grammar.decAt, hspan, hne]

private theorem hexAt_mark {mark : Char} {digits rest : List Char} (hmark : mark = 'x' ∨ mark = 'X')
    (hdigits : ∀ c ∈ digits, isHexDigit c = true) (hne : digits ≠ []) (hrest : Loose rest) :
    Grammar.hexAt ('0' :: mark :: (digits ++ rest)) = some (.hex (mark == 'X') digits) := by
  have hspan : (digits ++ rest).takeWhile isHexDigit = digits :=
    takeWhile_token hdigits (by decide) hrest
  rcases hmark with rfl | rfl <;> simp [Grammar.hexAt, hspan, hne]

/-- A form of numeral that is found at the head of a text is read off it. -/
private theorem reads_numeral {formAt : List Char → Option Numeral} {token rest : List Char}
    {numeral : Numeral} (hform : formAt (token ++ rest) = some numeral)
    (htoken : numeral.chars = token) :
    Reads (Grammar.numeral formAt) (token ++ rest) numeral rest := by
  refine reads_plain (n := numeral.chars.length) ?_ ?_
  · simp [hform]
  · rw [htoken]
    exact List.drop_left

/-- The digits of a decimal number with leading zeros. -/
private theorem isDigit_of_mem_decimal (n zeros : Nat) {c : Char}
    (h : c ∈ List.replicate zeros '0' ++ Nat.toDigits 10 n) : c.isDigit = true := by
  rcases List.mem_append.mp h with hzero | hdigit
  · rw [List.eq_of_mem_replicate hzero]
    rfl
  · exact Nat.isDigit_of_mem_toDigits (by decide) (by decide) hdigit

private theorem decimal_ne_nil (n zeros base : Nat) :
    List.replicate zeros '0' ++ Nat.toDigits base n ≠ [] := by
  simp [Nat.toDigits_ne_nil]

theorem NumberToken.solidToken {n : Int} {token : Token} (h : NumberToken n token) :
    SolidToken token := by
  cases h with
  | decimal n zeros =>
      exact solidToken_of_forall_mem (decimal_ne_nil n zeros 10)
        (fun _ => isDigit_of_mem_decimal n zeros) (by decide)
  | negative n zeros => simp [SolidToken, Solid, layoutStarts, layoutBlanks]
  | hexadecimal n zeros hmark hdigits => simp [SolidToken, Solid, layoutStarts, layoutBlanks]

/-- Spelled numbers are read with their value. -/
theorem readsToken_number {n : Int} {token : Token} (h : NumberToken n token) :
    ∃ numeral : Numeral, numeral.value = n ∧ ReadsToken Grammar.number token numeral := by
  cases h with
  | decimal n zeros =>
      have hdigits := fun c => @isDigit_of_mem_decimal n zeros c
      have hne := decimal_ne_nil n zeros 10
      refine ⟨.dec false (List.replicate zeros '0' ++ Nat.toDigits 10 n), ?_, fun rest hrest => ?_⟩
      · simp [Numeral.value, digitsValue_replicate_append, digitsValue_toDigits]
      · have hhex : Refuses (Grammar.numeral Grammar.hexAt)
            (List.replicate zeros '0' ++ Nat.toDigits 10 n ++ rest) :=
          refuses_plain (by rw [hexAt_digits hdigits hne hrest]; rfl)
        exact Reads.named _ ((hhex.named _).orElse
          (Reads.named _ (reads_numeral (decAt_digits hdigits hne hrest) rfl)))
  | negative n zeros =>
      have hdigits := fun c => @isDigit_of_mem_decimal n zeros c
      have hne := decimal_ne_nil n zeros 10
      refine ⟨.dec true (List.replicate zeros '0' ++ Nat.toDigits 10 n), ?_, fun rest hrest => ?_⟩
      · simp [Numeral.value, digitsValue_replicate_append, digitsValue_toDigits]
      · have hhex : Refuses (Grammar.numeral Grammar.hexAt)
            ('-' :: (List.replicate zeros '0' ++ Nat.toDigits 10 n) ++ rest) :=
          refuses_plain (by simp [Grammar.hexAt])
        exact Reads.named _ ((hhex.named _).orElse
          (Reads.named _ (reads_numeral (decAt_minus hdigits hne hrest) rfl)))
  | @hexadecimal n zeros mark digits hmark hlower =>
      have hlowered : ∀ c ∈ digits.map Char.toLower, isHexDigit c = true := by
        intro c hc
        rw [hlower] at hc
        rcases List.mem_append.mp hc with hzero | hdigit
        · rw [List.eq_of_mem_replicate hzero]
          rfl
        · exact isHexDigit_of_mem_toDigits hdigit
      have hdigits : ∀ c ∈ digits, isHexDigit c.toLower = true := fun c hc =>
        hlowered _ (List.mem_map_of_mem hc)
      have hne : digits ≠ [] := by
        rintro rfl
        exact decimal_ne_nil n zeros 16 hlower.symm
      refine ⟨.hex (mark == 'X') digits, ?_, fun rest hrest => ?_⟩
      · rw [Numeral.value, ← digitsValue_map_toLower hdigits, hlower, digitsValue_replicate_append,
          digitsValue_toDigits (by decide) (by decide)]
      · have hform := hexAt_mark hmark (fun c hc => (hexDigit_of_toLower (hdigits c hc)).1)
          hne hrest
        refine Reads.named _ (Reads.orElse _ (Reads.named _ (reads_numeral hform ?_)))
        rcases hmark with rfl | rfl <;> rfl

end Schema
end CommandSet
