import CommandSet.CodeLine
import CommandSet.Proofs.Protocol.Names
import CommandSet.Text.LetterCase

/-!
# Texts of generated code

Generated code is made of fixed texts and of the names of a protocol in upper or lower
case.  Names hold letters, digits and underscores only, so what a line of code holds
besides them stands in its fixed texts.

Main definitions:

- {lit}`IsWord`: texts of letters, digits and underscores.
- {lit}`Avoids`: texts without certain characters.

Main results:

- Theorems {lit}`IsName.upper`, {lit}`IsName.lower`: names stay words in either case.
- Theorem {lit}`IsWord.avoids`: words avoid what no name holds.
-/

namespace CommandSet

/-! ## Words -/

instance : DecidablePred IsNameRest := fun _ =>
  decidable_of_iff _ isNameRest_iff

/-- Texts of letters, digits and underscores. -/
def IsWord (text : String) : Prop :=
  ∀ c ∈ text.toList, IsNameRest c

theorem IsName.isWord {name : String} (h : IsName name) : IsWord name :=
  h.forall_mem

theorem IsWord.blank_not_mem {text : String} (h : IsWord text) : ' ' ∉ text.toList :=
  fun hmem => (by decide : ¬IsNameRest ' ') (h ' ' hmem)

/-- A fixed text is checked character by character. -/
theorem IsWord.fixed {chars : List Char}
    (h : chars.all (fun c => c.isAlphanum || c == '_') = true) : IsWord (String.ofList chars) := by
  intro c hc
  rw [String.toList_ofList] at hc
  exact isNameRest_iff.mp (List.all_eq_true.mp h c hc)

theorem IsWord.append {first second : String} (hfirst : IsWord first) (hsecond : IsWord second) :
    IsWord (first ++ second) := by
  intro c hc
  rw [String.toList_append, List.mem_append] at hc
  rcases hc with hc | hc
  · exact hfirst c hc
  · exact hsecond c hc

/-- Characters of names are ASCII. -/
theorem IsNameRest.isAscii {c : Char} (h : IsNameRest c) : Text.isAscii c = true := by
  simp only [IsNameRest, IsNameStart, Char.le_def, UInt32.le_iff_toNat_le] at h
  simp only [Text.isAscii, decide_eq_true_eq, ← Char.toNat_val]
  rcases h with (⟨-, h⟩ | ⟨-, h⟩ | rfl) | ⟨-, h⟩
  · exact Nat.lt_of_le_of_lt h (by decide)
  · exact Nat.lt_of_le_of_lt h (by decide)
  · decide
  · exact Nat.lt_of_le_of_lt h (by decide)

/-- What holds of the first 128 characters holds of a character of a name. -/
private theorem IsNameRest.of_ascii {p : Char → Prop} (h : ∀ n < 128, p (Char.ofNat n)) {c : Char}
    (hc : IsNameRest c) : p c := by
  have hascii := hc.isAscii
  rw [Text.isAscii, decide_eq_true_eq] at hascii
  have hp := h c.toNat hascii
  rwa [Char.ofNat_toNat] at hp

theorem IsNameRest.toUpper {c : Char} (h : IsNameRest c) : IsNameRest c.toUpper :=
  IsNameRest.of_ascii (p := fun c => IsNameRest c → IsNameRest c.toUpper) (by decide) h h

theorem IsNameRest.toLower {c : Char} (h : IsNameRest c) : IsNameRest c.toLower :=
  IsNameRest.of_ascii (p := fun c => IsNameRest c → IsNameRest c.toLower) (by decide) h h

theorem IsNameRest.toLower_not_upper {c : Char} (h : IsNameRest c) : c.toLower.isUpper = false :=
  IsNameRest.of_ascii (p := fun c => c.toLower.isUpper = false) (by decide) h

theorem IsNameRest.eq_underscore_of_toUpper {c : Char} (h : IsNameRest c) (hc : c.toUpper = '_') :
    c = '_' :=
  IsNameRest.of_ascii (p := fun c => c.toUpper = '_' → c = '_') (by decide) h hc

theorem IsNameRest.eq_underscore_of_toLower {c : Char} (h : IsNameRest c) (hc : c.toLower = '_') :
    c = '_' :=
  IsNameRest.of_ascii (p := fun c => c.toLower = '_' → c = '_') (by decide) h hc

theorem IsNameRest.toUpper_toLower {c : Char} (h : IsNameRest c) : c.toLower.toUpper = c.toUpper :=
  IsNameRest.of_ascii (p := fun c => c.toLower.toUpper = c.toUpper) (by decide) h

instance : DecidablePred IsNameStart := fun _ =>
  decidable_of_iff _ isNameStart_iff

/-- In upper case only letters start a name, besides the underscore. -/
theorem IsNameRest.isNameStart_toUpper_iff {c : Char} (h : IsNameRest c) (hc : c ≠ '_') :
    IsNameStart c.toUpper ↔ c.isAlpha = true :=
  IsNameRest.of_ascii (p := fun c => c ≠ '_' → (IsNameStart c.toUpper ↔ c.isAlpha = true))
    (by decide) h hc

/-- Words that start like a name are names. -/
theorem IsWord.isName_iff {text : String} (h : IsWord text) :
    IsName text ↔ ∃ c, text.toList.head? = some c ∧ IsNameStart c := by
  constructor
  · rintro ⟨first, rest, htext, hfirst, -⟩
    exact ⟨first, by rw [htext, List.head?_cons], hfirst⟩
  · rintro ⟨c, hhead, hc⟩
    obtain ⟨rest, htext⟩ := List.head?_eq_some_iff.mp hhead
    refine ⟨c, rest, htext, hc, fun d hd => h d ?_⟩
    rw [htext]
    exact List.mem_cons_of_mem c hd

theorem IsNameRest.toLower_toUpper {c : Char} (h : IsNameRest c) (hc : c.isUpper = false) :
    c.toUpper.toLower = c :=
  IsNameRest.of_ascii (p := fun c => c.isUpper = false → c.toUpper.toLower = c) (by decide) h hc

/-- Words take one byte for each character. -/
theorem IsWord.utf8ByteSize_eq {text : String} (h : IsWord text) :
    text.utf8ByteSize = text.toList.length := by
  have hchars {chars : List Char} (h : ∀ c ∈ chars, IsNameRest c) :
      (String.ofList chars).utf8ByteSize = chars.length := by
    induction chars with
    | nil => rfl
    | cons c chars ih =>
        rw [List.forall_mem_cons] at h
        have hone : c.utf8Size = 1 :=
          IsNameRest.of_ascii (p := fun c => c.utf8Size = 1) (by decide) h.1
        rw [String.ofList_cons, String.utf8ByteSize_append, String.utf8ByteSize_singleton, hone,
          ih h.2, List.length_cons, Nat.add_comm]
  have htext := hchars h
  rwa [String.ofList_toList] at htext

theorem IsWord.toList_upper {text : String} (h : IsWord text) :
    (Text.upper text).toList = text.toList.map Char.toUpper := by
  rw [Text.upper, String.toList_ofList, List.map_eq_flatMap]
  exact congrArg List.flatten
    (List.map_congr_left fun c hc => Text.upperChar_ascii (h c hc).isAscii)

/-- Words without capitals are told apart in upper case. -/
theorem IsWord.upper_inj {first second : String} (hfirst : IsWord first)
    (hsecond : IsWord second) (hlow : ∀ c ∈ first.toList, c.isUpper = false)
    (hslow : ∀ c ∈ second.toList, c.isUpper = false)
    (h : Text.upper first = Text.upper second) : first = second := by
  have hback {text : String} (hword : IsWord text) (hlow : ∀ c ∈ text.toList, c.isUpper = false) :
      ((Text.upper text).toList.map Char.toLower) = text.toList := by
    rw [hword.toList_upper, List.map_map]
    have hchars : ∀ c ∈ text.toList, (Char.toLower ∘ Char.toUpper) c = id c := fun c hc =>
      (hword c hc).toLower_toUpper (hlow c hc)
    rw [List.map_congr_left hchars, List.map_id]
  rw [← String.toList_inj, ← hback hfirst hlow, ← hback hsecond hslow, h]

/-- Words in upper case are words. -/
theorem IsWord.upper {text : String} (h : IsWord text) : IsWord (Text.upper text) := by
  intro c hc
  rw [h.toList_upper, List.mem_map] at hc
  obtain ⟨d, hd, rfl⟩ := hc
  exact (h d hd).toUpper

theorem IsWord.toList_lower {text : String} (h : IsWord text) :
    (Text.lower text).toList = text.toList.map Char.toLower := by
  rw [Text.lower, String.toList_ofList, Text.lowerFrom_ascii [] fun c hc => (h c hc).isAscii]

/-- Words in lower case are words. -/
theorem IsWord.lower {text : String} (h : IsWord text) : IsWord (Text.lower text) := by
  intro c hc
  rw [h.toList_lower, List.mem_map] at hc
  obtain ⟨d, hd, rfl⟩ := hc
  exact (h d hd).toLower

/-- Lower case keeps what words have in upper case. -/
theorem IsWord.upper_lower {text : String} (h : IsWord text) :
    Text.upper (Text.lower text) = Text.upper text := by
  rw [← String.toList_inj, h.lower.toList_upper, h.toList_lower, h.toList_upper, List.map_map]
  exact List.map_congr_left fun c hc => (h c hc).toUpper_toLower

/-- Words in lower case hold no capital. -/
theorem IsWord.capital_not_mem_lower {text : String} (h : IsWord text) {c : Char}
    (hc : c.isUpper = true) : c ∉ (Text.lower text).toList := by
  rw [h.toList_lower, List.mem_map]
  rintro ⟨d, hd, rfl⟩
  rw [(h d hd).toLower_not_upper] at hc
  cases hc

/-- Numbers are words. -/
theorem isWord_toString (n : Nat) : IsWord (toString n) := by
  intro c hc
  rw [Nat.toString_eq_repr, Nat.toList_repr] at hc
  have hdigit : c.isDigit = true := Nat.isDigit_of_mem_toDigits (by decide) (by decide) hc
  rw [← isNameRest_iff, Char.isAlphanum, hdigit, Bool.or_true, Bool.true_or]

/-- Words joined by underscores are words. -/
theorem isWord_intercalate {words : List String} (h : ∀ word ∈ words, IsWord word) :
    IsWord (String.intercalate "_" words) := by
  induction words with
  | nil =>
      intro c hc
      simp at hc
  | cons word words ih =>
      rw [List.forall_mem_cons] at h
      by_cases hne : words = []
      · rw [hne, String.intercalate_singleton]
        exact h.1
      · rw [String.intercalate_cons_of_ne_nil hne]
        have hline : IsWord "_" := by simp [IsWord, IsNameRest, IsNameStart]
        exact (h.1.append hline).append (ih h.2)

/-! ## Characters that a text avoids -/

/-- Texts without certain characters. -/
def Avoids (bad : List Char) (text : String) : Prop :=
  ∀ c ∈ bad, c ∉ text.toList

instance (bad : List Char) (text : String) : Decidable (Avoids bad text) :=
  List.decidableBAll (fun c => c ∉ text.toList) bad

variable {bad : List Char}

@[simp]
theorem avoids_append {first second : String} :
    Avoids bad (first ++ second) ↔ Avoids bad first ∧ Avoids bad second := by
  simp only [Avoids, String.toList_append, List.mem_append, not_or]
  exact ⟨fun h => ⟨fun c hc => (h c hc).1, fun c hc => (h c hc).2⟩,
    fun h c hc => ⟨h.1 c hc, h.2 c hc⟩⟩

/-- A fixed text is checked character by character. -/
theorem Avoids.fixed {chars : List Char} (h : bad.all (fun c => !chars.contains c) = true) :
    Avoids bad (String.ofList chars) := by
  intro c hc hmem
  rw [String.toList_ofList] at hmem
  have hnot := List.all_eq_true.mp h c hc
  simp [hmem] at hnot

theorem Avoids.mono {fewer : List Char} {text : String} (h : Avoids bad text) (hsub : fewer ⊆ bad) :
    Avoids fewer text :=
  fun c hc => h c (hsub hc)

instance : Decidable (∀ c ∈ bad, ¬IsNameRest c) :=
  List.decidableBAll _ bad

/-- Words avoid what no name holds. -/
theorem IsWord.avoids {text : String} (h : IsWord text) (hbad : ∀ c ∈ bad, ¬IsNameRest c) :
    Avoids bad text :=
  fun c hc hmem => hbad c hc (h c hmem)

theorem IsWord.avoids_slash {text : String} (h : IsWord text) : Avoids ['/'] text :=
  h.avoids (List.forall_mem_singleton.mpr (by decide))

theorem avoids_intercalate {separator : String} {parts : List String}
    (hseparator : Avoids bad separator) (hparts : ∀ part ∈ parts, Avoids bad part) :
    Avoids bad (String.intercalate separator parts) := by
  induction parts with
  | nil =>
      intro c _ hmem
      simp at hmem
  | cons part parts ih =>
      rw [List.forall_mem_cons] at hparts
      by_cases hne : parts = []
      · rw [hne, String.intercalate_singleton]
        exact hparts.1
      · rw [String.intercalate_cons_of_ne_nil hne, avoids_append, avoids_append]
        exact ⟨⟨hparts.1, hseparator⟩, ih hparts.2⟩

/-- Indentation is blank. -/
theorem toList_indent (level : Nat) (text : String) :
    (indent level text).toList = List.replicate (4 * level) ' ' ++ text.toList := by
  rw [indent, String.toList_append, String.toList_join]
  congr 1
  induction level with
  | zero => rfl
  | succ level ih =>
      rw [List.replicate_succ, List.flatMap_cons, ih, Nat.mul_succ, Nat.add_comm,
        ← List.replicate_append_replicate]
      rfl

theorem indent_zero (text : String) : indent 0 text = text := by
  rw [← String.toList_inj, toList_indent]
  rfl

@[simp]
theorem avoids_indent {level : Nat} {text : String} (hblank : ' ' ∉ bad) :
    Avoids bad (indent level text) ↔ Avoids bad text := by
  simp only [Avoids, toList_indent, List.mem_append, List.mem_replicate, not_or]
  constructor
  · intro h c hc
    exact (h c hc).2
  · intro h c hc
    refine ⟨?_, h c hc⟩
    rintro ⟨-, rfl⟩
    exact hblank hc

end CommandSet
