import CommandSet.Proofs.Schema.Reading
import CommandSet.Proofs.Text.Replacement
import CommandSet.Schema.Parsing

/-!
# Quoted descriptions

A description is read up to its closing quote, and its escapes are replaced one kind
after the other.  Where the description itself holds no backslash, every backslash
between the quotes starts an escape, so that replacing one kind neither makes nor
breaks an escape of another kind.

Main definition:

- {lit}`Escaped`: a text in which some kinds of escapes are still to be replaced.

Main results:

- Theorem {lit}`readsToken_string`: quoted descriptions are read whole.
- Theorem {lit}`unescape_eq_ofList`: replacing the escapes gives the description.
-/

namespace CommandSet
namespace Schema

/-! ## Reading between the quotes -/

theorem quotedSpan_append {text chars rest : List Char} (h : QuotedChars text chars)
    (hplain : '\\' ∉ text) : Grammar.quotedSpan (chars ++ '"' :: rest) = chars := by
  induction h with
  | nil => rfl
  | quote _ ih | newline _ ih | tab _ ih =>
      simp only [List.mem_cons, not_or] at hplain
      rw [List.cons_append, List.cons_append, Grammar.quotedSpan, ih hplain.2]
  | @plain c text chars hc _ ih =>
      simp only [List.mem_cons, not_or] at hplain
      obtain ⟨hslash, hplain⟩ := hplain
      rw [List.cons_append, Grammar.quotedSpan, ih hplain]
      · exact hc
      · rintro d tail rfl
        contradiction
      · rintro rfl
        contradiction

/-- Quoted descriptions are read whole. -/
theorem readsToken_string {text chars : List Char} (h : QuotedChars text chars)
    (hplain : '\\' ∉ text) : ReadsToken Grammar.string ('"' :: chars ++ ['"']) chars := by
  intro rest _
  have hopen : Reads (Reader.word "\"") ('"' :: (chars ++ '"' :: rest)) ()
      (chars ++ '"' :: rest) := reads_word "\"" _
  have hspan : Reads (Reader.named .stringInner <| Reader.plain fun rest =>
      let span := Grammar.quotedSpan rest
      some (span, span.length)) (chars ++ '"' :: rest) chars ('"' :: rest) := by
    refine Reads.named _ (reads_plain (n := chars.length) ?_ List.drop_left)
    simp [quotedSpan_append h hplain]
  have hclose : Reads (Reader.word "\"") ('"' :: rest) () rest := reads_word "\"" rest
  have htext : '"' :: chars ++ ['"'] ++ rest = '"' :: (chars ++ '"' :: rest) := by
    simp
  rw [htext]
  exact Reads.named _ (hopen.bind (hspan.bind (hclose.bind (reads_pure chars rest))))

/-! ## Replacing escapes -/

/-- A text in which the given escapes, a letter and the character it stands for, are
still to be replaced and every backslash starts one of them. -/
inductive Escaped (escapes : List (Char × Char)) : List Char → List Char → Prop where
  | nil : Escaped escapes [] []
  | plain {c : Char} {text chars : List Char} (hc : c ≠ '\\') : Escaped escapes text chars →
      Escaped escapes (c :: text) (c :: chars)
  | escape {letter c : Char} {text chars : List Char} (hescape : (letter, c) ∈ escapes) :
      Escaped escapes text chars → Escaped escapes (c :: text) ('\\' :: letter :: chars)

/-- The escapes of a description. -/
def escapes : List (Char × Char) :=
  [('n', '\n'), ('t', '\t'), ('"', '"')]

theorem QuotedChars.escaped {text chars : List Char} (h : QuotedChars text chars)
    (hplain : '\\' ∉ text) : Escaped escapes text chars := by
  induction h with
  | nil => exact .nil
  | quote _ ih | newline _ ih | tab _ ih =>
      exact .escape (by decide) (ih fun hmem => hplain (List.mem_cons_of_mem _ hmem))
  | @plain c text chars hc _ ih =>
      simp only [List.mem_cons, not_or] at hplain
      exact .plain (fun hslash => hplain.1 hslash.symm) (ih hplain.2)

/-- Replacing one kind of escape leaves the others. -/
theorem Escaped.replaceAll {letter c : Char} {others : List (Char × Char)} {text chars : List Char}
    (hletter : letter ≠ '\\') (hothers : ∀ other ∈ others, other.1 ≠ letter ∧ other.1 ≠ '\\')
    (hc : c ≠ '\\') (h : Escaped ((letter, c) :: others) text chars) :
    Escaped others text (Text.replaceAll ['\\', letter] [c] chars) := by
  have hpattern : ['\\', letter] ≠ [] := List.cons_ne_nil _ _
  induction h with
  | nil =>
      rw [Text.replaceAll_nil hpattern]
      exact .nil
  | @plain d text chars hd _ ih =>
      have hkept : ¬['\\', letter] <+: d :: chars := by
        rw [List.cons_prefix_cons]
        rintro ⟨rfl, -⟩
        contradiction
      rw [Text.replaceAll_cons hkept]
      exact .plain hd ih
  | @escape other d text chars hescape _ ih =>
      rcases List.mem_cons.mp hescape with hsame | hother
      · obtain ⟨rfl, rfl⟩ := Prod.mk.inj hsame
        have hmatch : '\\' :: other :: chars = ['\\', other] ++ chars := rfl
        rw [hmatch, Text.replaceAll_append hpattern]
        exact .plain hc ih
      · obtain ⟨hne, hslash⟩ := hothers _ hother
        have hkept : ¬['\\', letter] <+: '\\' :: other :: chars := by
          rw [List.cons_prefix_cons, List.cons_prefix_cons]
          rintro ⟨-, rfl, -⟩
          contradiction
        have hkept' : ¬['\\', letter] <+: other :: chars := by
          rw [List.cons_prefix_cons]
          rintro ⟨rfl, -⟩
          contradiction
        rw [Text.replaceAll_cons hkept, Text.replaceAll_cons hkept']
        exact .escape hother ih

/-- Without escapes left a text is what it says. -/
theorem Escaped.eq_of_nil {text chars : List Char} (h : Escaped [] text chars) : chars = text := by
  induction h with
  | nil => rfl
  | plain _ _ ih => rw [ih]
  | escape hescape _ _ => contradiction

/-- Replacing the escapes gives the description. -/
theorem unescape_eq_ofList {text chars : List Char} (h : QuotedChars text chars)
    (hplain : '\\' ∉ text) : unescape chars = String.ofList text := by
  have hnewline := (h.escaped hplain).replaceAll (by decide) (by decide) (by decide)
  have htab := hnewline.replaceAll (by decide) (by decide) (by decide)
  have hquote := htab.replaceAll (by decide) (by decide) (by decide)
  rw [unescape, hquote.eq_of_nil]

end Schema
end CommandSet
