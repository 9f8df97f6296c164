import CommandSet.Text.Search

/-!
# Equations of replacement

Replacement reads a text from the left: a match is replaced and skipped, any other
character is kept.

Main results:

- Theorems {lit}`replaceAll_nil`, {lit}`replaceAll_cons`, {lit}`replaceAll_append`: the
  three steps of replacement.
-/

namespace CommandSet
namespace Text

variable {pattern replacement : List Char}

/-- What is done already stands behind what is still to be done. -/
private theorem replaceFrom_snd (count skip : Nat) (done text : List Char) :
    (replaceFrom pattern replacement count skip done text).2 =
      (replaceFrom pattern replacement 0 skip [] text).2 ++ done := by
  induction text generalizing count skip done with
  | nil => simp [replaceFrom]
  | cons c text ih =>
      cases skip with
      | succ skip =>
          rw [replaceFrom, replaceFrom]
          exact ih count skip done
      | zero =>
          rw [replaceFrom, replaceFrom]
          split
          next =>
            rw [ih, ih 1 _ (replacement.reverse ++ [])]
            simp
          next =>
            rw [ih, ih 0 _ [c]]
            simp

/-- Characters of a match are passed over. -/
private theorem replaceFrom_skip (skipped text : List Char) :
    replaceFrom pattern replacement 0 skipped.length [] (skipped ++ text) =
      replaceFrom pattern replacement 0 0 [] text := by
  induction skipped with
  | nil => rfl
  | cons c skipped ih =>
      rw [List.length_cons, List.cons_append, replaceFrom]
      exact ih

/-- Replacement of a pattern that is not empty, without the count. -/
private theorem replaceAll_eq (hpattern : pattern ≠ []) (text : List Char) :
    replaceAll pattern replacement text =
      (replaceFrom pattern replacement 0 0 [] text).2.reverse := by
  simp [replaceAll, replaceCounting, hpattern]

theorem replaceAll_nil (hpattern : pattern ≠ []) :
    replaceAll pattern replacement [] = [] := by
  simp [replaceAll_eq hpattern, replaceFrom]

/-- A character at which no match starts is kept. -/
theorem replaceAll_cons {c : Char} {text : List Char} (h : ¬pattern <+: c :: text) :
    replaceAll pattern replacement (c :: text) = c :: replaceAll pattern replacement text := by
  have hpattern : pattern ≠ [] := by
    rintro rfl
    exact h List.nil_prefix
  have hprefix : pattern.isPrefixOf (c :: text) = false := by
    rw [← Bool.not_eq_true, List.isPrefixOf_iff_prefix]
    exact h
  rw [replaceAll_eq hpattern, replaceAll_eq hpattern, replaceFrom, hprefix]
  simp [replaceFrom_snd 0 0 [c]]

/-- A match is replaced. -/
theorem replaceAll_append (hpattern : pattern ≠ []) (text : List Char) :
    replaceAll pattern replacement (pattern ++ text) =
      replacement ++ replaceAll pattern replacement text := by
  obtain ⟨c, rest, rfl⟩ := List.exists_cons_of_ne_nil hpattern
  have hprefix : (c :: rest).isPrefixOf (c :: (rest ++ text)) = true := by
    simp
  rw [replaceAll_eq hpattern, replaceAll_eq hpattern, List.cons_append, replaceFrom, if_pos hprefix,
    replaceFrom_snd, List.length_cons, Nat.add_sub_cancel, replaceFrom_skip]
  simp

end Text
end CommandSet
