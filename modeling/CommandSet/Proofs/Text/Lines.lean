import CommandSet.Text.Lines

/-!
# Lines read back

Lines that hold no line break come back from the text that is built of them, and the
lines of a text hold no newline.

Main definitions:

- {lit}`IsLine`: texts that are one line.
- {lit}`withoutReturn`: what is left of a line when it is read back.

Main results:

- Theorem {lit}`lines_unlines_of_newline_free`: the lines of a text built of lines that may
  end in a carriage return.
- Theorem {lit}`lines_unlines`: the lines of a text built of lines.
- Theorem {lit}`newline_not_mem_of_mem_lines`: lines hold no newline.
-/

namespace CommandSet
namespace Text

/-- Texts without a newline whose end no line break takes along. -/
structure IsLine (line : String) : Prop where
  newline : '\n' ∉ line.toList
  carriage : line.toList.getLast? ≠ some '\r'

instance (line : String) : Decidable (IsLine line) :=
  decidable_of_iff ('\n' ∉ line.toList ∧ line.toList.getLast? ≠ some '\r')
    ⟨fun h => ⟨h.1, h.2⟩, fun h => ⟨h.newline, h.carriage⟩⟩

theorem dropReturn_of_head? {line : List Char} (h : line.head? ≠ some '\r') :
    dropReturn line = line := by
  cases line with
  | nil => rfl
  | cons c line =>
      rw [dropReturn]
      rintro tail hline
      obtain ⟨rfl, -⟩ := List.cons.inj hline
      exact h rfl

/-- The characters up to a newline are one line. -/
private theorem splitLinesFrom_append (seen : List Char) {line : List Char} (h : '\n' ∉ line)
    (rest : List Char) :
    splitLinesFrom seen (line ++ '\n' :: rest) =
      (dropReturn (line.reverse ++ seen)).reverse :: splitLinesFrom [] rest := by
  induction line generalizing seen with
  | nil => simp [splitLinesFrom]
  | cons c line ih =>
      rw [List.mem_cons, not_or] at h
      have hstep : splitLinesFrom seen (c :: (line ++ '\n' :: rest)) =
          splitLinesFrom (c :: seen) (line ++ '\n' :: rest) := by
        rw [splitLinesFrom]
        rintro rfl
        exact h.1 rfl
      rw [List.cons_append, hstep, ih (c :: seen) h.2, List.reverse_cons, List.append_assoc]
      rfl

/-- A line without the carriage return that a line break takes along. -/
def withoutReturn (line : String) : String :=
  String.ofList (dropReturn line.toList.reverse).reverse

theorem withoutReturn_eq_self {line : String} (h : line.toList.getLast? ≠ some '\r') :
    withoutReturn line = line := by
  have hdrop : dropReturn line.toList.reverse = line.toList.reverse := by
    apply dropReturn_of_head?
    rwa [List.head?_reverse]
  rw [withoutReturn, hdrop, List.reverse_reverse, String.ofList_toList]

theorem withoutReturn_cases (line : String) :
    line.toList = (withoutReturn line).toList ∨
      line.toList = (withoutReturn line).toList ++ ['\r'] := by
  rw [withoutReturn, String.toList_ofList]
  cases hreverse : line.toList.reverse with
  | nil => simp [dropReturn, List.reverse_eq_nil_iff.mp hreverse]
  | cons c rest =>
      have hline : line.toList = rest.reverse ++ [c] := by
        rw [← List.reverse_cons, ← hreverse, List.reverse_reverse]
      by_cases hc : c = '\r'
      · subst hc
        exact .inr hline
      · left
        rw [dropReturn_of_head? (by simp [hc]), List.reverse_cons, hline]

theorem withoutReturn_isPrefix (line : String) :
    (withoutReturn line).toList <+: line.toList := by
  rcases withoutReturn_cases line with h | h
  · exact h ▸ List.prefix_rfl
  · exact ⟨['\r'], h.symm⟩

/-- A start that ends in no carriage return stays. -/
theorem isPrefixOf_withoutReturn {start : List Char} (h : start.getLast? ≠ some '\r')
    (line : String) : start.isPrefixOf (withoutReturn line).toList =
      start.isPrefixOf line.toList := by
  rw [Bool.eq_iff_iff, List.isPrefixOf_iff_prefix, List.isPrefixOf_iff_prefix]
  refine ⟨fun hprefix => hprefix.trans (withoutReturn_isPrefix line), fun hprefix => ?_⟩
  rcases withoutReturn_cases line with heq | heq
  · rwa [← heq]
  · rw [heq, List.prefix_concat_iff] at hprefix
    rcases hprefix with rfl | hprefix
    · exact absurd List.getLast?_concat h
    · exact hprefix

/-- The front of a line stays if it ends in no carriage return. -/
theorem withoutReturn_append {front : String} (h : front.toList.getLast? ≠ some '\r')
    (back : String) : ∃ rest, withoutReturn (front ++ back) = front ++ rest := by
  rcases withoutReturn_cases (front ++ back) with heq | heq
  · exact ⟨back, (String.toList_inj.mp heq).symm⟩
  · rw [String.toList_append] at heq
    obtain hnil | ⟨rest, c, hback⟩ := List.eq_nil_or_concat back.toList
    · rw [hnil, List.append_nil] at heq
      exact absurd (heq ▸ List.getLast?_concat) h
    · rw [hback, List.concat_eq_append, ← List.append_assoc] at heq
      refine ⟨String.ofList rest, ?_⟩
      rw [← String.toList_inj, String.toList_append, String.toList_ofList]
      exact (List.append_inj' heq rfl).1.symm

/-- The lines of a text that is built of lines without newlines. -/
theorem lines_unlines_of_newline_free {ls : List String} (h : ∀ line ∈ ls, '\n' ∉ line.toList) :
    lines (unlines ls) = ls.map withoutReturn := by
  have hsplit : splitLines (unlines ls).toList =
      ls.map fun line => (dropReturn line.toList.reverse).reverse := by
    rw [splitLines, toList_unlines]
    induction ls with
    | nil => rfl
    | cons line ls ih =>
        rw [List.forall_mem_cons] at h
        rw [List.flatMap_cons, List.append_assoc, List.singleton_append,
          splitLinesFrom_append [] h.1, List.append_nil, ih h.2, List.map_cons]
  rw [lines, hsplit, List.map_map]
  rfl

/-- A newline in a line makes two of it. -/
theorem unlines_newline (before : List String) {broken first second : String} (after : List String)
    (h : broken.toList = first.toList ++ '\n' :: second.toList) :
    unlines (before ++ broken :: after) = unlines (before ++ first :: second :: after) := by
  rw [← String.toList_inj]
  simp [toList_unlines, h]

/-- Lines come back from the text that is built of them. -/
theorem lines_unlines {ls : List String} (h : ∀ line ∈ ls, IsLine line) :
    lines (unlines ls) = ls := by
  have hself : ls.map withoutReturn = ls.map id :=
    List.map_congr_left fun line hline => withoutReturn_eq_self (h line hline).carriage
  rw [lines_unlines_of_newline_free fun line hline => (h line hline).newline, hself, List.map_id]

/-- Lines that stand next to each other among others are a part of the text. -/
theorem unlines_isInfix {part all : List String} (h : part <:+: all) :
    (unlines part).toList <:+: (unlines all).toList := by
  rcases h with ⟨front, back, rfl⟩
  simp only [toList_unlines, List.flatMap_append]
  exact ⟨_, _, rfl⟩

/-- What is built of one entry stands in what is built of all. -/
theorem isInfix_flatMap_of_mem {α β : Type} {entries : List α} {entry : α} (h : entry ∈ entries)
    (build : α → List β) : build entry <:+: entries.flatMap build := by
  obtain ⟨front, back, rfl⟩ := List.append_of_mem h
  refine ⟨front.flatMap build, back.flatMap build, ?_⟩
  rw [List.flatMap_append, List.flatMap_cons, List.append_assoc]

private theorem newline_not_mem_splitLinesFrom {seen text line : List Char} (hseen : '\n' ∉ seen)
    (h : line ∈ splitLinesFrom seen text) : '\n' ∉ line := by
  induction text generalizing seen with
  | nil =>
      rw [splitLinesFrom] at h
      split at h
      · exact absurd h List.not_mem_nil
      · rw [List.mem_singleton.mp h, List.mem_reverse]
        exact hseen
  | cons c text ih =>
      by_cases hc : c = '\n'
      · subst hc
        rw [splitLinesFrom, List.mem_cons] at h
        rcases h with rfl | hrest
        · rw [List.mem_reverse]
          intro hmem
          refine hseen ?_
          unfold dropReturn at hmem
          split at hmem
          · exact List.mem_cons_of_mem _ hmem
          · exact hmem
        · exact ih List.not_mem_nil hrest
      · rw [splitLinesFrom] at h
        · refine ih ?_ h
          rw [List.mem_cons, not_or]
          exact ⟨fun heq => hc heq.symm, hseen⟩
        · exact hc

/-- Lines of a text hold no newline. -/
theorem newline_not_mem_of_mem_lines {text line : String} (h : line ∈ lines text) :
    '\n' ∉ line.toList := by
  obtain ⟨chars, hchars, rfl⟩ := List.mem_map.mp h
  rw [String.toList_ofList]
  exact newline_not_mem_splitLinesFrom List.not_mem_nil hchars

end Text
end CommandSet
