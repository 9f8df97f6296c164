import CommandSet.Text.Search
import Mathlib.Data.List.Infix

/-!
# What search finds

The substring test is the infix relation, and the text before a match is a prefix.

Main results:

- Theorem {lit}`occursIn_iff`: the substring test as an infix.
- Theorem {lit}`isInfix_append_cons`: a pattern lies on one side of a character it does
  not hold.
- Theorem {lit}`before_eq_self`: without a match all of the text is before it.
-/

namespace CommandSet
namespace Text

/-- The substring test is the infix relation. -/
theorem occursIn_iff {pattern text : List Char} :
    occursIn pattern text = true ↔ pattern <:+: text := by
  induction text with
  | nil => simp [occursIn]
  | cons c text ih =>
      rw [occursIn, Bool.or_eq_true, List.isPrefixOf_iff_prefix, ih, List.infix_cons_iff]

/-- A pattern lies on one side of a character that it does not hold. -/
theorem isInfix_append_cons {pattern front rest : List Char} {c : Char} (hc : c ∉ pattern)
    (h : pattern <:+: front ++ c :: rest) : pattern <:+: front ∨ pattern <:+: rest := by
  obtain ⟨before, after, happend⟩ := h
  rw [List.append_assoc, List.append_eq_append_iff] at happend
  rcases happend with ⟨middle, hfront, hrest⟩ | ⟨middle, hbefore, hrest⟩
  · -- the pattern starts in `front`
    rw [List.append_eq_append_iff] at hrest
    rcases hrest with ⟨tail, hmiddle, -⟩ | ⟨tail, hpattern, htail⟩
    · exact .inl ⟨before, tail, by rw [hfront, hmiddle, List.append_assoc]⟩
    · cases tail with
      | nil =>
          rw [List.append_nil] at hpattern
          exact .inl ⟨before, [], by rw [hfront, hpattern, List.append_nil]⟩
      | cons d tail =>
          obtain ⟨rfl, -⟩ := List.cons.inj htail
          exact absurd (hpattern ▸ List.mem_append_right _ List.mem_cons_self) hc
  · cases middle with
    | nil =>
        cases pattern with
        | nil => exact .inl (List.nil_infix)
        | cons d pattern =>
            rw [List.nil_append, List.cons_append] at hrest
            obtain ⟨rfl, -⟩ := List.cons.inj hrest
            exact absurd List.mem_cons_self hc
    | cons d middle =>
        obtain ⟨-, htail⟩ := List.cons.inj hrest
        exact .inr ⟨middle, after, by rw [htail, List.append_assoc]; rfl⟩

/-- The text before a match is a beginning of the text. -/
theorem before_isPrefix (pattern text : List Char) : before pattern text <+: text := by
  induction text with
  | nil => exact List.prefix_rfl
  | cons c text ih =>
      rw [before]
      split
      · exact List.nil_prefix
      · exact (List.prefix_cons_inj c).mpr ih

/-- Without a match all of the text is before it. -/
theorem before_eq_self {pattern text : List Char} (h : ¬pattern <:+: text) :
    before pattern text = text := by
  induction text with
  | nil => rfl
  | cons c text ih =>
      rw [List.infix_cons_iff, not_or] at h
      have hhead : ¬pattern.isPrefixOf (c :: text) = true := by
        rw [List.isPrefixOf_iff_prefix]
        exact h.1
      rw [before, if_neg hhead, ih h.2]

end Text
end CommandSet
