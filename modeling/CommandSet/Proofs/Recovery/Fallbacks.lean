import CommandSet.Proofs.Recovery.Braces
import CommandSet.Recovery.Fallback

/-!
# Fallbacks of dispatchers

The fallback of a dispatcher ends at the first {lit}`break;` outside of the braces that
it opens.

Main definition:

- {lit}`BreaksInside`: lines that hold a {lit}`break;` only inside of their braces.

Main results:

- Theorem {lit}`fallbackOf_append`: a fallback is read back where it stands.
- Theorem {lit}`breaksInside_of_fallbackOf`: what is read is a fallback.
-/

namespace CommandSet
namespace Recovery

/-- Opened less closed braces of some code. -/
def netBraces (code : List Char) : Int :=
  (code.count '{' : Int) - code.count '}'

theorem netBraces_append (first second : List Char) :
    netBraces (first ++ second) = netBraces first + netBraces second := by
  simp only [netBraces, List.count_append, Int.natCast_add]
  omega

theorem braceDelta_eq (line : String) : braceDelta line = netBraces (codePart line) :=
  rfl

theorem Balanced.netBraces_eq {lines : List String} (h : Balanced lines) :
    netBraces (codeOf lines) = 0 := by
  rw [netBraces, h.total]
  omega

/-- Lines whose code is {lit}`break;`. -/
def IsBreak (line : String) : Prop :=
  Text.trim (codePart line) = "break;".toList

instance (line : String) : Decidable (IsBreak line) :=
  inferInstanceAs (Decidable (_ = _))

/-- Lines from a brace depth on in which no {lit}`break;` stands at depth zero. -/
def BreaksInsideFrom (depth : Int) (lines : List String) : Prop :=
  ∀ before line after, lines = before ++ line :: after → IsBreak line →
    depth + netBraces (codeOf before) ≠ 0

/-- Lines in which no {lit}`break;` stands at the brace depth of the first. -/
def BreaksInside (lines : List String) : Prop :=
  ∀ before line after, lines = before ++ line :: after → IsBreak line →
    (codeOf before).count '{' ≠ (codeOf before).count '}'

theorem breaksInside_iff {lines : List String} : BreaksInside lines ↔ BreaksInsideFrom 0 lines := by
  have hdepth (before : List String) :
      (codeOf before).count '{' ≠ (codeOf before).count '}' ↔
        0 + netBraces (codeOf before) ≠ 0 := by
    rw [netBraces]
    omega
  simp only [BreaksInside, BreaksInsideFrom, hdepth]

theorem BreaksInsideFrom.cons_iff {depth : Int} {line : String} {lines : List String} :
    BreaksInsideFrom depth (line :: lines) ↔
      (IsBreak line → depth ≠ 0) ∧ BreaksInsideFrom (depth + braceDelta line) lines := by
  constructor
  · intro h
    refine ⟨fun hbreak => ?_, fun before other after hlines hbreak => ?_⟩
    · have hfirst := h [] line lines rfl hbreak
      simpa [netBraces] using hfirst
    · have hother := h (line :: before) other after (by rw [hlines]; rfl) hbreak
      rw [codeOf_cons, netBraces_append] at hother
      rw [braceDelta_eq]
      omega
  · rintro ⟨hfirst, hrest⟩ before other after hlines hbreak
    cases before with
    | nil =>
        obtain ⟨rfl, -⟩ := List.cons.inj hlines
        have hdepth := hfirst hbreak
        simpa [netBraces] using hdepth
    | cons _ before =>
        obtain ⟨rfl, htail⟩ := List.cons.inj hlines
        have hdepth := hrest before other after htail hbreak
        rw [codeOf_cons, netBraces_append, ← braceDelta_eq]
        omega

/-- Lines are read up to the first {lit}`break;` at depth zero. -/
theorem untilBreak_eq_some_iff {depth : Int} {lines block : List String} :
    untilBreak depth lines = some block ↔
      BreaksInsideFrom depth block ∧ depth + netBraces (codeOf block) = 0 ∧
        ∃ line after, lines = block ++ line :: after ∧ IsBreak line := by
  induction lines generalizing depth block with
  | nil => simp [untilBreak]
  | cons line lines ih =>
      rw [untilBreak]
      by_cases hbreak : IsBreak line ∧ depth = 0
      · have hcond : (Text.trim (codePart line) == "break;".toList && depth == 0) = true := by
          rw [Bool.and_eq_true, beq_iff_eq, beq_iff_eq]
          exact hbreak
        rw [if_pos hcond, Option.some.injEq]
        constructor
        · rintro rfl
          refine ⟨fun before other after hlines => ?_, ?_, line, lines, rfl, hbreak.1⟩
          · exact absurd hlines (by simp)
          · simpa [netBraces] using hbreak.2
        · rintro ⟨hinside, -, other, after, hlines, -⟩
          cases block with
          | nil => rfl
          | cons first block =>
              obtain ⟨rfl, -⟩ := List.cons.inj hlines
              exact absurd hbreak.2 ((BreaksInsideFrom.cons_iff.mp hinside).1 hbreak.1)
      · have hcond : ¬(Text.trim (codePart line) == "break;".toList && depth == 0) = true := by
          rw [Bool.and_eq_true, beq_iff_eq, beq_iff_eq]
          exact hbreak
        rw [if_neg hcond, Option.map_eq_some_iff]
        have hsum (block : List String) : depth + netBraces (codeOf (line :: block)) =
            depth + braceDelta line + netBraces (codeOf block) := by
          rw [codeOf_cons, netBraces_append, braceDelta_eq, Int.add_assoc]
        constructor
        · rintro ⟨block, hblock, rfl⟩
          obtain ⟨hinside, hnet, other, after, rfl, hother⟩ := ih.mp hblock
          refine ⟨BreaksInsideFrom.cons_iff.mpr ⟨fun h hzero => hbreak ⟨h, hzero⟩, hinside⟩, ?_,
            other, after, rfl, hother⟩
          rw [hsum]
          exact hnet
        · rintro ⟨hinside, hnet, other, after, hlines, hother⟩
          cases block with
          | nil =>
              obtain ⟨rfl, -⟩ := List.cons.inj hlines
              have hzero : depth = 0 := by simpa [netBraces] using hnet
              exact absurd ⟨hother, hzero⟩ hbreak
          | cons first block =>
              obtain ⟨rfl, htail⟩ := List.cons.inj hlines
              rw [hsum] at hnet
              have hrest := (BreaksInsideFrom.cons_iff.mp hinside).2
              exact ⟨block, ih.mpr ⟨hrest, hnet, other, after, htail, hother⟩, rfl⟩

/-- Nothing is read where no {lit}`break;` stands at depth zero. -/
theorem untilBreak_eq_none {depth : Int} {lines : List String} (h : BreaksInsideFrom depth lines) :
    untilBreak depth lines = none := by
  cases hblock : untilBreak depth lines with
  | none => rfl
  | some block =>
      obtain ⟨-, hnet, line, after, hlines, hbreak⟩ := untilBreak_eq_some_iff.mp hblock
      exact absurd hnet (h block line after hlines hbreak)

/-- Something is read where a {lit}`break;` stands at depth zero. -/
theorem exists_untilBreak {depth : Int} {lines : List String} (h : ¬BreaksInsideFrom depth lines) :
    ∃ block, untilBreak depth lines = some block := by
  induction lines generalizing depth with
  | nil => exact absurd (fun before line after hlines => absurd hlines (by simp)) h
  | cons line lines ih =>
      rw [untilBreak]
      split
      next => exact ⟨[], rfl⟩
      next hcond =>
        rw [BreaksInsideFrom.cons_iff, not_and_or] at h
        rcases h with hbreak | hrest
        · rw [Bool.and_eq_true, beq_iff_eq, beq_iff_eq] at hcond
          exact absurd (fun hline hzero => hcond ⟨hline, hzero⟩) hbreak
        · obtain ⟨block, hblock⟩ := ih hrest
          exact ⟨line :: block, by rw [hblock]; rfl⟩

/-! ## Whole dispatchers -/

/-- Lines with which the fallback starts. -/
def IsDefault (line : String) : Prop :=
  "default:".toList <+: trimmed line

instance (line : String) : Decidable (IsDefault line) :=
  inferInstanceAs (Decidable (_ <+: _))

/-- The fallback is looked for behind the first line with which one starts. -/
theorem fallbackOf_eq_untilBreak {above rest : List String} {start : String}
    (habove : ∀ l ∈ above, ¬IsDefault l) (hstart : IsDefault start) :
    fallbackOf (above ++ start :: rest) = untilBreak (braceDelta start) rest := by
  induction above with
  | nil => rw [List.nil_append, fallbackOf, if_pos (List.isPrefixOf_iff_prefix.mpr hstart)]
  | cons line above ih =>
      rw [List.forall_mem_cons] at habove
      have hline : ¬"default:".toList.isPrefixOf (trimmed line) = true := by
        rw [List.isPrefixOf_iff_prefix]
        exact habove.1
      rw [List.cons_append, fallbackOf, if_neg hline]
      exact ih habove.2

/-- A fallback is read back where it stands. -/
theorem fallbackOf_append {above block below : List String} {start last : String}
    (habove : ∀ l ∈ above, ¬IsDefault l) (hstart : IsDefault start) (hdelta : braceDelta start = 0)
    (hbalanced : Balanced block) (hinside : BreaksInside block) (hlast : IsBreak last) :
    fallbackOf (above ++ start :: (block ++ last :: below)) = some block := by
  rw [fallbackOf_eq_untilBreak habove hstart, hdelta, untilBreak_eq_some_iff,
    hbalanced.netBraces_eq]
  exact ⟨breaksInside_iff.mp hinside, rfl, last, below, rfl, hlast⟩

/-- What is read of a dispatcher ends before a {lit}`break;`, and if it is balanced, at the
first one outside of its braces. -/
theorem breaksInside_of_fallbackOf {lines block : List String} (h : fallbackOf lines = some block)
    (hbalanced : Balanced block) : BreaksInside block := by
  induction lines with
  | nil => cases h
  | cons line lines ih =>
      rw [fallbackOf] at h
      split at h
      next =>
        obtain ⟨hinside, hnet, -⟩ := untilBreak_eq_some_iff.mp h
        rw [hbalanced.netBraces_eq, Int.add_zero] at hnet
        rw [hnet] at hinside
        exact breaksInside_iff.mpr hinside
      next => exact ih h

/-- The fallback is a part of its dispatcher. -/
theorem mem_of_fallbackOf {lines block : List String} (h : fallbackOf lines = some block)
    {line : String} (hline : line ∈ block) : line ∈ lines := by
  induction lines with
  | nil => cases h
  | cons first lines ih =>
      rw [fallbackOf] at h
      split at h
      next =>
        obtain ⟨-, -, last, after, rfl, -⟩ := untilBreak_eq_some_iff.mp h
        exact List.mem_cons_of_mem _ (List.mem_append_left _ hline)
      next => exact List.mem_cons_of_mem _ (ih h)

end Recovery
end CommandSet
