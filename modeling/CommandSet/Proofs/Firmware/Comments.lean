import CommandSet.Firmware.Page
import CommandSet.Proofs.Firmware.Code
import CommandSet.Proofs.Recovery.Scanning

/-!
# Comments of generated functions

The comment above a generated function is made of lines that wait for the function, and
none of them is the marker of a section.

Main definitions:

- {lit}`DocLine`: lines of the comment above a function.
- {lit}`DocBlock.Fits`: comments whose texts fit their lines.

Main results:

- Theorem {lit}`isOn_eq_false`: only lines that start with a slash are markers.
- Theorem {lit}`DocBlock.Fits.docLine`: a comment that fits is made of comment lines.
-/

namespace CommandSet

/-! ## Trimmed lines -/

namespace Text

/-- Trimming keeps a character that is not blank. -/
theorem trimEnd_cons {c : Char} (h : isBlank c = false) (text : List Char) :
    trimEnd (c :: text) = c :: trimEnd text := by
  rw [trimEnd, trimEnd, List.reverse_cons, List.dropWhile_append]
  split
  next hempty =>
    rw [List.isEmpty_iff] at hempty
    rw [hempty]
    simp [h]
  next => simp

theorem trim_cons {c : Char} (h : isBlank c = false) (text : List Char) :
    trim (c :: text) = c :: trimEnd text := by
  have hstart : trimStart (c :: text) = c :: text := by
    rw [trimStart, List.dropWhile_cons_of_neg]
    simp [h]
  rw [trim, hstart, trimEnd_cons h]

theorem trim_blank_cons {c : Char} (h : isBlank c = true) (text : List Char) :
    trim (c :: text) = trim text := by
  rw [trim, trim, trimStart, List.dropWhile_cons_of_pos h]
  rfl

theorem trim_snoc {c : Char} (h : isBlank c = true) (text : List Char) :
    trim (text ++ [c]) = trim text := by
  have hend (text : List Char) : trimEnd (text ++ [c]) = trimEnd text := by
    rw [trimEnd, List.reverse_concat, List.dropWhile_cons_of_pos h]
    rfl
  rw [trim, trim, trimStart, List.dropWhile_append]
  split
  next hempty =>
    rw [List.isEmpty_iff] at hempty
    rw [trimStart, hempty, List.dropWhile_cons_of_pos h]
    rfl
  next => exact hend _

theorem trimEnd_isPrefix (text : List Char) : trimEnd text <+: text := by
  rw [trimEnd, ← List.reverse_suffix, List.reverse_reverse]
  exact List.dropWhile_suffix isBlank

end Text

namespace Recovery

/-- A line keeps its first character if that is not blank. -/
theorem head?_trimmed {line : String} {c : Char} (h : line.toList.head? = some c)
    (hblank : Text.isBlank c = false) : (trimmed line).head? = some c := by
  rw [List.head?_eq_some_iff] at h
  rcases h with ⟨rest, hline⟩
  rw [trimmed, hline, Text.trim_cons hblank, List.head?_cons]

theorem trimmed_indent (level : Nat) (text : String) :
    trimmed (indent level text) = trimmed text := by
  rw [trimmed, trimmed, toList_indent]
  induction 4 * level with
  | zero => rfl
  | succ n ih => rw [List.replicate_succ, List.cons_append, Text.trim_blank_cons (by decide), ih]

/-- Only lines that start with a slash are markers. -/
theorem isOn_eq_false {line : String} (h : (trimmed line).head? ≠ some '/') (marker : Marker) :
    marker.isOn line = false := by
  have hmark : ¬"// ***".toList.isPrefixOf (trimmed line) = true := by
    rw [List.isPrefixOf_iff_prefix]
    rintro ⟨rest, hmatch⟩
    apply h
    rw [← hmatch]
    rfl
  rw [Marker.isOn, Bool.eq_false_iff.mpr hmark, Bool.false_and]

end Recovery

namespace Firmware

open Recovery
open Text (IsLine)

/-! ## Comments -/

/-- Lines of the comment above a function. -/
structure DocLine (line : String) : Prop where
  opens : '{' ∉ line.toList
  closes : '}' ∉ line.toList
  blank : isBlankLine line = false
  comment : isCommentLine line = true
  marker : ∀ marker : Marker, marker.isOn line = false
  isLine : IsLine line

theorem DocLine.waits {line : String} (h : DocLine line) {stop : String → Bool}
    (hstop : stop line = false) : Waits stop line where
  opens := fun hmem => h.opens (mem_of_mem_codePart hmem)
  closes := fun hmem => h.closes (mem_of_mem_codePart hmem)
  stop := hstop
  blank := h.blank

/-- Lines with a star in front. -/
theorem docLine_star {text : String} (hopens : '{' ∉ text.toList) (hcloses : '}' ∉ text.toList)
    (hline : IsLine (" *" ++ text)) : DocLine (" *" ++ text) := by
  have hlist : (" *" ++ text).toList = ' ' :: '*' :: text.toList := by simp
  have htrimmed : trimmed (" *" ++ text) = '*' :: Text.trimEnd text.toList := by
    rw [trimmed, hlist, Text.trim_blank_cons (by decide), Text.trim_cons (by decide)]
  refine ⟨?_, ?_, ?_, ?_, isOn_eq_false (by rw [htrimmed]; simp), hline⟩
  · rw [hlist]
    simpa using hopens
  · rw [hlist]
    simpa using hcloses
  · rw [isBlankLine, htrimmed]
    rfl
  · simp [isCommentLine, htrimmed]

/-- Comments whose texts fit their lines. -/
structure DocBlock.Fits (doc : DocBlock) : Prop where
  signature : Avoids lineBreaks doc.signature
  brief_opens : '{' ∉ doc.brief.toList
  brief_closes : '}' ∉ doc.brief.toList
  brief : IsLine doc.brief
  brief_ne : doc.brief.toList ≠ []
  params : ∀ param ∈ doc.params, Avoids lineBreaks param.1 ∧ Avoids lineBreaks param.2
  result : Avoids lineBreaks doc.result

private theorem docLine_of_avoids {text : String} (h : Avoids lineBreaks text) :
    DocLine (" *" ++ text) := by
  have hwhole : Avoids lineBreaks (" *" ++ text) := avoids_append.mpr ⟨.fixed rfl, h⟩
  exact docLine_star (h _ (by decide)) (h _ (by decide)) (isLine_of_avoids hwhole)

/-- A comment that fits its lines is made of comment lines. -/
theorem DocBlock.Fits.docLine {doc : DocBlock} (h : doc.Fits) : ∀ l ∈ doc.lines, DocLine l := by
  have hopening : DocLine "/**" :=
    ⟨by decide, by decide, by decide, by decide, fun marker => by cases marker <;> decide,
      ⟨by decide, by decide⟩⟩
  have hsignature : DocLine (" * \\fn " ++ doc.signature) := by
    have htext : Avoids lineBreaks (" \\fn " ++ doc.signature) :=
      avoids_append.mpr ⟨by decide, h.signature⟩
    have hline := docLine_of_avoids htext
    rwa [← String.append_assoc] at hline
  have hbrief : DocLine (" * \\brief " ++ doc.brief) := by
    have hopens : '{' ∉ (" \\brief " ++ doc.brief).toList := by
      simpa using h.brief_opens
    have hcloses : '}' ∉ (" \\brief " ++ doc.brief).toList := by
      simpa using h.brief_closes
    have hline : IsLine (" *" ++ (" \\brief " ++ doc.brief)) := by
      rw [← String.append_assoc]
      exact isLine_append (by decide) h.brief h.brief_ne
    have hdoc := docLine_star hopens hcloses hline
    rwa [← String.append_assoc] at hdoc
  have hparams : ∀ param ∈ doc.params, DocLine (" * \\param " ++ param.1 ++ " " ++ param.2) := by
    intro param hparam
    obtain ⟨hname, htext⟩ := h.params param hparam
    have hall : Avoids lineBreaks (" \\param " ++ (param.1 ++ (" " ++ param.2))) := by
      simp only [avoids_append]
      exact ⟨by decide, hname, by decide, htext⟩
    have hsplit : " * \\param " ++ param.1 ++ " " ++ param.2 =
        " *" ++ (" \\param " ++ (param.1 ++ (" " ++ param.2))) := by
      rw [← String.toList_inj]
      simp
    rw [hsplit]
    exact docLine_of_avoids hall
  have hresult : DocLine (" * \\return " ++ doc.result) := by
    have htext : Avoids lineBreaks (" \\return " ++ doc.result) :=
      avoids_append.mpr ⟨.fixed rfl, h.result⟩
    have hline := docLine_of_avoids htext
    rwa [← String.append_assoc] at hline
  have hblank : DocLine " *" := @docLine_of_avoids "" (.fixed rfl)
  have hclosing : DocLine " */" := @docLine_of_avoids "/" (.fixed rfl)
  rw [DocBlock.lines]
  simp only [List.forall_mem_append, List.forall_mem_cons, List.forall_mem_map, List.not_mem_nil,
    false_implies, implies_true, and_true]
  exact ⟨⟨⟨hopening, hsignature, hbrief, hblank⟩, hparams⟩, hresult, hclosing⟩

end Firmware
end CommandSet
