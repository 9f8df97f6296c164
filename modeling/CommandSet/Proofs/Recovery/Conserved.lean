import CommandSet.Proofs.Recovery.Reimport

/-!
# Code outside of the private section

The first two sections and the public one are kept as they stand.  The lines of the public
section are handed out to its functions and to what is below them; only blank lines between
functions are dropped.

Main definition:

- {lit}`withoutGaps`: lines without the blank ones outside of braces.

Main results:

- Theorem {lit}`Scans.text_eq`: a scan keeps all lines but the blank ones outside of braces.
- Theorem {lit}`recover_conserves`: how an accepted source is divided into what is recovered
  from it.
-/

namespace CommandSet
namespace Recovery

variable {stop : String → Bool}

/-! ## Blank lines outside of braces -/

/-- Lines without the blank ones at brace depth zero, the first of which stands at
{lit}`depth`. -/
def withoutGaps (depth : Int) : List String → List String
  | [] => []
  | line :: lines =>
      let below := withoutGaps (depth + braceDelta line) lines
      if depth = 0 ∧ isBlankLine line = true then below else line :: below

/-- A line that is read leads as far as its braces. -/
theorem Scanner.feed_delta {scanner next : Scanner} {line : SourceLine}
    {found : Option FoundFunction} (hfeed : scanner.feed line = .ok (next, found)) :
    (scanner.depth : Int) + braceDelta line.text = next.depth := by
  have hcount := (depthAfter_eq_some_iff.mp (Scanner.feed_depth hfeed)).2
  rw [braceDelta_eq, netBraces]
  omega

/-- A blank line is dropped at depth zero. -/
theorem Scanner.Sound.kept_eq {scanner : Scanner} (h : scanner.Sound stop) (line : String) :
    scanner.kept line =
      if (scanner.depth : Int) = 0 ∧ isBlankLine line = true then [] else [line] := by
  have hdepth : (scanner.depth : Int) = 0 ↔ scanner.current.isNone = true := by
    rw [Int.natCast_eq_zero, Option.isNone_iff_eq_none]
    exact h.depth_eq_zero_iff
  unfold Scanner.kept
  simp only [hdepth, Bool.and_eq_true]

/-- A scan keeps all lines but the blank ones outside of braces. -/
theorem Scans.text_eq {scanner last : Scanner} {lines : List SourceLine}
    {functions : List FoundFunction} (h : Scans stop scanner lines functions last)
    (hsound : scanner.Sound stop) :
    functions.flatMap FoundFunction.text ++ last.text =
      scanner.text ++ withoutGaps scanner.depth (lines.map (·.text)) := by
  induction h with
  | nil => simp [withoutGaps]
  | @cons scanner next last line lines found functions hstop hfeed _ ih =>
      have hrest := ih (Scanner.feed_sound hsound hstop hfeed).1
      have hgaps : withoutGaps scanner.depth ((line :: lines).map (·.text)) =
          scanner.kept line.text ++ withoutGaps next.depth (lines.map (·.text)) := by
        rw [List.map_cons, withoutGaps, Scanner.feed_delta hfeed, hsound.kept_eq]
        split <;> rfl
      calc (found.toList ++ functions).flatMap FoundFunction.text ++ last.text
        _ = found.toList.flatMap FoundFunction.text ++
              (functions.flatMap FoundFunction.text ++ last.text) := by
            rw [List.flatMap_append, List.append_assoc]
        _ = found.toList.flatMap FoundFunction.text ++ next.text ++
              withoutGaps next.depth (lines.map (·.text)) := by
            rw [hrest, List.append_assoc]
        _ = scanner.text ++ withoutGaps scanner.depth ((line :: lines).map (·.text)) := by
            rw [Scanner.feed_text hfeed, hgaps, List.append_assoc]

/-! ## Parts of functions -/

/-- Lines that are cut into a function: a comment, and a body that starts with the signature
and whose braces close; the first brace stands on the last line of the signature. -/
structure FoundFunction.Cut (function : FoundFunction) : Prop where
  doc : ∀ line ∈ function.doc, isCommentLine line = true
  signature : function.signature <+: function.body
  body : Balanced function.body
  opening : ∃ above opening, function.signature = above ++ [opening] ∧
    '{' ∉ codeOf above ∧ '}' ∉ codeOf above ∧ '{' ∈ codePart opening

/-- Framed functions are cut like that. -/
theorem Framed.cut {function : FoundFunction} (h : Framed stop function) : function.Cut := by
  have hbody := h.balanced_body
  generalize hdepth : 0 = depth at h
  cases h with
  | @mk pending rest line first _ hpending hstop hopen hline hrest =>
      refine ⟨?_, ?_, hbody, (splitEnding isSignatureLine pending).2, line, rfl, ?_, ?_, hopen⟩
      · intro l hl
        exact mem_splitEnding_snd hl
      · exact List.prefix_append _ rest
      · intro hmem
        rcases List.mem_flatMap.mp hmem with ⟨l, hl, hbrace⟩
        exact (hpending l (mem_of_mem_splitEnding_snd hl)).opens hbrace
      · intro hmem
        rcases List.mem_flatMap.mp hmem with ⟨l, hl, hbrace⟩
        exact (hpending l (mem_of_mem_splitEnding_snd hl)).closes hbrace

/-! ## Whole sources -/

/-- The braces of scanned lines lead from the depth of the first state to that of the last. -/
theorem Scans.netBraces_eq {scanner last : Scanner} {lines : List SourceLine}
    {functions : List FoundFunction} (h : Scans stop scanner lines functions last) :
    (scanner.depth : Int) + netBraces (codeOf (lines.map (·.text))) = last.depth := by
  induction h with
  | nil => simp [netBraces]
  | cons hstop hfeed _ ih =>
      have hline := Scanner.feed_delta hfeed
      rw [List.map_cons, codeOf_cons, netBraces_append, ← braceDelta_eq]
      omega

/-- Lines that would end a section stand inside of braces where they are scanned. -/
theorem Scans.depth_ne_zero {scanner last : Scanner} {lines : List SourceLine}
    {functions : List FoundFunction} (h : Scans stop scanner lines functions last)
    (hsound : scanner.Sound stop) {above below : List String} {line : String}
    (hlines : lines.map (·.text) = above ++ line :: below) (hline : stop line = true) :
    (scanner.depth : Int) + netBraces (codeOf above) ≠ 0 := by
  induction h generalizing above with
  | nil => exact absurd hlines (by simp)
  | @cons scanner next last first lines found functions hstop hfeed _ ih =>
      rw [List.map_cons] at hlines
      cases above with
      | nil =>
          rcases List.cons.inj hlines with ⟨rfl, -⟩
          intro hzero
          have hdepth : scanner.depth = 0 := by
            simpa [netBraces] using hzero
          rw [hstop (hsound.depth_eq_zero_iff.mp hdepth)] at hline
          cases hline
      | cons _ above =>
          rcases List.cons.inj hlines with ⟨rfl, hrest⟩
          have hdelta := Scanner.feed_delta hfeed
          have hne := ih (Scanner.feed_sound hsound hstop hfeed).1 hrest
          rw [codeOf_cons, netBraces_append, ← braceDelta_eq]
          omega

/-- An accepted source is divided by three markers.  The lines before the first marker of the
definitions and those between it and the first marker of the private section are kept as they
are.  The private section ends at the first marker of the public one that stands outside of
braces.  The lines below it are those of the public functions and what is left over, one after
the other, without the blank ones outside of braces; each of the functions is cut into a
comment and a body whose braces close and that starts with the signature, on whose last line
the first brace stands. -/
theorem recover_conserves {protocol source : String} {commands : List String}
    {code : RecoveredCode} (hrecover : recover protocol commands source = .ok code) :
    ∃ first second third privates publics,
      Text.lines source = code.includes ++ first ::
        (code.definitions ++ second :: (privates ++ third :: publics)) ∧
      ((∀ line ∈ code.includes, Marker.definitions.isOn line = false) ∧
        Marker.definitions.isOn first = true) ∧
      ((∀ line ∈ code.definitions, Marker.privateFunctions.isOn line = false) ∧
        Marker.privateFunctions.isOn second = true) ∧
      ((∀ above line below, privates = above ++ line :: below →
          Marker.publicFunctions.isOn line = true → netBraces (codeOf above) ≠ 0) ∧
        netBraces (codeOf privates) = 0 ∧ Marker.publicFunctions.isOn third = true) ∧
      code.publicFunctions.flatMap (fun function =>
          function.preceding ++ function.doc ++ function.body) ++ code.publicTrailing =
        withoutGaps 0 publics ∧
      ∀ function ∈ code.publicFunctions, (∀ line ∈ function.doc, isCommentLine line = true) ∧
        function.signature <+: function.body ∧ Balanced function.body ∧
          ∃ above opening, function.signature = above ++ [opening] ∧
            '{' ∉ codeOf above ∧ '}' ∉ codeOf above ∧ '{' ∈ codePart opening := by
  obtain ⟨parts, -⟩ := exists_sectioned hrecover
  refine ⟨parts.first.text, parts.second.text, parts.third.text, parts.privates.map (·.text),
    parts.publics.map (·.text), parts.text_eq, ⟨?_, parts.first_on⟩, ⟨?_, parts.second_on⟩,
    ⟨?_, ?_, parts.third_on⟩, ?_, ?_⟩
  · rw [parts.includes_eq]
    exact List.forall_mem_map.mpr parts.includes_off
  · rw [parts.definitions_eq]
    exact List.forall_mem_map.mpr parts.definitions_off
  · intro above line below hsplit hon
    have hne := parts.privateScans.depth_ne_zero Scanner.initial_sound hsplit hon
    simpa [Scanner.depth, Scanner.initial] using hne
  · have hnet := parts.privateScans.netBraces_eq
    simpa [Scanner.depth, Scanner.initial] using hnet
  · have htext := parts.publicScans.text_eq Scanner.initial_sound
    rw [parts.publicFunctions, List.flatMap_map]
    exact htext
  · have hframed := (parts.publicScans.framed Scanner.initial_sound).2
    rw [parts.publicFunctions]
    refine List.forall_mem_map.mpr fun function hfunction => ?_
    have hcut := (hframed function hfunction).cut
    exact ⟨hcut.doc, hcut.signature, hcut.body, hcut.opening⟩

/-! ## A public section with gaps -/

/-- A module with a marker inside of a function, and blank lines in and between public ones. -/
private def tankLines : List String :=
  ["#include <stdint.h>", "", "// *** Definitions ***", "int n;", "// *** Private Functions ***",
    "", r"void f() {", "// *** Public Functions ***", r"}", "// *** Public Functions ***", "",
    "extern int k;", "// level", "int level(", "", r"int i) {", "", r"return i; }", " ",
    "// end"]

private def tankCode : RecoveredCode where
  includes := ["#include <stdint.h>", ""]
  definitions := ["int n;"]
  handlers := []
  unknown := [[r"void f() {", "// *** Public Functions ***", r"}"]]
  fallback := none
  privateTrailing := []
  publicFunctions :=
    [⟨["extern int k;"], ["// level"], ["int level(", r"int i) {"],
      ["int level(", r"int i) {", "", r"return i; }"]⟩]
  publicTrailing := ["// end"]

private theorem recover_tank : recover "Tank" [] (Text.unlines tankLines) = .ok tankCode := by
  rw [recover, Text.lines_unlines (by decide)]
  decide +kernel

/-- All lines of this module are where they belong. -/
theorem recover_conserves_tank :
    ∃ first second third privates publics,
      tankLines = tankCode.includes ++ first ::
        (tankCode.definitions ++ second :: (privates ++ third :: publics)) ∧
      netBraces (codeOf privates) = 0 ∧
      ["extern int k;", "// level", "int level(", r"int i) {", "", r"return i; }", "// end"] =
        withoutGaps 0 publics := by
  obtain ⟨first, second, third, privates, publics, hlines, -, -, ⟨-, hprivates, -⟩, hpublics, -⟩ :=
    recover_conserves recover_tank
  rw [Text.lines_unlines (by decide)] at hlines
  exact ⟨first, second, third, privates, publics, hlines, hprivates, hpublics⟩

end Recovery
end CommandSet
