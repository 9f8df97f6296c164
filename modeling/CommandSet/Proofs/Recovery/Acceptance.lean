import CommandSet.Proofs.Firmware.Comments
import CommandSet.Proofs.Recovery.Readable

/-!
# Accepted sources

Whether a source is accepted can be told from its markers and braces alone: both markers
in front of the functions are there, the braces behind them close, and the marker of the
public section stands at depth zero at least once.  The names of the protocol and of its
commands play no part, and neither do carriage returns at the ends of lines.

Main definitions:

- {lit}`behind`: the lines behind the first marker of a section.
- {lit}`Divided`: lines whose braces close, with a marker of the public section outside of
  them.

Main results:

- Theorem {lit}`exists_recoverLines_iff`: the lines that are accepted.
- Theorem {lit}`exists_recover_unlines_iff`: the texts of lines that are accepted.
-/

namespace CommandSet
namespace Recovery

/-! ## Lines behind a marker -/

/-- The lines behind the first marker of a section. -/
def behind (marker : Marker) : List String → Option (List String)
  | [] => none
  | line :: lines => if marker.isOn line then some lines else behind marker lines

theorem behind_append {marker : Marker} {front rest : List String} {line : String}
    (hfront : ∀ l ∈ front, marker.isOn l = false) (hline : marker.isOn line = true) :
    behind marker (front ++ line :: rest) = some rest := by
  induction front with
  | nil => simp [behind, hline]
  | cons first front ih =>
      rw [List.forall_mem_cons] at hfront
      simp [behind, hfront.1, ih hfront.2]

/-- A section is taken where it is followed by its marker. -/
theorem exists_takeUntil_iff {marker : Marker} {lines : List SourceLine} {rest : List String} :
    (∃ front after, takeUntil marker lines = .ok (front, after) ∧ after.map (·.text) = rest) ↔
      behind marker (lines.map (·.text)) = some rest := by
  induction lines with
  | nil => simp [takeUntil, behind]
  | cons line lines ih =>
      rw [List.map_cons, takeUntil, behind]
      split
      next => simp
      next =>
        rw [← ih]
        constructor
        · rintro ⟨front, after, htake, hrest⟩
          rcases bind_eq_ok_iff.mp htake with ⟨⟨more, behind⟩, hmore, hpair⟩
          cases hpair
          exact ⟨more, after, hmore, hrest⟩
        · rintro ⟨front, after, htake, hrest⟩
          exact ⟨line.text :: front, after, bind_eq_ok_iff.mpr ⟨_, htake, rfl⟩, hrest⟩

/-! ## The depth of a scan -/

theorem Scanner.close_depth (depth since : Nat) (function : FoundFunction) :
    (Scanner.close depth since function).1.depth = depth := by
  unfold Scanner.close
  split
  next hzero => rw [hzero]; rfl
  next => rfl

theorem Scanner.Sound.depth_eq_zero_iff {stop : String → Bool} {scanner : Scanner}
    (h : scanner.Sound stop) : scanner.depth = 0 ↔ scanner.current = none := by
  cases hcurrent : scanner.current with
  | none => simp [Scanner.depth, hcurrent]
  | some current =>
      have hdepth := (h.current current hcurrent).1
      simp [Scanner.depth, hcurrent, hdepth]

/-- A line that is read leads to the depth of the next state. -/
theorem Scanner.feed_depth {scanner next : Scanner} {line : SourceLine}
    {found : Option FoundFunction} (hfeed : scanner.feed line = .ok (next, found)) :
    depthAfter scanner.depth (codePart line.text) = some next.depth := by
  rw [Scanner.feed, walkBraces_eq] at hfeed
  cases hdepth : depthAfter scanner.depth (codePart line.text) with
  | none => simp [hdepth] at hfeed
  | some depth =>
      simp only [hdepth, Option.map_some, Bool.false_or] at hfeed
      have hclose {since : Nat} {function : FoundFunction}
          (h : Except.ok (Scanner.close depth since function) =
            (Except.ok (next, found) : Except RecoveryError _)) : next.depth = depth := by
        have hnext := Scanner.close_depth depth since function
        rwa [Except.ok.inj h] at hnext
      cases hcurrent : scanner.current with
      | some current =>
          simp only [hcurrent] at hfeed
          rw [hclose hfeed]
      | none =>
          have hzero : scanner.depth = 0 := by simp [Scanner.depth, hcurrent]
          simp only [hcurrent] at hfeed
          split at hfeed
          next => rw [hclose hfeed]
          next hopen =>
            rw [List.contains_iff_mem] at hopen
            rw [hzero] at hdepth
            rw [depthAfter_of_braceless hopen (closes_of_not_opens hopen hdepth)] at hdepth
            rw [← hdepth]
            split at hfeed
            · cases hfeed
              rw [hzero]
            · cases hfeed
              rfl

/-- A line is read unless it closes a brace that was never opened. -/
theorem Scanner.exists_feed {scanner : Scanner} {line : SourceLine} {depth : Nat}
    (h : depthAfter scanner.depth (codePart line.text) = some depth) :
    ∃ next found, scanner.feed line = .ok (next, found) ∧ next.depth = depth := by
  have hread : ∃ state, scanner.feed line = .ok state := by
    rw [Scanner.feed, walkBraces_eq, h]
    simp only [Option.map_some]
    split
    · exact ⟨_, rfl⟩
    split
    · exact ⟨_, rfl⟩
    split <;> exact ⟨_, rfl⟩
  rcases hread with ⟨⟨next, found⟩, hfeed⟩
  refine ⟨next, found, hfeed, ?_⟩
  exact Option.some.inj ((Scanner.feed_depth hfeed).symm.trans h)

theorem Scanner.Sound.feed {scanner next : Scanner} {line : SourceLine}
    {found : Option FoundFunction} (h : scanner.Sound fun _ => false)
    (hfeed : scanner.feed line = .ok (next, found)) : next.Sound fun _ => false :=
  (Scanner.feed_sound h (fun _ => rfl) hfeed).1

theorem leads_cons_iff {depth after : Nat} {line : String} {lines : List String} :
    Leads depth after (line :: lines) ↔
      ∃ next, depthAfter depth (codePart line) = some next ∧ Leads next after lines := by
  rw [Leads, codeOf_cons, depthAfter_append, Option.bind_eq_some_iff]
  rfl

/-- The public section is scanned if its braces close. -/
theorem exists_scanPublic_iff {scanner : Scanner} (hsound : scanner.Sound fun _ => false)
    {lines : List SourceLine} :
    (∃ found, scanPublic scanner lines = .ok found) ↔
      Leads scanner.depth 0 (lines.map (·.text)) := by
  induction lines generalizing scanner with
  | nil =>
      have hdepth : Leads scanner.depth 0 [] ↔ scanner.current = none := by
        rw [← hsound.depth_eq_zero_iff]
        simp [Leads, depthAfter]
      rw [List.map_nil, hdepth, scanPublic]
      cases scanner.current <;> simp
  | cons line lines ih =>
      rw [List.map_cons, leads_cons_iff, scanPublic]
      constructor
      · rintro ⟨found, hfound⟩
        rcases bind_eq_ok_iff.mp hfound with ⟨⟨next, function⟩, hfeed, hrest⟩
        rcases bind_eq_ok_iff.mp hrest with ⟨more, hmore, -⟩
        exact ⟨next.depth, Scanner.feed_depth hfeed, (ih (hsound.feed hfeed)).mp ⟨more, hmore⟩⟩
      · rintro ⟨depth, hdepth, hlines⟩
        rcases Scanner.exists_feed hdepth with ⟨next, function, hfeed, rfl⟩
        rcases (ih (hsound.feed hfeed)).mpr hlines with ⟨more, hmore⟩
        exact ⟨_, bind_eq_ok_iff.mpr ⟨_, hfeed, bind_eq_ok_iff.mpr ⟨_, hmore, rfl⟩⟩⟩

/-! ## Divided sections -/

/-- Lines from a depth on whose braces close, with a marker of the public section outside
of them. -/
def Divided (depth : Nat) (lines : List String) : Prop :=
  Leads depth 0 lines ∧ ∃ front marker back, lines = front ++ marker :: back ∧
    Marker.publicFunctions.isOn marker = true ∧ Leads depth 0 front

private theorem isBlank_of_mem_before {text : List Char} (h : ['/', '/'] <+: Text.trim text) :
    ∀ c ∈ Text.before ['/', '/'] text, Text.isBlank c = true := by
  induction text with
  | nil => simp [Text.before]
  | cons c text ih =>
      rw [Text.before]
      split
      next => simp
      next hmatch =>
        cases hblank : Text.isBlank c with
        | true =>
            rw [Text.trim_blank_cons hblank] at h
            exact List.forall_mem_cons.mpr ⟨hblank, ih h⟩
        | false =>
            rw [Text.trim_cons hblank, List.cons_prefix_cons] at h
            rw [List.isPrefixOf_iff_prefix, List.cons_prefix_cons] at hmatch
            exact absurd ⟨h.1, h.2.trans (Text.trimEnd_isPrefix text)⟩ hmatch

/-- All code of a marker is blank. -/
theorem depthAfter_marker {marker : Marker} {line : String} (h : marker.isOn line = true)
    (depth : Nat) : depthAfter depth (codePart line) = some depth := by
  rw [Marker.isOn, Bool.and_eq_true, List.isPrefixOf_iff_prefix] at h
  have hslashes : ['/', '/'] <+: trimmed line := by
    refine List.IsPrefix.trans ?_ h.1
    decide
  have hblank := isBlank_of_mem_before hslashes
  refine depthAfter_of_braceless (fun hmem => ?_) (fun hmem => ?_) depth
  · exact absurd (hblank _ hmem) (by decide)
  · exact absurd (hblank _ hmem) (by decide)

/-- Lines are divided by their first line, or behind it. -/
theorem Divided.cons_iff {depth : Nat} {line : String} {lines : List String} :
    Divided depth (line :: lines) ↔
      (depth = 0 ∧ Marker.publicFunctions.isOn line = true ∧ Leads 0 0 lines) ∨
        ∃ next, depthAfter depth (codePart line) = some next ∧ Divided next lines := by
  constructor
  · rintro ⟨hleads, front, marker, back, hsplit, hmarker, hfront⟩
    rcases leads_cons_iff.mp hleads with ⟨next, hline, hlines⟩
    cases front with
    | nil =>
        rcases List.cons.inj hsplit with ⟨rfl, rfl⟩
        obtain rfl : depth = 0 := Option.some.inj hfront
        obtain rfl : next = 0 := Option.some.inj (hline.symm.trans (depthAfter_marker hmarker 0))
        exact .inl ⟨rfl, hmarker, hlines⟩
    | cons first front =>
        rcases List.cons.inj hsplit with ⟨rfl, rfl⟩
        rcases leads_cons_iff.mp hfront with ⟨other, hother, hrest⟩
        obtain rfl : other = next := Option.some.inj (hother.symm.trans hline)
        exact .inr ⟨other, hline, hlines, front, marker, back, rfl, hmarker, hrest⟩
  · rintro (⟨rfl, hmarker, hlines⟩ |
      ⟨next, hline, hlines, front, marker, back, rfl, hmarker, hfront⟩)
    · exact ⟨leads_cons_iff.mpr ⟨0, depthAfter_marker hmarker 0, hlines⟩, [], line, lines, rfl,
        hmarker, rfl⟩
    · exact ⟨leads_cons_iff.mpr ⟨next, hline, hlines⟩, line :: front, marker, back, rfl, hmarker,
        leads_cons_iff.mpr ⟨next, hline, hfront⟩⟩

/-- The private section is scanned, and the public one behind it, if the lines are divided. -/
theorem exists_scanPrivate_iff {scanner : Scanner} (hsound : scanner.Sound fun _ => false)
    {lines : List SourceLine} :
    (∃ functions pending rest, scanPrivate scanner lines = .ok (functions, pending, rest) ∧
        Leads 0 0 (rest.map (·.text))) ↔
      Divided scanner.depth (lines.map (·.text)) := by
  induction lines generalizing scanner with
  | nil => simp [scanPrivate, Divided]
  | cons line lines ih =>
      rw [List.map_cons, Divided.cons_iff, scanPrivate, hsound.depth_eq_zero_iff]
      split
      next hmarker =>
        rw [Bool.and_eq_true, Option.isNone_iff_eq_none] at hmarker
        rcases hmarker with ⟨hcurrent, hmarker⟩
        constructor
        · rintro ⟨functions, pending, rest, hok, hrest⟩
          cases hok
          exact .inl ⟨hcurrent, hmarker, hrest⟩
        · rintro (⟨-, -, hrest⟩ | ⟨next, hline, hdivided⟩)
          · exact ⟨_, _, _, rfl, hrest⟩
          · rw [hsound.depth_eq_zero_iff.mpr hcurrent, depthAfter_marker hmarker] at hline
            cases hline
            exact ⟨_, _, _, rfl, hdivided.1⟩
      next hmarker =>
        rw [Bool.and_eq_true, Option.isNone_iff_eq_none] at hmarker
        constructor
        · rintro ⟨functions, pending, rest, hok, hrest⟩
          rcases bind_eq_ok_iff.mp hok with ⟨⟨next, found⟩, hfeed, hok⟩
          rcases bind_eq_ok_iff.mp hok with ⟨⟨more, trailing, after⟩, hmore, hok⟩
          cases hok
          have hdivided := (ih (hsound.feed hfeed)).mp ⟨_, _, _, hmore, hrest⟩
          exact .inr ⟨next.depth, Scanner.feed_depth hfeed, hdivided⟩
        · rintro (⟨hcurrent, hon, -⟩ | ⟨depth, hline, hdivided⟩)
          · exact absurd ⟨hcurrent, hon⟩ hmarker
          · rcases Scanner.exists_feed hline with ⟨next, found, hfeed, rfl⟩
            rcases (ih (hsound.feed hfeed)).mpr hdivided with ⟨more, trailing, rest, hmore, hrest⟩
            refine ⟨found.toList ++ more, trailing, rest, ?_, hrest⟩
            exact bind_eq_ok_iff.mpr ⟨_, hfeed, bind_eq_ok_iff.mpr ⟨_, hmore, rfl⟩⟩

/-! ## Whole sources -/

/-- Lines with the markers of all sections, the braces behind the first two of which are
divided by the third. -/
def Accepted (lines : List String) : Prop :=
  ∃ definitions privates, behind .definitions lines = some definitions ∧
    behind .privateFunctions definitions = some privates ∧ Divided 0 privates

/-- Lines with the markers of the first two sections are accepted as the rest is divided. -/
theorem accepted_sections_iff {includes definitions rest : List String} {first second : String}
    (hincludes : ∀ l ∈ includes, Marker.definitions.isOn l = false)
    (hfirst : Marker.definitions.isOn first = true)
    (hdefinitions : ∀ l ∈ definitions, Marker.privateFunctions.isOn l = false)
    (hsecond : Marker.privateFunctions.isOn second = true) :
    Accepted (includes ++ first :: (definitions ++ second :: rest)) ↔ Divided 0 rest := by
  simp [Accepted, behind_append hincludes hfirst, behind_append hdefinitions hsecond]

/-- The lines that are accepted. -/
theorem exists_recoverLines_iff {protocol : String} {commands lines : List String} :
    (∃ code, recoverLines protocol commands lines = .ok code) ↔ Accepted lines := by
  constructor
  · rintro ⟨code, hok⟩
    rw [recoverLines] at hok
    rcases bind_eq_ok_iff.mp hok with ⟨⟨includes, afterIncludes⟩, hincludes, hok⟩
    rcases bind_eq_ok_iff.mp hok with ⟨⟨definitions, afterDefinitions⟩, hdefinitions, hok⟩
    rcases bind_eq_ok_iff.mp hok with ⟨⟨privates, trailing, afterPrivates⟩, hprivates, hok⟩
    rcases bind_eq_ok_iff.mp hok with ⟨publics, hpublics, -⟩
    have hfirst := exists_takeUntil_iff.mp ⟨includes, afterIncludes, hincludes, rfl⟩
    rw [map_text_numberLines] at hfirst
    refine ⟨_, _, hfirst, exists_takeUntil_iff.mp ⟨_, _, hdefinitions, rfl⟩, ?_⟩
    exact (exists_scanPrivate_iff Scanner.initial_sound).mp ⟨_, _, _, hprivates,
      (exists_scanPublic_iff Scanner.initial_sound).mp ⟨publics, hpublics⟩⟩
  · rintro ⟨definitions, privates, hdefinitions, hprivates, hdivided⟩
    rw [← map_text_numberLines 1 lines] at hdefinitions
    rcases exists_takeUntil_iff.mpr hdefinitions with ⟨includes, afterIncludes, hincludes, rfl⟩
    rcases exists_takeUntil_iff.mpr hprivates with ⟨between, afterDefinitions, hbetween, rfl⟩
    rcases (exists_scanPrivate_iff Scanner.initial_sound).mpr hdivided with
      ⟨functions, trailing, rest, hscan, hrest⟩
    rcases (exists_scanPublic_iff Scanner.initial_sound).mpr hrest with ⟨publics, hpublics⟩
    exact ⟨_, bind_eq_ok_iff.mpr ⟨_, hincludes, bind_eq_ok_iff.mpr ⟨_, hbetween,
      bind_eq_ok_iff.mpr ⟨_, hscan, bind_eq_ok_iff.mpr ⟨_, hpublics, rfl⟩⟩⟩⟩⟩

/-! ## Carriage returns -/

private theorem depthAfter_before_snoc {c : Char} (hslash : c ≠ '/') (hopen : c ≠ '{')
    (hclose : c ≠ '}') (depth : Nat) (text : List Char) :
    depthAfter depth (Text.before ['/', '/'] (text ++ [c])) =
      depthAfter depth (Text.before ['/', '/'] text) := by
  induction text generalizing depth with
  | nil => simp [Text.before, depthAfter_other hopen hclose, depthAfter]
  | cons first text ih =>
      have hmatch : ['/', '/'].isPrefixOf (first :: (text ++ [c])) =
          ['/', '/'].isPrefixOf (first :: text) := by
        rw [Bool.eq_iff_iff, List.isPrefixOf_iff_prefix, List.isPrefixOf_iff_prefix,
          ← List.cons_append, List.prefix_concat_iff]
        refine or_iff_right fun heq => ?_
        have hmem : c ∈ ['/', '/'] := heq ▸ List.mem_append_right _ List.mem_cons_self
        simp [hslash] at hmem
      rw [List.cons_append, Text.before, Text.before, hmatch]
      split
      next => rfl
      next =>
        have hcut (rest : List Char) : depthAfter depth (first :: rest) =
            (depthAfter depth [first]).bind (depthAfter · rest) :=
          depthAfter_append depth [first] rest
        rw [hcut, hcut (Text.before _ text)]
        simp only [ih]

theorem depthAfter_withoutReturn (depth : Nat) (line : String) :
    depthAfter depth (codePart (Text.withoutReturn line)) = depthAfter depth (codePart line) := by
  unfold codePart
  rcases Text.withoutReturn_cases line with hline | hline <;> rw [hline]
  exact (depthAfter_before_snoc (by decide) (by decide) (by decide) depth _).symm

theorem isOn_withoutReturn (marker : Marker) (line : String) :
    marker.isOn (Text.withoutReturn line) = marker.isOn line := by
  have htrimmed : trimmed (Text.withoutReturn line) = trimmed line := by
    unfold trimmed
    rcases Text.withoutReturn_cases line with hline | hline <;> rw [hline]
    exact (Text.trim_snoc (by decide) _).symm
  rw [Marker.isOn, Marker.isOn, htrimmed]

theorem leads_withoutReturn {depth after : Nat} {lines : List String} :
    Leads depth after (lines.map Text.withoutReturn) ↔ Leads depth after lines := by
  induction lines generalizing depth with
  | nil => rfl
  | cons line lines ih =>
      simp only [List.map_cons, leads_cons_iff, depthAfter_withoutReturn, ih]

theorem behind_withoutReturn (marker : Marker) (lines : List String) :
    behind marker (lines.map Text.withoutReturn) =
      (behind marker lines).map (List.map Text.withoutReturn) := by
  induction lines with
  | nil => rfl
  | cons line lines ih =>
      rw [List.map_cons, behind, behind, isOn_withoutReturn, ih]
      split <;> rfl

theorem divided_withoutReturn {depth : Nat} {lines : List String} :
    Divided depth (lines.map Text.withoutReturn) ↔ Divided depth lines := by
  induction lines generalizing depth with
  | nil => rfl
  | cons line lines ih =>
      simp only [List.map_cons, Divided.cons_iff, isOn_withoutReturn, depthAfter_withoutReturn,
        leads_withoutReturn, ih]

theorem accepted_withoutReturn {lines : List String} :
    Accepted (lines.map Text.withoutReturn) ↔ Accepted lines := by
  simp only [Accepted, behind_withoutReturn, Option.map_eq_some_iff]
  constructor
  · rintro ⟨_, _, ⟨definitions, hdefinitions, rfl⟩, hprivates, hdivided⟩
    rw [behind_withoutReturn, Option.map_eq_some_iff] at hprivates
    rcases hprivates with ⟨privates, hprivates, rfl⟩
    exact ⟨definitions, privates, hdefinitions, hprivates, divided_withoutReturn.mp hdivided⟩
  · rintro ⟨definitions, privates, hdefinitions, hprivates, hdivided⟩
    refine ⟨_, privates.map Text.withoutReturn, ⟨definitions, hdefinitions, rfl⟩, ?_,
      divided_withoutReturn.mpr hdivided⟩
    rw [behind_withoutReturn, hprivates]
    rfl

/-- The texts of lines that are accepted. -/
theorem exists_recover_unlines_iff {protocol : String} {commands lines : List String}
    (h : ∀ line ∈ lines, '\n' ∉ line.toList) :
    (∃ code, recover protocol commands (Text.unlines lines) = .ok code) ↔ Accepted lines := by
  simp only [recover, Text.lines_unlines_of_newline_free h, exists_recoverLines_iff,
    accepted_withoutReturn]

end Recovery
end CommandSet
