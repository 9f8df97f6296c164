import CommandSet.Proofs.Recovery.Fallbacks
import CommandSet.Proofs.Recovery.Kept

/-!
# Recovered code can be written again

Whatever is recovered from a source has a form that recovery splits in the same way when
it is written again.  This is where code that is read meets code that is written.

Main definitions:

- {lit}`privateFunctions`: the functions in the private section of a source.
- {lit}`Sectioned`: an accepted source, cut at its markers.
- {lit}`RecoveredFrom`: code in the functions of a source.
- {lit}`Readable`: code that recovery splits as it was.

Main results:

- Theorem {lit}`recoveredFrom_of_recover`: what is recovered stands in the source.
- Theorem {lit}`readable_of_recover`: what is recovered is readable.
-/

namespace CommandSet
namespace Recovery

open Text (IsLine)

/-! ## The functions of a source -/

/-- The functions in the private section of a source. -/
def privateFunctions (source : String) : Except RecoveryError (List FoundFunction) := do
  let (_, rest) ← takeUntil .definitions (numberLines 1 (Text.lines source))
  let (_, rest) ← takeUntil .privateFunctions rest
  let (functions, _, _) ← scanPrivate Scanner.initial rest
  pure functions

/-- A section goes up to its marker. -/
theorem takeUntil_eq_ok_iff {marker : Marker} {lines rest : List SourceLine} {front : List String} :
    takeUntil marker lines = .ok (front, rest) ↔
      ∃ above line, lines = above ++ line :: rest ∧ marker.isOn line.text = true ∧
        (∀ l ∈ above, marker.isOn l.text = false) ∧ front = above.map (·.text) := by
  induction lines generalizing front with
  | nil => simp [takeUntil]
  | cons line lines ih =>
      rw [takeUntil]
      by_cases hmarker : marker.isOn line.text = true
      · rw [if_pos hmarker]
        constructor
        · intro h
          cases h
          exact ⟨[], line, rfl, hmarker, by simp, rfl⟩
        · rintro ⟨above, last, hlines, -, habove, rfl⟩
          cases above with
          | nil =>
              obtain ⟨rfl, rfl⟩ := List.cons.inj hlines
              rfl
          | cons first above =>
              obtain ⟨rfl, -⟩ := List.cons.inj hlines
              rw [List.forall_mem_cons, hmarker] at habove
              cases habove.1
      · rw [if_neg hmarker]
        constructor
        · intro h
          obtain ⟨⟨more, after⟩, hmore, h⟩ := bind_eq_ok_iff.mp h
          cases h
          obtain ⟨above, last, rfl, hlast, habove, rfl⟩ := ih.mp hmore
          refine ⟨line :: above, last, rfl, hlast, ?_, rfl⟩
          rw [List.forall_mem_cons]
          exact ⟨Bool.not_eq_true _ ▸ hmarker, habove⟩
        · rintro ⟨above, last, hlines, hlast, habove, rfl⟩
          cases above with
          | nil =>
              obtain ⟨rfl, -⟩ := List.cons.inj hlines
              exact absurd hlast hmarker
          | cons first above =>
              obtain ⟨rfl, rfl⟩ := List.cons.inj hlines
              rw [List.forall_mem_cons] at habove
              have hmore := ih.mpr ⟨above, last, rfl, hlast, habove.2, rfl⟩
              simp only [bind, Except.bind, hmore]
              rfl

/-! ## Readable code -/

/-- Code that recovery splits as it was once it is written into a module. -/
structure Readable (protocol : String) (commands : List String) (code : RecoveredCode) : Prop where
  includes : ∀ line ∈ code.includes, Marker.definitions.isOn line = false
  definitions : ∀ line ∈ code.definitions, Marker.privateFunctions.isOn line = false
  sections : ∀ line ∈ code.includes ++ code.definitions, IsLine line
  /-- Functions that belong to no command are found as they are. -/
  unknown : ∀ lines ∈ code.unknown, ∃ function,
    Legible Marker.publicFunctions.isOn function ∧
      ownerOf protocol commands function.signature = .nobody ∧ function.text = lines
  /-- Handlers have a signature that names their command. -/
  handlers : ∀ handler ∈ code.handlers, ∃ function,
    Legible Marker.publicFunctions.isOn function ∧
      ownerOf protocol commands function.signature = .handler handler.1 ∧
      function.body = handler.2
  /-- The fallback ends where its dispatcher says so. -/
  fallback : ∀ block ∈ code.fallback,
    Balanced block ∧ BreaksInside block ∧ ∀ line ∈ block, IsLine line
  privateTrailing : ∀ line ∈ code.privateTrailing,
    Waits Marker.publicFunctions.isOn line ∧ IsLine line
  publicFunctions : ∀ function ∈ code.publicFunctions, ∃ found,
    Legible (fun _ => false) found ∧ PublicFunction.ofFound found = function
  publicTrailing : ∀ line ∈ code.publicTrailing, Waits (fun _ => false) line ∧ IsLine line

/-- Functions that are written anew have nothing above their comment. -/
def LeadingFree (protocol : String) (commands : List String) (function : FoundFunction) : Prop :=
  ownerOf protocol commands function.signature ≠ .nobody → function.leading = []

instance (protocol : String) (commands : List String) (function : FoundFunction) :
    Decidable (LeadingFree protocol commands function) :=
  inferInstanceAs (Decidable (_ → _))

/-! ## Recovered code -/

/-- Code that is recovered from lines with certain functions in their two sections. -/
structure RecoveredFrom (protocol : String) (commands lines : List String)
    (privates publics : List FoundFunction) (code : RecoveredCode) : Prop where
  includes : ∀ line ∈ code.includes, Marker.definitions.isOn line = false
  definitions : ∀ line ∈ code.definitions, Marker.privateFunctions.isOn line = false
  /-- Lines are dropped, but neither changed nor moved. -/
  sublist : (code.includes ++ code.definitions ++
    (privates.flatMap FoundFunction.text ++ code.privateTrailing) ++
      (publics.flatMap FoundFunction.text ++ code.publicTrailing)).Sublist lines
  framed : ∀ function ∈ privates, Framed Marker.publicFunctions.isOn function
  privateTrailing : ∀ line ∈ code.privateTrailing, Waits Marker.publicFunctions.isOn line
  publicFramed : ∀ function ∈ publics, Framed (fun _ => false) function
  publicTrailing : ∀ line ∈ code.publicTrailing, Waits (fun _ => false) line
  kept : PrivateCode.ofFunctions protocol commands privates =
    ⟨code.handlers, code.unknown, code.fallback⟩
  publicFunctions : code.publicFunctions = publics.map PublicFunction.ofFound

/-- The lines of an accepted source, cut at the markers of its sections, and the functions that
are found in the last two of them. -/
structure Sectioned (protocol : String) (commands lines : List String) (code : RecoveredCode) where
  includes : List SourceLine
  first : SourceLine
  definitions : List SourceLine
  second : SourceLine
  privates : List SourceLine
  third : SourceLine
  publics : List SourceLine
  privateFound : List FoundFunction
  publicFound : List FoundFunction
  lines_eq : numberLines 1 lines =
    includes ++ first :: (definitions ++ second :: (privates ++ third :: publics))
  includes_off : ∀ line ∈ includes, Marker.definitions.isOn line.text = false
  first_on : Marker.definitions.isOn first.text = true
  definitions_off : ∀ line ∈ definitions, Marker.privateFunctions.isOn line.text = false
  second_on : Marker.privateFunctions.isOn second.text = true
  privateScans : Scans Marker.publicFunctions.isOn Scanner.initial privates privateFound
    ⟨code.privateTrailing, none⟩
  third_on : Marker.publicFunctions.isOn third.text = true
  publicScans : Scans (fun _ => false) Scanner.initial publics publicFound
    ⟨code.publicTrailing, none⟩
  includes_eq : code.includes = includes.map (·.text)
  definitions_eq : code.definitions = definitions.map (·.text)
  kept : PrivateCode.ofFunctions protocol commands privateFound =
    ⟨code.handlers, code.unknown, code.fallback⟩
  publicFunctions : code.publicFunctions = publicFound.map PublicFunction.ofFound

/-- Every accepted source is cut and scanned. -/
theorem exists_sectioned {protocol source : String} {commands : List String}
    {code : RecoveredCode} (h : recover protocol commands source = .ok code) :
    ∃ parts : Sectioned protocol commands (Text.lines source) code,
      privateFunctions source = .ok parts.privateFound := by
  rw [recover, recoverLines] at h
  obtain ⟨⟨includes, afterIncludes⟩, hincludes, h⟩ := bind_eq_ok_iff.mp h
  obtain ⟨⟨definitions, afterDefinitions⟩, hdefinitions, h⟩ := bind_eq_ok_iff.mp h
  obtain ⟨⟨privates, privateTrailing, afterPrivate⟩, hprivate, h⟩ := bind_eq_ok_iff.mp h
  obtain ⟨⟨publics, publicTrailing⟩, hpublic, h⟩ := bind_eq_ok_iff.mp h
  cases h
  have hfunctions : privateFunctions source = .ok privates := by
    simp only [privateFunctions, bind, Except.bind, hincludes, hdefinitions, hprivate]
    rfl
  obtain ⟨above, first, hlines, hfirst, habove, rfl⟩ := takeUntil_eq_ok_iff.mp hincludes
  obtain ⟨between, second, rfl, hsecond, hbetween, rfl⟩ := takeUntil_eq_ok_iff.mp hdefinitions
  obtain ⟨front, third, rfl, hthird, hprivateScans⟩ := scanPrivate_eq_ok_iff.mp hprivate
  have hpublicScans := scanPublic_eq_ok_iff.mp hpublic
  exact ⟨⟨above, first, between, second, front, third, afterPrivate, privates, publics, hlines,
    habove, hfirst, hbetween, hsecond, hprivateScans, hthird, hpublicScans, rfl, rfl, rfl, rfl⟩,
    hfunctions⟩

/-- The first two sections are kept as they stand. -/
theorem Sectioned.text_eq {protocol : String} {commands lines : List String} {code : RecoveredCode}
    (parts : Sectioned protocol commands lines code) :
    lines = code.includes ++ parts.first.text :: (code.definitions ++ parts.second.text ::
      (parts.privates.map (·.text) ++ parts.third.text :: parts.publics.map (·.text))) := by
  have htexts := map_text_numberLines 1 lines
  rw [parts.lines_eq] at htexts
  refine htexts.symm.trans ?_
  rw [parts.includes_eq, parts.definitions_eq]
  simp

/-- All that is recovered from a source stands in it. -/
theorem recoveredFrom_of_recover {protocol source : String} {commands : List String}
    {code : RecoveredCode} (h : recover protocol commands source = .ok code) :
    ∃ privates publics, privateFunctions source = .ok privates ∧
      RecoveredFrom protocol commands (Text.lines source) privates publics code := by
  obtain ⟨parts, hfunctions⟩ := exists_sectioned h
  obtain ⟨hprivateLast, hprivateFramed⟩ := parts.privateScans.framed Scanner.initial_sound
  obtain ⟨hpublicLast, hpublicFramed⟩ := parts.publicScans.framed Scanner.initial_sound
  have hprivateText :
      (parts.privateFound.flatMap FoundFunction.text ++ code.privateTrailing).Sublist
      (parts.privates.map (·.text)) := parts.privateScans.sublist
  have hpublicText : (parts.publicFound.flatMap FoundFunction.text ++ code.publicTrailing).Sublist
      (parts.publics.map (·.text)) := parts.publicScans.sublist
  have hbehind := hprivateText.append (hpublicText.cons parts.third.text)
  have hfront := (List.Sublist.refl code.definitions).append (hbehind.cons parts.second.text)
  have hwhole := (List.Sublist.refl code.includes).append (hfront.cons parts.first.text)
  refine ⟨parts.privateFound, parts.publicFound, hfunctions, ?_, ?_, ?_, hprivateFramed,
    hprivateLast.pending, hpublicFramed, hpublicLast.pending, parts.kept, parts.publicFunctions⟩
  · rw [parts.includes_eq]
    exact List.forall_mem_map.mpr parts.includes_off
  · rw [parts.definitions_eq]
    exact List.forall_mem_map.mpr parts.definitions_off
  · rw [← parts.text_eq] at hwhole
    simpa only [List.append_assoc] using hwhole

namespace RecoveredFrom

variable {protocol : String} {commands lines : List String} {privates publics : List FoundFunction}
  {code : RecoveredCode}

/-- What holds of all lines of the source holds of all that is recovered. -/
theorem forall_lines {p : String → Prop}
    (h : RecoveredFrom protocol commands lines privates publics code)
    (hp : ∀ line ∈ lines, p line) :
    ((∀ line ∈ code.includes, p line) ∧ ∀ line ∈ code.definitions, p line) ∧
      ((∀ function ∈ privates, ∀ line ∈ function.text, p line) ∧
        ∀ line ∈ code.privateTrailing, p line) ∧
      (∀ function ∈ publics, ∀ line ∈ function.text, p line) ∧
        ∀ line ∈ code.publicTrailing, p line := by
  have hall : ∀ line ∈ code.includes ++ code.definitions ++
      (privates.flatMap FoundFunction.text ++ code.privateTrailing) ++
        (publics.flatMap FoundFunction.text ++ code.publicTrailing), p line :=
    fun line hline => hp line (h.sublist.subset hline)
  simp only [List.forall_mem_append, List.forall_mem_flatMap] at hall
  exact ⟨hall.1.1, hall.1.2, hall.2⟩

theorem function_of_handler (h : RecoveredFrom protocol commands lines privates publics code)
    {handler : String × List String} (hmem : handler ∈ code.handlers) :
    ∃ function ∈ privates, ownerOf protocol commands function.signature = .handler handler.1 ∧
      function.body = handler.2 := by
  have hkept : handler ∈ (PrivateCode.ofFunctions protocol commands privates).handlers := by
    rw [h.kept]
    exact hmem
  exact function_of_mem_handlers hkept

theorem function_of_unknown (h : RecoveredFrom protocol commands lines privates publics code)
    {text : List String} (hmem : text ∈ code.unknown) :
    ∃ function ∈ privates,
      (ownerOf protocol commands function.signature = .nobody ∧ text = function.text) ∨
        (ownerOf protocol commands function.signature ≠ .nobody ∧ function.leading ≠ [] ∧
          text = function.leading) := by
  have hkept : text ∈ (PrivateCode.ofFunctions protocol commands privates).unknown := by
    rw [h.kept]
    exact hmem
  exact function_of_mem_unknown hkept

theorem function_of_fallback (h : RecoveredFrom protocol commands lines privates publics code)
    {block : List String} (hmem : block ∈ code.fallback) :
    ∃ function ∈ privates, fallbackOf function.body = some block := by
  have hkept : block ∈ (PrivateCode.ofFunctions protocol commands privates).fallback := by
    rw [h.kept]
    exact hmem
  exact function_of_mem_fallback hkept

end RecoveredFrom

/-- What is recovered can be written and recovered again. -/
theorem readable_of_recover {protocol source : String} {commands : List String}
    {code : RecoveredCode} (h : recover protocol commands source = .ok code)
    (hlines : ∀ line ∈ Text.lines source, line.toList.getLast? ≠ some '\r')
    (hleading : ∀ functions, privateFunctions source = .ok functions →
      ∀ function ∈ functions, LeadingFree protocol commands function)
    (hfallback : ∀ block ∈ code.fallback, Balanced block) : Readable protocol commands code := by
  obtain ⟨privates, publics, hfunctions, hfrom⟩ := recoveredFrom_of_recover h
  have hisLine : ∀ line ∈ Text.lines source, IsLine line :=
    fun line hline => ⟨Text.newline_not_mem_of_mem_lines hline, hlines line hline⟩
  obtain ⟨⟨hincludes, hdefinitions⟩, ⟨hprivates, htrailing⟩, hpublics, hpublicTrailing⟩ :=
    hfrom.forall_lines hisLine
  refine ⟨hfrom.includes, hfrom.definitions, ?_, ?_, ?_, ?_, ?_, ?_, ?_⟩
  · rw [List.forall_mem_append]
    exact ⟨hincludes, hdefinitions⟩
  · intro lines hmem
    obtain ⟨function, hfunction, hlines⟩ := hfrom.function_of_unknown hmem
    have hlegible : Legible Marker.publicFunctions.isOn function :=
      ⟨hfrom.framed function hfunction, hprivates function hfunction⟩
    rcases hlines with ⟨howner, rfl⟩ | ⟨howner, hne, -⟩
    · exact ⟨function, hlegible, howner, rfl⟩
    · exact absurd (hleading privates hfunctions function hfunction howner) hne
  · intro handler hmem
    obtain ⟨function, hfunction, howner, hbody⟩ := hfrom.function_of_handler hmem
    exact ⟨function, ⟨hfrom.framed function hfunction, hprivates function hfunction⟩, howner, hbody⟩
  · intro block hblock
    have hbalanced := hfallback block hblock
    obtain ⟨function, hfunction, hfound⟩ := hfrom.function_of_fallback hblock
    refine ⟨hbalanced, breaksInside_of_fallbackOf hfound hbalanced, fun line hline => ?_⟩
    refine hprivates function hfunction line ?_
    exact List.mem_append_right _ (mem_of_fallbackOf hfound hline)
  · exact fun line hline => ⟨hfrom.privateTrailing line hline, htrailing line hline⟩
  · rw [hfrom.publicFunctions, List.forall_mem_map]
    exact fun function hfunction =>
      ⟨function, ⟨hfrom.publicFramed function hfunction, hpublics function hfunction⟩, rfl⟩
  · exact fun line hline => ⟨hfrom.publicTrailing line hline, hpublicTrailing line hline⟩

end Recovery
end CommandSet
