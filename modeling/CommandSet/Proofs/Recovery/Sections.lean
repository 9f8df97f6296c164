import CommandSet.Firmware.MainModule
import CommandSet.Proofs.Recovery.Readable

/-!
# Sections of a main module

A section of functions, one after the other and with blank lines in between, is scanned
as these functions; lines that are left over wait for the next section.

Main definition:

- {lit}`Spells`: lines that hold exactly one function.

Main results:

- Theorem {lit}`Framed.spells`, {lit}`Framed.spells_public`: a framed function is spelled in
  both sections.
- Theorem {lit}`recoverLines_sections`: lines whose sections hold functions are recovered.
-/

namespace CommandSet
namespace Recovery

open Firmware

/-! ## Functions one after the other -/

/-- The lines are found as the function, from and to a state without anything pending. -/
def Spells (stop : String → Bool) (function : FoundFunction) (lines : List String) : Prop :=
  ∀ number, Scans stop Scanner.initial (numberLines number lines) [function] Scanner.initial

theorem scans_blank {stop : String → Bool} (hstop : stop "" = false) (number : Nat) :
    Scans stop Scanner.initial (numberLines number [""]) [] Scanner.initial := by
  have hquiet : ∀ l ∈ [""], Quiet stop l :=
    List.forall_mem_singleton.mpr ⟨by decide, by decide, hstop⟩
  exact scans_quiet [] hquiet number

/-- What stands above a framed function waits. -/
theorem Framed.waits {stop : String → Bool} {function : FoundFunction} (h : Framed stop function) :
    ∀ l ∈ function.leading ++ function.doc, Waits stop l := by
  generalize hdepth : 0 = depth at h
  cases h with
  | @mk pending rest line first _ hpending hstop hopen hline hrest =>
      obtain ⟨signature, -, hparts⟩ := FoundFunction.start_parts pending line
      intro l hl
      refine hpending l ?_
      rw [← hparts]
      exact List.mem_append_left _ hl

/-- A framed function is spelled by its lines and a blank one. -/
theorem Framed.spells {stop : String → Bool} {function : FoundFunction} (h : Framed stop function)
    (hstop : stop "" = false) : Spells stop function (function.text ++ [""]) := by
  intro number
  have habove := h.waits
  have hscans := h.scans (fun l hl => (habove l hl).toQuiet) (filter_waits habove) number
  rw [numberLines_append]
  exact hscans.append (scans_blank hstop _)

/-- Functions of the public section have another blank line below what precedes them. -/
theorem Framed.spells_public {function : FoundFunction} (h : Framed (fun _ => false) function) :
    Spells (fun _ => false) function (publicFunctionLines (PublicFunction.ofFound function)) := by
  intro number
  have habove := h.waits
  rw [List.forall_mem_append] at habove
  have hleading := filter_waits habove.1
  have hdoc := filter_waits habove.2
  have hblank : Quiet (fun _ => false) "" := ⟨by decide, by decide, rfl⟩
  rw [publicFunctionLines, numberLines_append]
  refine Scans.append (h.scans ?_ ?_ number) (scans_blank rfl _)
  · rw [List.forall_mem_append]
    refine ⟨?_, fun l hl => (habove.2 l hl).toQuiet⟩
    split
    · simp
    · rw [List.forall_mem_append, List.forall_mem_singleton]
      exact ⟨fun l hl => (habove.1 l hl).toQuiet, hblank⟩
  · rw [List.filter_append]
    have hdoc : (PublicFunction.ofFound function).doc.filter (fun l => !isBlankLine l) =
        function.doc :=
      hdoc
    rw [hdoc]
    congr 1
    split
    next hempty => exact (List.isEmpty_iff.mp hempty).symm
    next =>
      rw [List.filter_append]
      change function.leading.filter _ ++ [] = function.leading
      rw [hleading, List.append_nil]

/-- Functions that are spelled one after the other are found in their order. -/
theorem scans_flatMap {stop : String → Bool} {functions : List FoundFunction}
    {write : FoundFunction → List String}
    (h : ∀ function ∈ functions, Spells stop function (write function)) (number : Nat) :
    Scans stop Scanner.initial (numberLines number (functions.flatMap write)) functions
      Scanner.initial := by
  induction functions generalizing number with
  | nil => exact .nil _
  | cons function functions ih =>
      rw [List.forall_mem_cons] at h
      rw [List.flatMap_cons, numberLines_append]
      exact (h.1 number).append (ih h.2 _)

/-! ## Sections one after the other -/

/-- Lines that wait are left over at the end of a section, with a blank line below them. -/
theorem scans_trailing {stop : String → Bool} {lines below : List String}
    (h : ∀ l ∈ lines, Waits stop l) (hbelow : ∀ l ∈ below, l = "") (hstop : stop "" = false)
    (number : Nat) :
    Scans stop Scanner.initial (numberLines number (lines ++ below)) [] ⟨lines, none⟩ := by
  have hquiet : ∀ l ∈ lines ++ below, Quiet stop l := by
    rw [List.forall_mem_append]
    refine ⟨fun l hl => (h l hl).toQuiet, fun l hl => ?_⟩
    rw [hbelow l hl]
    exact ⟨by decide, by decide, hstop⟩
  have hblank : below.filter (fun l => !isBlankLine l) = [] := by
    rw [List.filter_eq_nil_iff]
    intro l hl
    rw [hbelow l hl]
    decide
  have hscans := scans_quiet [] hquiet number
  rw [List.filter_append, filter_waits h, hblank, List.append_nil] at hscans
  exact hscans

/-- A section of functions between a blank line and lines that are left over. -/
theorem scans_section {stop : String → Bool} {functions : List FoundFunction}
    {write : FoundFunction → List String} {trailing below : List String} (hstop : stop "" = false)
    (hfunctions : ∀ function ∈ functions, Spells stop function (write function))
    (htrailing : ∀ l ∈ trailing, Waits stop l) (hbelow : ∀ l ∈ below, l = "") (number : Nat) :
    Scans stop Scanner.initial
      (numberLines number ("" :: (functions.flatMap write ++ (trailing ++ below)))) functions
      ⟨trailing, none⟩ := by
  have hblank : Scans stop Scanner.initial (numberLines number [""]) [] Scanner.initial :=
    scans_blank hstop number
  have hrest (number : Nat) : Scans stop Scanner.initial
      (numberLines number (functions.flatMap write ++ (trailing ++ below))) (functions ++ [])
      ⟨trailing, none⟩ := by
    rw [numberLines_append]
    exact (scans_flatMap hfunctions _).append (scans_trailing htrailing hbelow hstop _)
  have hall := hblank.append (hrest (number + 1))
  rw [List.nil_append, List.append_nil] at hall
  exact hall

/-- A section above its marker is taken. -/
theorem takeUntil_numberLines {marker : Marker} {front : List String} {line : String}
    (hfront : ∀ l ∈ front, marker.isOn l = false) (hline : marker.isOn line = true) (number : Nat)
    (rest : List String) :
    takeUntil marker (numberLines number (front ++ line :: rest)) =
      .ok (front, numberLines (number + front.length + 1) rest) := by
  rw [numberLines_append, takeUntil_eq_ok_iff]
  refine ⟨numberLines number front, ⟨number + front.length, line⟩, rfl, hline, ?_, ?_⟩
  · rw [← List.forall_mem_map (f := SourceLine.text) (P := fun l => marker.isOn l = false),
      map_text_numberLines]
    exact hfront
  · exact (map_text_numberLines number front).symm

/-- Lines whose sections hold functions are recovered. -/
theorem recoverLines_sections {protocol : String} {commands includes definitions privateLines
      publicLines privateTrailing publicTrailing : List String} {first second third : String}
    {privates publics : List FoundFunction}
    (hincludes : ∀ l ∈ includes, Marker.definitions.isOn l = false)
    (hfirst : Marker.definitions.isOn first = true)
    (hdefinitions : ∀ l ∈ definitions, Marker.privateFunctions.isOn l = false)
    (hsecond : Marker.privateFunctions.isOn second = true)
    (hprivates : ∀ number, Scans Marker.publicFunctions.isOn Scanner.initial
      (numberLines number privateLines) privates ⟨privateTrailing, none⟩)
    (hthird : Marker.publicFunctions.isOn third = true)
    (hpublics : ∀ number, Scans (fun _ => false) Scanner.initial (numberLines number publicLines)
      publics ⟨publicTrailing, none⟩) :
    recoverLines protocol commands
        (includes ++ first :: (definitions ++ second :: (privateLines ++ third :: publicLines))) =
      .ok
        { includes := includes
          definitions := definitions
          handlers := (PrivateCode.ofFunctions protocol commands privates).handlers
          unknown := (PrivateCode.ofFunctions protocol commands privates).unknown
          fallback := (PrivateCode.ofFunctions protocol commands privates).fallback
          privateTrailing := privateTrailing
          publicFunctions := publics.map PublicFunction.ofFound
          publicTrailing := publicTrailing } := by
  have hscanPrivate (number : Nat) :
      scanPrivate Scanner.initial (numberLines number (privateLines ++ third :: publicLines)) =
        .ok (privates, privateTrailing,
          numberLines (number + privateLines.length + 1) publicLines) := by
    rw [numberLines_append, scanPrivate_eq_ok_iff]
    exact ⟨_, ⟨number + privateLines.length, third⟩, rfl, hthird, hprivates number⟩
  have hscanPublic (number : Nat) :
      scanPublic Scanner.initial (numberLines number publicLines) = .ok (publics, publicTrailing) :=
    scanPublic_eq_ok_iff.mpr (hpublics number)
  simp only [recoverLines, bind, Except.bind, takeUntil_numberLines hincludes hfirst,
    takeUntil_numberLines hdefinitions hsecond, hscanPrivate, hscanPublic]
  rfl


end Recovery
end CommandSet
