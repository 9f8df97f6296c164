import CommandSet.Proofs.Recovery.ReadBack

/-!
# Edited modules

A fresh main module is edited inside of the braces of its handlers and in the fallback of
its dispatcher.  Lines that balance their braces come back when the module is recovered and
generated anew.

Main definitions:

- {lit}`Edits`, {lit}`Edits.apply`: edits of a fresh module.
- {lit}`Edits.Fit`: edits that recovery can tell from what is generated.

Main results:

- Theorem {lit}`apply_own`: a fresh module is its own edit.
- Theorem {lit}`recover_edited`: edits survive regeneration.
-/

namespace CommandSet
namespace Recovery

open Firmware
open Text (IsLine)

/-! ## Edits -/

/-- A body with other lines between its first and its last. -/
def withMiddle (middle body : List String) : List String :=
  body.take 1 ++ middle ++ body.drop (body.length - 1)

/-- Lines in the place of generated ones. -/
structure Edits where
  /-- The lines inside of the braces of a command's handler. -/
  handler : Command → List String
  /-- The lines between {lit}`default:` and its {lit}`break;`. -/
  fallback : List String

namespace Edits

/-- A fresh main module with its edits. -/
def apply (edits : Edits) (prepared : Prepared) (role : Role) : MainModule :=
  let fresh := MainModule.build prepared role none
  { fresh with
    handlers := (prepared.protocol.received role).map fun cmd =>
      let handler := MainModule.handlerOf prepared.protocol.name none cmd
      { handler with body := withMiddle (edits.handler cmd) handler.body }
    dispatcher := { fresh.dispatcher with fallback := edits.fallback } }

/-- The lines that a fresh module holds itself. -/
def own (protocol : String) : Edits :=
  ⟨Handler.stubMiddle protocol, defaultFallback⟩

/-- Edits of whole lines that balance their braces, and whose fallback holds no
{lit}`break;` outside of its own braces. -/
structure Fit (edits : Edits) (protocol : Protocol) (role : Role) : Prop where
  handler_balanced : ∀ cmd ∈ protocol.received role, Balanced (edits.handler cmd)
  handler_lines : ∀ cmd ∈ protocol.received role, ∀ line ∈ edits.handler cmd, IsLine line
  fallback_balanced : Balanced edits.fallback
  fallback_breaks : BreaksInside edits.fallback
  fallback_lines : ∀ line ∈ edits.fallback, IsLine line

end Edits

theorem withMiddle_eq (middle old : List String) (first last : String) :
    withMiddle middle (first :: (old ++ [last])) = first :: (middle ++ [last]) := by
  have hlength : (first :: (old ++ [last])).length - 1 = (first :: old).length := by simp
  rw [withMiddle, hlength, ← List.cons_append, List.drop_left]
  rfl

/-- The edited handler of a command is its signature, the edit and a closing brace. -/
theorem withMiddle_stub (protocol : String) (cmd : Command) (middle : List String) :
    withMiddle middle (Handler.stub protocol cmd) =
      (stubFunction protocol cmd middle).body := by
  rw [Handler.stub_eq, withMiddle_eq]
  rfl

/-- A fresh module is edited to itself by its own lines. -/
theorem apply_own (prepared : Prepared) (role : Role) :
    (Edits.own prepared.protocol.name).apply prepared role =
      MainModule.build prepared role none := by
  have hhandlers : ((Edits.own prepared.protocol.name).apply prepared role).handlers =
      (MainModule.build prepared role none).handlers := by
    refine List.map_congr_left fun cmd _ => ?_
    change Handler.mk _ (withMiddle (Handler.stubMiddle prepared.protocol.name cmd)
      (Handler.stub prepared.protocol.name cmd)) = _
    rw [withMiddle_stub]
    change _ = Handler.mk _ (Handler.stub prepared.protocol.name cmd)
    rw [Handler.stub_eq]
    rfl
  rw [Edits.apply] at hhandlers ⊢
  simp only at hhandlers ⊢
  rw [hhandlers]
  rfl

/-! ## The sections of a fresh module -/

/-- Characters that no line with a name in it holds. -/
def sectionBreaks : List Char :=
  ['/', '\n', '\r']

theorem mem_of_mem_trimmed {line : String} {c : Char} (h : c ∈ trimmed line) : c ∈ line.toList := by
  rw [trimmed, Text.trim, Text.trimEnd, List.mem_reverse] at h
  have hreverse := (List.dropWhile_suffix Text.isBlank).subset h
  rw [List.mem_reverse, Text.trimStart] at hreverse
  exact (List.dropWhile_suffix Text.isBlank).subset hreverse

/-- Lines that stay in a section. -/
structure SectionLine (marker : Marker) (line : String) : Prop where
  marker : marker.isOn line = false
  isLine : IsLine line

instance (marker : Marker) (line : String) : Decidable (SectionLine marker line) :=
  decidable_of_iff (marker.isOn line = false ∧ IsLine line)
    ⟨fun h => ⟨h.1, h.2⟩, fun h => ⟨h.marker, h.isLine⟩⟩

/-- Lines without a slash stay in every section. -/
theorem sectionLine_of_avoids {marker : Marker} {line : String} (h : Avoids sectionBreaks line) :
    SectionLine marker line where
  marker := by
    have hslash : ¬"// ***".toList.isPrefixOf (trimmed line) = true := by
      rw [List.isPrefixOf_iff_prefix]
      intro hmatch
      exact h '/' (by decide) (mem_of_mem_trimmed (hmatch.subset List.mem_cons_self))
    rw [Marker.isOn, Bool.eq_false_iff.mpr hslash, Bool.false_and]
  isLine :=
    { newline := h '\n' (by decide)
      carriage := fun hlast => h '\r' (by decide) (List.mem_of_getLast? hlast) }

theorem avoids_name {name : String} (h : IsWord name) : Avoids sectionBreaks name :=
  h.avoids (by simp [sectionBreaks, IsNameRest, IsNameStart])

/-- The includes of a fresh module stay in their section. -/
theorem sectionLine_includes {protocol : String} (h : IsName protocol) (role : Role) :
    ∀ line ∈ defaultIncludes protocol role, SectionLine .definitions line := by
  have hname := avoids_name h.isWord
  have hlabel : Avoids sectionBreaks role.label := by cases role <;> decide
  have hletter : Avoids sectionBreaks role.letter := by cases role <;> decide
  have hbridge : Naming.bridgeHeaderFile protocol = "LCSF_Bridge_" ++ protocol ++ ".h" := rfl
  simp only [defaultIncludes, banner, Naming.mainSourceFile, hbridge, Naming.mainHeaderFile,
    List.forall_mem_append, List.forall_mem_cons, List.not_mem_nil, false_implies, implies_true,
    and_true]
  refine ⟨⟨by decide, sectionLine_of_avoids ?_, sectionLine_of_avoids ?_, by decide, by decide,
    by decide, by decide⟩, by decide, by decide, by decide, by decide, by decide,
    sectionLine_of_avoids ?_, sectionLine_of_avoids ?_, by decide⟩
  · simp only [avoids_append]
    exact ⟨.fixed rfl, ⟨⟨hname, .fixed rfl⟩, hletter⟩, .fixed rfl⟩
  · simp only [avoids_append]
    exact ⟨.fixed rfl, ⟨⟨hname, .fixed rfl⟩, hlabel⟩, .fixed rfl⟩
  · simp only [avoids_append]
    exact ⟨⟨.fixed rfl, ⟨.fixed rfl, hname⟩, .fixed rfl⟩, .fixed rfl⟩
  · simp only [avoids_append]
    exact ⟨⟨.fixed rfl, hname, .fixed rfl⟩, .fixed rfl⟩

/-- The definitions of a fresh module stay in their section. -/
theorem sectionLine_definitions {protocol : String} (h : IsName protocol) :
    ∀ line ∈ defaultDefinitions protocol, SectionLine .privateFunctions line := by
  have hname := avoids_name h.isWord
  have hlower := avoids_name h.isWord.lower
  simp only [defaultDefinitions, Naming.payloadUnion, opening, List.forall_mem_cons,
    List.not_mem_nil, false_implies, implies_true, and_true]
  refine ⟨by decide, sectionLine_of_avoids ?_, by decide, by decide, sectionLine_of_avoids ?_,
    sectionLine_of_avoids ?_, by decide, by decide, sectionLine_of_avoids ?_, by decide⟩
  · simp only [avoids_append]
    exact ⟨⟨⟨.fixed rfl, hlower⟩, .fixed rfl⟩, .fixed rfl⟩
  · simp only [avoids_indent (by decide : ' ' ∉ sectionBreaks), avoids_append]
    exact ⟨⟨hlower, .fixed rfl⟩, .fixed rfl⟩
  · simp only [avoids_append]
    exact ⟨⟨⟨.fixed rfl, .fixed rfl⟩, hlower⟩, .fixed rfl⟩
  · simp only [avoids_append]
    exact ⟨⟨⟨⟨.fixed rfl, hlower⟩, .fixed rfl⟩, hname⟩, .fixed rfl⟩

/-! ## Regeneration -/

namespace Edits

/-- What is recovered from a fresh module with its edits. -/
def code (edits : Edits) (protocol : Protocol) (role : Role) : RecoveredCode :=
  { includes := defaultIncludes protocol.name role
    definitions := defaultDefinitions protocol.name
    handlers := (protocol.received role).map fun cmd =>
      (cmd.name, withMiddle (edits.handler cmd) (Handler.stub protocol.name cmd))
    unknown := []
    fallback := some edits.fallback
    privateTrailing := []
    publicFunctions := defaultPublicFunctions protocol.name
    publicTrailing := [] }

end Edits

section

variable {prepared : Prepared} {role : Role} {edits : Edits}

/-- A module with its edits is made of their code. -/
theorem build_code (hwell : WellFormed prepared.protocol) :
    MainModule.build prepared role (some (edits.code prepared.protocol role)) =
      edits.apply prepared role := by
  have hhandlers : (prepared.protocol.received role).map
        (MainModule.handlerOf prepared.protocol.name (some (edits.code prepared.protocol role))) =
      (edits.apply prepared role).handlers := by
    refine List.map_congr_left fun cmd hcmd => ?_
    have hlookup : (edits.code prepared.protocol role).handler? cmd.name =
        some (withMiddle (edits.handler cmd) (Handler.stub prepared.protocol.name cmd)) :=
      lookup_map_name (nodup_received hwell) hcmd
    simp only [MainModule.handlerOf, Option.bind_some, hlookup, Option.getD_some]
    rfl
  simp only [MainModule.build, hhandlers]
  rfl

/-- The code of edits is complete. -/
theorem completed_code (hwell : WellFormed prepared.protocol) :
    completed prepared role (edits.code prepared.protocol role) =
      edits.code prepared.protocol role := by
  have hhandlers : (completed prepared role (edits.code prepared.protocol role)).handlers =
      (edits.code prepared.protocol role).handlers := by
    refine List.map_congr_left fun cmd hcmd => ?_
    have hlookup : (edits.code prepared.protocol role).handler? cmd.name =
        some (withMiddle (edits.handler cmd) (Handler.stub prepared.protocol.name cmd)) :=
      lookup_map_name (nodup_received hwell) hcmd
    rw [bodyOf, hlookup, Option.getD_some]
  rw [completed] at hhandlers ⊢
  simp only at hhandlers
  rw [hhandlers]
  rfl

/-- The code of edits that fit is readable. -/
theorem readable_code (hwell : WellFormed prepared.protocol)
    (hrecoverable : Recoverable prepared.protocol role) (hfit : edits.Fit prepared.protocol role) :
    Readable prepared.protocol.name (commandNames prepared.protocol)
      (edits.code prepared.protocol role) := by
  have hincludes := sectionLine_includes hwell.protocol_name role
  have hdefinitions := sectionLine_definitions hwell.protocol_name
  refine
    { includes := fun line hline => (hincludes line hline).marker
      definitions := fun line hline => (hdefinitions line hline).marker
      sections := ?_
      unknown := fun _ h => absurd h List.not_mem_nil
      handlers := ?_
      fallback := ?_
      privateTrailing := fun _ h => absurd h List.not_mem_nil
      publicFunctions := exists_legible_defaultPublicFunctions hwell.protocol_name
      publicTrailing := fun _ h => absurd h List.not_mem_nil }
  · rw [List.forall_mem_append]
    exact ⟨fun line hline => (hincludes line hline).isLine,
      fun line hline => (hdefinitions line hline).isLine⟩
  · intro handler hhandler
    obtain ⟨cmd, hcmd, rfl⟩ := List.mem_map.mp hhandler
    have hmem := received_subset hcmd
    have howner := ownerOf_handler hwell.protocol_name
      (List.forall_mem_map.mpr hwell.command_names) (List.mem_map_of_mem hmem)
      (hrecoverable.handlers cmd hcmd) (isSignature_handler hwell.protocol_name cmd)
    refine ⟨stubFunction prepared.protocol.name cmd (edits.handler cmd), ?_, howner, ?_⟩
    · exact legible_handler hwell.protocol_name (hwell.command_names cmd hmem)
        (hrecoverable.descriptions cmd hcmd) (hfit.handler_balanced cmd hcmd)
        (hfit.handler_lines cmd hcmd) _
    · exact (withMiddle_stub _ _ _).symm
  · intro block hblock
    obtain rfl : edits.fallback = block := Option.some.inj hblock
    exact ⟨hfit.fallback_balanced, hfit.fallback_breaks, hfit.fallback_lines⟩

/-- Edits of a fresh module are recovered and generated again. -/
theorem recover_edited {protocol : Protocol} (hprepare : prepare protocol = .ok prepared)
    (hrecoverable : Recoverable protocol role) (hfit : edits.Fit protocol role) :
    ∃ code, recover protocol.name (commandNames protocol) (edits.apply prepared role).text =
      .ok code ∧
      (MainModule.build prepared role (some code)).text = (edits.apply prepared role).text ∧
      (∀ cmd ∈ protocol.received role, code.handler? cmd.name =
        some (withMiddle (edits.handler cmd) (Handler.stub protocol.name cmd))) ∧
      code.fallback = some edits.fallback := by
  obtain ⟨rfl, hwell⟩ := wellFormed_of_prepare hprepare
  have hreadable := @readable_code (Prepared.ofProtocol protocol) _ _ hwell hrecoverable hfit
  have hrecover := @recover_build (Prepared.ofProtocol protocol) _ _ hwell hrecoverable hreadable
  rw [build_code hwell, completed_code hwell] at hrecover
  refine ⟨edits.code protocol role, hrecover, ?_, ?_, rfl⟩
  · exact congrArg MainModule.text (build_code hwell)
  · exact fun cmd hcmd => lookup_map_name (nodup_received hwell) hcmd

end

/-! ## A module with edits -/

/-- Two commands, the name of one of which starts that of the other. -/
private def valve : Protocol :=
  ⟨"Valve", 3, [⟨"Open", 1, .aToB, [], "by hand"⟩, ⟨"OpenAll", 2, .aToB, [], ""⟩]⟩

/-- Lines with a brace in a comment. -/
private def valveLines : List String :=
  [r"    if (stuck) {", r"        return false; // }", r"    }", "    return true;"]

/-- A {lit}`break;` inside of a loop. -/
private def valveFallback : List String :=
  [r"            for (;;) {", "                break;", r"            }"]

private def valveEdits : Edits :=
  ⟨fun _ => valveLines, valveFallback⟩

private theorem valve_recoverable : Recoverable valve .b where
  descriptions := by decide
  handlers := by decide

private theorem valveEdits_fit : valveEdits.Fit valve .b where
  handler_balanced := fun _ _ => (by decide : Balanced valveLines)
  handler_lines := fun _ _ => (by decide : ∀ line ∈ valveLines, IsLine line)
  fallback_balanced := (by decide : Balanced valveFallback)
  fallback_breaks := by
    have hread : fallbackOf ("default:" :: (valveFallback ++ ["break;"])) = some valveFallback := by
      decide
    exact breaksInside_of_fallbackOf hread (by decide)
  fallback_lines := (by decide : ∀ line ∈ valveFallback, IsLine line)

/-- The edits of two handlers and a fallback come back. -/
theorem recover_edited_valve :
    ∃ code, recover "Valve" ["Open", "OpenAll"]
        (valveEdits.apply (Prepared.ofProtocol valve) .b).text = .ok code ∧
      (MainModule.build (Prepared.ofProtocol valve) .b (some code)).text =
        (valveEdits.apply (Prepared.ofProtocol valve) .b).text ∧
      code.handler? "OpenAll" =
        some [r"static bool ValveExecuteOpenAll(void) {", r"    if (stuck) {",
          r"        return false; // }", r"    }", "    return true;", r"}"] ∧
      code.fallback =
        some [r"            for (;;) {", "                break;", r"            }"] := by
  obtain ⟨code, hrecover, htext, hhandlers, hfallback⟩ :=
    recover_edited (rfl : prepare valve = _) valve_recoverable valveEdits_fit
  refine ⟨code, hrecover, htext, ?_, hfallback⟩
  exact hhandlers ⟨"OpenAll", 2, .aToB, [], ""⟩ (List.mem_cons_of_mem _ List.mem_cons_self)

end Recovery
end CommandSet
