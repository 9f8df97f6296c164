import CommandSet.Proofs.Firmware.Enumerators
import CommandSet.Proofs.Firmware.Signatures
import CommandSet.Proofs.Firmware.Undescribed
import CommandSet.Proofs.Text.Uncommented

/-!
# Descriptions in the firmware

The main header shows the descriptions of attributes behind their ordinals, up to the end of the
line, and a main module those of commands in the comments above their handlers.  A description
that does not end such a comment leaves no trace beside it.

Main definition:

- {lit}`ScopeNames.OneLine`: constants whose descriptions stay on their lines.

Main results:

- Theorem {lit}`alike_mainHeader`: a main header is like the one without descriptions.
- Theorem {lit}`alike_mainModule`: so is a main module.
-/

namespace CommandSet

open CommentMode
open Text (isBlank lower)

namespace Firmware

/-! ## The main header -/

/-- Constants whose names are words and whose descriptions stay on their lines. -/
structure ScopeNames.OneLine (names : ScopeNames) : Prop where
  tag : IsWord names.tag
  ordinals : ∀ ordinal ∈ names.ordinals, IsWord ordinal.1 ∧ '\n' ∉ ordinal.2.toList
  flags : ∀ flag ∈ names.flags, IsWord flag.name

/-- What a reader makes of the line of an ordinal. -/
theorem scan_ordinalLine {name description : String} (hname : IsWord name)
    (hdescription : '\n' ∉ description.toList) :
    ∃ rest, rest.filter (!isBlank ·) = [] ∧
      scan true code ((ScopeNames.ordinalLine (name, description)).toList ++ ['\n']) =
        (code, (indent 1 (name ++ ",")).toList ++ rest) := by
  have hfront : '/' ∉ (indent 1 (name ++ ",")).toList := by
    have havoids : Avoids ['/'] (indent 1 (name ++ ",")) :=
      (avoids_indent (by decide)).mpr (avoids_append.mpr ⟨hname.avoids_slash, by decide⟩)
    exact havoids _ (List.mem_singleton_self _)
  by_cases hempty : description.isEmpty = true
  · have hline : ScopeNames.ordinalLine (name, description) = indent 1 (name ++ ",") := by
      simp [ScopeNames.ordinalLine, hempty]
    refine ⟨['\n'], by decide, ?_⟩
    rw [hline, scan_append, scan_code hfront]
    rfl
  · have hline : (ScopeNames.ordinalLine (name, description)).toList ++ ['\n'] =
        ((indent 1 (name ++ ",")).toList ++ [' ']) ++ '/' :: '/' :: (' ' :: description.toList) ++
          ['\n'] := by
      simp [ScopeNames.ordinalLine, hempty, toList_indent]
    have hblank : '/' ∉ (indent 1 (name ++ ",")).toList ++ [' '] := by
      rw [List.mem_append, not_or]
      exact ⟨hfront, by decide⟩
    have hcomment : '\n' ∉ ' ' :: description.toList := by
      rw [List.mem_cons, not_or]
      exact ⟨by decide, hdescription⟩
    refine ⟨[' ', '\n'], by decide, ?_⟩
    rw [hline, scan_remark hblank hcomment, List.append_assoc]
    rfl

theorem endsInCode_ordinalLine {name description : String} (hname : IsWord name)
    (hdescription : '\n' ∉ description.toList) :
    EndsInCode true (ScopeNames.ordinalLine (name, description)) := by
  obtain ⟨rest, -, hscan⟩ := scan_ordinalLine hname hdescription
  rw [EndsInCode, hscan]

/-- The line of an ordinal is like the one without a description. -/
theorem alike_ordinalLine {name description : String} (hname : IsWord name)
    (hdescription : '\n' ∉ description.toList) :
    Alike true code [ScopeNames.ordinalLine (name, description)]
      [ScopeNames.ordinalLine (name, "")] := by
  obtain ⟨first, hfirst, hscan⟩ := scan_ordinalLine hname hdescription
  obtain ⟨second, hsecond, herased⟩ := @scan_ordinalLine name "" hname (by decide)
  rw [Alike, scanLines_singleton, scanLines_singleton, hscan, herased]
  refine ⟨rfl, ?_⟩
  rw [List.filter_append, List.filter_append, hfirst, hsecond]

theorem avoids_flagValue (width : PresenceWidth) (index : Nat) :
    Avoids ['/'] (width.flagValue index) := by
  have hindex := (isWord_toString (width.bit index)).avoids_slash
  cases width <;> simp only [PresenceWidth.flagValue, avoids_append] <;>
    exact ⟨⟨⟨⟨by decide, by decide⟩, by decide⟩, hindex⟩, by decide⟩

theorem endsInCode_flag {flag : PresenceFlag} (h : IsWord flag.name) :
    EndsInCode true flag.line := by
  refine endsInCode_of_avoids ?_
  rw [PresenceFlag.line, avoids_append, avoids_append, avoids_append]
  exact ⟨⟨⟨by decide, h.avoids_slash⟩, by decide⟩, avoids_flagValue _ _⟩

theorem endsInCode_enum {tag : String} (h : IsWord tag) :
    EndsInCode true (opening ("enum " ++ tag)) := by
  refine endsInCode_of_avoids ?_
  rw [opening, avoids_append, avoids_append]
  exact ⟨⟨by decide, h.avoids_slash⟩, by decide⟩

namespace ScopeNames

variable {names : ScopeNames}

/-- The lines of a scope lead from code to code. -/
theorem OneLine.endsInCode (h : names.OneLine) : ∀ line ∈ names.lines, EndsInCode true line := by
  rw [lines, List.forall_mem_append, List.forall_mem_append, List.forall_mem_append,
    List.forall_mem_singleton, List.forall_mem_map]
  refine ⟨⟨⟨endsInCode_enum h.tag, ?_⟩, by decide⟩, ?_⟩
  · intro ordinal hordinal
    obtain ⟨hname, hdescription⟩ := h.ordinals ordinal hordinal
    exact endsInCode_ordinalLine hname hdescription
  · split
    · exact fun line hline => absurd hline List.not_mem_nil
    · rw [List.forall_mem_append, List.forall_mem_map]
      exact ⟨fun flag hflag => endsInCode_flag (h.flags flag hflag), by decide⟩

theorem OneLine.alike_ordinals (h : names.OneLine) :
    Alike true code (names.ordinals.map ordinalLine)
      (names.undescribed.ordinals.map ordinalLine) := by
  rw [undescribed, List.map_map, List.map_eq_flatMap, List.map_eq_flatMap]
  refine alike_flatMap (· = code) ?_ ?_ rfl <;>
    rintro ordinal hordinal mode rfl <;>
    obtain ⟨hname, hdescription⟩ := h.ordinals ordinal hordinal
  · exact scanLines_of_endsInCode
      (List.forall_mem_singleton.mpr (endsInCode_ordinalLine hname hdescription))
  · exact alike_ordinalLine hname hdescription

/-- A scope is like the one without descriptions. -/
theorem OneLine.alike (h : names.OneLine) :
    Alike true code names.lines names.undescribed.lines := by
  have hopening : (scanLines true code [opening ("enum " ++ names.tag)]).1 = code :=
    scanLines_of_endsInCode (List.forall_mem_singleton.mpr (endsInCode_enum h.tag))
  have hordinals : Alike true (scanLines true code [opening ("enum " ++ names.tag)]).1
      (names.ordinals.map ordinalLine) (names.undescribed.ordinals.map ordinalLine) := by
    rw [hopening]
    exact h.alike_ordinals
  exact (((Alike.refl _ _ _).append hordinals).append (Alike.refl _ _ _)).append
    (Alike.refl _ _ _)

end ScopeNames

/-- The comment that opens a file leads to code. -/
theorem scan_banner {file brief : String} (hfile : Avoids ['/'] file)
    (hbrief : Avoids ['/'] brief) :
    (scanLines true code (banner file brief)).1 = code := by
  have hlines : ∀ line ∈ [" * \\file " ++ file, " * \\brief " ++ brief,
      " * \\author LCSF Generator", " *"], Hidden true line := by
    intro line hline
    refine hidden_of_avoids ?_
    simp only [List.mem_cons, List.not_mem_nil, or_false] at hline
    rcases hline with rfl | rfl | rfl | rfl
    · exact avoids_append.mpr ⟨by decide, hfile⟩
    · exact avoids_append.mpr ⟨by decide, hbrief⟩
    · decide
    · decide
  have hbanner : banner file brief = ("/**" :: ([" * \\file " ++ file, " * \\brief " ++ brief,
      " * \\author LCSF Generator", " *"] ++ [" */"])) ++ [""] := rfl
  rw [hbanner, fst_scanLines_append, scan_commentBlock (Or.inl rfl) hlines]
  rfl

/-- The lines of a main header in front of the attributes. -/
def linesAbove (header : MainHeader) : List String :=
  linesBefore header ++ opening ("enum _" ++ lower header.protocol ++ "_cmd_names") ::
    (header.commands.map (fun name => indent 1 (name ++ ",")) ++ [closing ++ ";", ""])

/-- They lead to code. -/
theorem scan_linesAbove {header : MainHeader} (hprotocol : IsName header.protocol)
    (hcommands : ∀ name ∈ header.commands, IsWord name) :
    (scanLines true code (linesAbove header)).1 = code := by
  have hname : Avoids ['/'] header.protocol := hprotocol.isWord.avoids_slash
  have hfile : Avoids ['/'] (Naming.mainHeaderFile header.protocol) :=
    avoids_append.mpr ⟨hname, by decide⟩
  have hguard : Avoids ['/'] (includeGuard (Naming.mainHeaderFile header.protocol)) :=
    (isWord_includeGuard (mem_mainHeaderFile hprotocol)).avoids_slash
  have hfixed : ∀ line ∈ ["#ifndef " ++ includeGuard (Naming.mainHeaderFile header.protocol),
      "#define " ++ includeGuard (Naming.mainHeaderFile header.protocol), "",
      "// *** Libraries include ***", "#include <stdbool.h>", "#include <stddef.h>",
      "#include <stdint.h>", "", "// *** Definitions ***", "// --- Public Types ---", "",
      "// Command name enum"], EndsInCode true line := by
    rw [List.forall_mem_cons, List.forall_mem_cons]
    exact ⟨endsInCode_of_avoids (avoids_append.mpr ⟨by decide, hguard⟩),
      endsInCode_of_avoids (avoids_append.mpr ⟨by decide, hguard⟩), by decide⟩
  have henum : EndsInCode true (opening ("enum _" ++ lower header.protocol ++ "_cmd_names")) := by
    refine endsInCode_of_avoids ?_
    simp only [opening, avoids_append]
    exact ⟨⟨⟨by decide, hprotocol.isWord.lower.avoids_slash⟩, by decide⟩, by decide⟩
  have hordinals : ∀ name ∈ header.commands, EndsInCode true (indent 1 (name ++ ",")) := by
    intro name hmem
    refine endsInCode_of_avoids ((avoids_indent (by decide)).mpr ?_)
    exact avoids_append.mpr ⟨(hcommands name hmem).avoids_slash, by decide⟩
  rw [linesAbove, linesBefore, List.append_assoc, fst_scanLines_append,
    scan_banner hfile (avoids_append.mpr ⟨hname, by decide⟩)]
  refine scanLines_of_endsInCode ?_
  rw [List.forall_mem_append]
  refine ⟨hfixed, ?_⟩
  rw [List.forall_mem_cons, List.forall_mem_append, List.forall_mem_map]
  exact ⟨henum, hordinals, by decide⟩

theorem alike_scopes {scopes : List ScopeNames} (h : ∀ names ∈ scopes, names.OneLine) :
    Alike true code
      (MainHeader.titled (!scopes.isEmpty) "// Attributes enums" (scopes.flatMap ScopeNames.lines))
      (MainHeader.titled (!(scopes.map ScopeNames.undescribed).isEmpty) "// Attributes enums"
        ((scopes.map ScopeNames.undescribed).flatMap ScopeNames.lines)) := by
  have hscopes : Alike true code (scopes.flatMap ScopeNames.lines)
      (scopes.flatMap fun names => names.undescribed.lines) := by
    refine alike_flatMap (· = code) ?_ ?_ rfl <;> rintro names hnames mode rfl
    · exact scanLines_of_endsInCode (h names hnames).endsInCode
    · exact (h names hnames).alike
  rw [List.isEmpty_map, List.flatMap_map]
  cases scopes.isEmpty with
  | true => exact Alike.refl _ _ _
  | false => exact (Alike.refl true code ["// Attributes enums"]).append hscopes

/-- Every scope of a main header keeps to its lines if the descriptions of attributes do. -/
theorem oneLine_scopes {protocol : Protocol} (hwell : WellFormed protocol)
    (h : ∀ att ∈ protocol.attributes, '\n' ∉ att.description.toList) :
    ∀ names ∈ (MainHeader.build (Prepared.ofProtocol protocol) none).scopes, names.OneLine := by
  intro names hnames
  obtain ⟨scope, hscope, rfl⟩ := List.mem_map.mp hnames
  obtain ⟨group, hgroup, rfl⟩ := List.mem_map.mp ((scopes_perm_groups hwell).subset hscope)
  have hparent := (named_of_mem_groups hwell hgroup).parent
  have hmember : ∀ att ∈ group.members, att ∈ protocol.attributes := fun att hatt =>
    mem_attributes_of_mem_members hwell.children hgroup hatt
  refine ⟨?_, ?_, ?_⟩
  · have hprotocol := IsWord.append (.fixed rfl : IsWord "_") hwell.protocol_name.isWord.lower
    exact ((hprotocol.append (.fixed rfl)).append hparent.isWord.lower).append (.fixed rfl)
  · intro ordinal hordinal
    rw [ordinals_ofScope] at hordinal
    obtain ⟨att, hatt, rfl⟩ := List.mem_map.mp hordinal
    exact ⟨isWord_attributeOrdinal hwell.protocol_name hparent.isWord
      (hwell.attribute_names att (hmember att hatt)), h att (hmember att hatt)⟩
  · intro flag hflag
    have hname := List.mem_map_of_mem (f := PresenceFlag.name) hflag
    rw [names_flags_ofScope] at hname
    obtain ⟨att, hatt, hname⟩ := List.mem_map.mp hname
    rw [← hname]
    exact isWord_attributeFlag hwell.protocol_name hparent.isWord
      (hwell.attribute_names att (hmember att (List.mem_of_mem_filter hatt)))

/-- A main header is like the one without descriptions if no description of an attribute goes
on behind its line. -/
theorem alike_mainHeader {protocol : Protocol} (hwell : WellFormed protocol)
    (h : ∀ att ∈ protocol.attributes, '\n' ∉ att.description.toList) :
    Alike true code (MainHeader.build (Prepared.ofProtocol protocol) none).lines
      (MainHeader.build (Prepared.ofProtocol protocol).undescribed none).lines := by
  have hcommands : ∀ name ∈ (MainHeader.build (Prepared.ofProtocol protocol) none).commands,
      IsWord name := by
    rw [commands_mainHeader, List.forall_mem_map]
    exact fun word hword => isWord_commandConstant hwell.protocol_name
      (@isWord_of_mem_commandWords protocol hwell word hword)
  have hlines (header : MainHeader) : header.lines = linesAbove header ++
      (MainHeader.titled (!header.scopes.isEmpty) "// Attributes enums"
        (header.scopes.flatMap ScopeNames.lines) ++ linesBehind header) := by
    simp [lines_mainHeader, linesAbove]
  rw [mainHeader_undescribed, hlines, hlines]
  refine (Alike.refl _ _ _).append (Alike.append ?_ (Alike.refl _ _ _))
  rw [scan_linesAbove hwell.protocol_name hcommands]
  exact alike_scopes (oneLine_scopes hwell h)

/-! ## Main modules -/

/-- The comment above a handler leaves no code if the description does not close it. -/
theorem scan_docOf {protocol : String} {cmd : Command} (hprotocol : IsName protocol)
    (hname : IsName cmd.name) (h : ¬['*', '/'] <:+: cmd.description.toList) {mode : CommentMode}
    (hmode : AtLineStart mode) :
    scanLines true mode (Handler.docOf protocol cmd).lines = (code, ['\n']) := by
  have hsignature : Hidden true (" * \\fn " ++ handlerSignature protocol cmd) :=
    hidden_of_avoids (avoids_append.mpr ⟨by decide, (avoids_handlerSignature hprotocol hname).mono
      (List.cons_subset_cons _ (List.nil_subset _))⟩)
  have hbrief : Hidden true (" * \\brief " ++ (Handler.docOf protocol cmd).brief) := by
    have hcommand : Avoids ['/'] (" * \\brief " ++ ("Execute command " ++ cmd.name)) := by
      rw [avoids_append, avoids_append]
      exact ⟨by decide, by decide, hname.isWord.avoids_slash⟩
    by_cases hempty : cmd.description.isEmpty = true
    · have hline : (Handler.docOf protocol cmd).brief = "Execute command " ++ cmd.name := by
        simp [Handler.docOf, hempty]
      rw [hline]
      exact hidden_of_avoids hcommand
    · have hline : (" * \\brief " ++ (Handler.docOf protocol cmd).brief).toList =
          (" * \\brief " ++ ("Execute command " ++ cmd.name) ++ " ").toList ++
            '(' :: (cmd.description.toList ++ [')']) := by
        simp [Handler.docOf, hempty]
      refine hidden_of_not_infix ?_
      rw [hline]
      exact not_infix_bracketed (avoids_append.mpr ⟨hcommand, by decide⟩ _ List.mem_cons_self) h
  have hparams : ∀ param ∈ (Handler.docOf protocol cmd).params,
      Hidden true (" * \\param " ++ param.1 ++ " " ++ param.2) := by
    intro param hparam
    dsimp only [Handler.docOf] at hparam
    split at hparam
    · rw [List.mem_singleton] at hparam
      subst hparam
      exact hidden_of_avoids (by decide)
    · exact absurd hparam List.not_mem_nil
  have hlines : (Handler.docOf protocol cmd).lines = "/**" ::
      ((" * \\fn " ++ handlerSignature protocol cmd) ::
        (" * \\brief " ++ (Handler.docOf protocol cmd).brief) :: " *" ::
          ((Handler.docOf protocol cmd).params.map
              (fun param => " * \\param " ++ param.1 ++ " " ++ param.2) ++
            [" * \\return " ++ successResult]) ++ [" */"]) := by
    simp [DocBlock.lines, Handler.docOf]
  rw [hlines]
  refine scan_commentBlock hmode ?_
  rw [List.forall_mem_cons, List.forall_mem_cons, List.forall_mem_cons, List.forall_mem_append,
    List.forall_mem_map, List.forall_mem_singleton]
  exact ⟨hsignature, hbrief, hidden_of_avoids (by decide), hparams, hidden_of_avoids (by decide)⟩

/-- Main modules with handlers that are alike are alike. -/
theorem alike_of_handlers {module : MainModule} {handlers : List Handler}
    (h : ∀ mode, AtLineStart mode → Alike true mode (module.handlers.flatMap Handler.lines)
      (handlers.flatMap Handler.lines)) :
    Alike true code module.lines { module with handlers := handlers }.lines := by
  have hhandlers := (Alike.refl true code _).append
    (h _ (atLineStart_scanLines (Or.inl rfl) (module.includes ++ ["// *** Definitions ***"] ++
      module.definitions ++ ["// *** Private Functions ***", ""] ++ senderLines module.protocol ++
      module.unknown.flatMap (· ++ [""]))))
  exact ((((hhandlers.append (.refl _ _ _)).append (.refl _ _ _)).append (.refl _ _ _)).append
    (.refl _ _ _)).append (.refl _ _ _)

/-- A fresh main module is like the one without descriptions if no description of a command
closes the comment above its handler. -/
theorem alike_mainModule {protocol : Protocol} (hwell : WellFormed protocol) {role : Role}
    (h : ∀ cmd ∈ protocol.received role, ¬['*', '/'] <:+: cmd.description.toList) :
    Alike true code (MainModule.build (Prepared.ofProtocol protocol) role none).lines
      (MainModule.build (Prepared.ofProtocol protocol).undescribed role none).lines := by
  have hdoc : ∀ cmd ∈ protocol.received role, ∀ mode, AtLineStart mode →
      Alike true mode (Handler.docOf protocol.name cmd).lines
        (Handler.docOf protocol.name cmd.undescribed).lines := by
    intro cmd hcmd mode hmode
    have hname := hwell.command_names cmd (List.mem_of_mem_filter hcmd)
    have hnone : ¬['*', '/'] <:+: "".toList := by decide
    rw [Alike, scan_docOf hwell.protocol_name hname (h cmd hcmd) hmode,
      @scan_docOf _ cmd.undescribed hwell.protocol_name hname hnone _ hmode]
    exact ⟨rfl, rfl⟩
  rw [mainModule_undescribed]
  -- A comment block leads to code from wherever a line can start, so the mode in front of a
  -- handler need not be known.
  refine alike_of_handlers fun mode hmode => ?_
  dsimp only [MainModule.build]
  rw [List.flatMap_map, List.flatMap_map]
  refine alike_flatMap AtLineStart ?_ ?_ hmode
  · exact fun cmd _ mode hmode => atLineStart_scanLines hmode _
  · intro cmd hcmd mode hmode
    exact ((hdoc cmd hcmd mode hmode).append (.refl _ _ _)).append (.refl _ _ _)

end Firmware
end CommandSet
