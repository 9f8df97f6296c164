import CommandSet.Firmware.Bridge
import CommandSet.Firmware.Descriptor
import CommandSet.Proofs.Firmware.AttributeLists
import CommandSet.Proofs.Firmware.Enumerators
import CommandSet.Proofs.Text.Blocks

/-!
# Tables of commands

A command is known by its ordinal in the main modules and by its identifier on the wire.
Both headers enumerate the commands, the bridge translates between the two numbers, and the
descriptor lists the identifiers.  All five tables are read off the lines here.

Main definitions:

- {lit}`commandNames`, {lit}`commandIds`: the enumerations of the two headers.
- {lit}`nameToId`, {lit}`idToName`: the tables of the bridge.
- {lit}`rowIds`: the commands of the descriptor.
- {lit}`SwitchArm`, {lit}`switchResult?`: what a switch gives.

Main results:

- Theorems {lit}`commandNames_mainHeader`, {lit}`commandIds_bridgeHeader`,
  {lit}`nameToId_bridge`, {lit}`idToName_bridge`, {lit}`rowIds_descriptor`: the tables of a
  well-formed protocol.
-/

namespace CommandSet
namespace Firmware

open Text (lower upper)

/-! ## Lines of tables -/

/-- The name on a line that holds nothing else but its comma. -/
def listed? (line : String) : Option String :=
  match words line with
  | [name] => some (String.ofList name.dropLast)
  | _ => none

/-- What a line {lit}`NAME = 0x1F,` defines. -/
def constant? (line : String) : Option (String × Int) :=
  match words line with
  | [name, ['='], value] => (literalValue? value.dropLast).map (String.ofList name, ·)
  | _ => none

/-- The name on a line {lit}`.CmdId = NAME,`. -/
def rowId? (line : String) : Option String :=
  match words line with
  | [['.', 'C', 'm', 'd', 'I', 'd'], ['='], name] => some (String.ofList name.dropLast)
  | _ => none

/-- An arm of a switch: its label, none for the default arm, and what it returns. -/
structure SwitchArm where
  label : Option String
  result : String
deriving Repr, DecidableEq

/-- The arm that is made of a label and the line after it. -/
def switchArm? (label result : String) : Option SwitchArm :=
  match words label, words result with
  | [['c', 'a', 's', 'e'], name], [['r', 'e', 't', 'u', 'r', 'n'], value] =>
      some ⟨some (String.ofList name.dropLast), String.ofList value.dropLast⟩
  | [['d', 'e', 'f', 'a', 'u', 'l', 't', ':']], [['r', 'e', 't', 'u', 'r', 'n'], value] =>
      some ⟨none, String.ofList value.dropLast⟩
  | _, _ => none

/-- The arms of a switch, each on two lines. -/
def switchArms : List String → List SwitchArm
  | label :: result :: rest => (switchArm? label result).toList ++ switchArms rest
  | _ => []

/-- What a switch returns for a number: the result of the arm whose label has this value, or
else that of the default arm. -/
def switchResult? (value? : String → Option Int) (arms : List SwitchArm) (n : Int) :
    Option String :=
  match arms.find? fun arm => arm.label.any (value? · == some n) with
  | some arm => some arm.result
  | none => (arms.find? (·.label.isNone)).map (·.result)

theorem listed_indent {name : String} (h : Unbroken name) (level : Nat) :
    listed? (indent level (name ++ ",")) = some name := by
  rw [listed?, words_indent, words_unbroken (h.append (by decide))]
  simp

theorem constant_indent {name : String} (h : Unbroken name) (level : Nat) (word : UInt16) :
    constant? (indent level (name ++ " = " ++ Text.hexWord word ++ ",")) =
      some (name, (word.toNat : Int)) := by
  have hline : name ++ " = " ++ Text.hexWord word ++ "," =
      name ++ " " ++ ("=" ++ " " ++ (Text.hexWord word ++ ",")) := by
    simp [← String.toList_inj, String.toList_append]
  rw [constant?, hline, words_indent,
    words_three h (by decide) ((unbroken_hexWord word).append (by decide))]
  simp [literalValue_hexWord]

theorem rowId_indent {name : String} (h : Unbroken name) (level : Nat) :
    rowId? (indent level (".CmdId = " ++ name ++ ",")) = some name := by
  have hline : ".CmdId = " ++ name ++ "," = ".CmdId" ++ " " ++ ("=" ++ " " ++ (name ++ ",")) := by
    simp [← String.toList_inj, String.toList_append]
  rw [rowId?, hline, words_indent, words_three (by decide) (by decide) (h.append (by decide))]
  simp

private theorem words_return {result : String} (h : Unbroken result) (level : Nat) :
    words (indent level ("return " ++ result ++ ";")) =
      ["return".toList, (result ++ ";").toList] := by
  have hline : "return " ++ result ++ ";" = "return" ++ " " ++ (result ++ ";") := by
    simp [← String.toList_inj, String.toList_append]
  rw [hline, words_indent, words_append (by decide), words_unbroken (h.append (by decide))]

theorem switchArm_case {label result : String} (hlabel : Unbroken label) (hresult : Unbroken result)
    (level level' : Nat) :
    switchArm? (indent level ("case " ++ label ++ ":"))
      (indent level' ("return " ++ result ++ ";")) = some ⟨some label, result⟩ := by
  have hline : "case " ++ label ++ ":" = "case" ++ " " ++ (label ++ ":") := by
    simp [← String.toList_inj, String.toList_append]
  rw [switchArm?, words_return hresult, hline, words_indent, words_append (by decide),
    words_unbroken (hlabel.append (by decide))]
  simp

theorem switchArm_default {result : String} (hresult : Unbroken result) (level level' : Nat) :
    switchArm? (indent level "default:") (indent level' ("return " ++ result ++ ";")) =
      some ⟨none, result⟩ := by
  rw [switchArm?, words_return hresult, words_indent, words_unbroken (by decide)]
  simp

/-! ## Names of commands -/

section Names

variable {protocol command : String}

theorem unbroken_commandOrdinal (hprotocol : IsName protocol) (hcommand : IsName command) :
    Unbroken (Naming.commandOrdinal protocol command) :=
  (isWord_commandConstant hprotocol hcommand.isWord.upper).unbroken
    (by simp [commandConstant])

theorem unbroken_commandCount (hprotocol : IsName protocol) :
    Unbroken (Naming.commandCount protocol) :=
  (hprotocol.isWord.upper.append (.fixed rfl)).unbroken (by simp)

end Names

/-! ## Tables in the files -/

/-- The enumerators of the commands in a main header. -/
def commandNames (protocol : String) (lines : List String) : List String :=
  (blockOf 0 ("enum _" ++ lower protocol ++ "_cmd_names") lines).filterMap listed?

/-- The constants for the identifiers of the commands in a bridge header. -/
def commandIds (protocol : String) (lines : List String) : List (String × Int) :=
  (blockOf 0 ("enum _lcsf_" ++ lower protocol ++ "_cmd_id") lines).filterMap constant?

/-- The table from ordinals to identifiers in a bridge. -/
def nameToId (protocol : String) (lines : List String) : List String :=
  (blockOf 0
    ("static const uint16_t LCSF_Bridge_" ++ protocol ++ "_CmdNameToId[" ++
      commandNumber protocol ++ "] =") lines).filterMap listed?

/-- The switch from identifiers to ordinals in a bridge. -/
def idToName (protocol : String) (lines : List String) : List SwitchArm :=
  switchArms <| blockOf 1 "switch (cmdId)" <| blockOf 0
    ("static uint16_t LCSF_Bridge_" ++ protocol ++ "CmdIdToName(uint_fast16_t cmdId)") lines

/-- The identifiers in the table of commands in a descriptor. -/
def rowIds (protocol : String) (lines : List String) : List String :=
  (blockOf 0
    ("static const lcsf_command_desc_t LCSF_" ++ protocol ++ "_CmdDescArray[" ++
      commandNumber protocol ++ "] =") lines).filterMap rowId?

variable {protocol : Protocol}

theorem commandNames_mainHeader (hwell : WellFormed protocol)
    (code : Option Recovery.RecoveredCode) :
    commandNames protocol.name (MainHeader.build (Prepared.ofProtocol protocol) code).lines =
      protocol.commands.map (fun cmd => Naming.commandOrdinal protocol.name cmd.name) ++
        [Naming.commandCount protocol.name] := by
  let header := MainHeader.build (Prepared.ofProtocol protocol) code
  have hlines : linesBefore header ++ opening ("enum _" ++ lower protocol.name ++ "_cmd_names") ::
      (header.commands.map (fun name => indent 1 (name ++ ",")) ++ [closing ++ ";"]) <+:
        header.lines := by
    rw [lines_mainHeader, List.prefix_append_right_inj, List.cons_prefix_cons,
      List.prefix_append_right_inj]
    exact ⟨rfl, List.cons_prefix_cons.mpr ⟨rfl, List.nil_prefix⟩⟩
  have hhead : "enum ".toList.isPrefixOf
      (opening ("enum _" ++ lower protocol.name ++ "_cmd_names")).toList = true := by
    simp [opening, List.isPrefixOf]
  have hread : ∀ name ∈ header.commands, listed? (indent 1 (name ++ ",")) = some name := by
    refine List.forall_mem_append.mpr ⟨List.forall_mem_map.mpr fun cmd hcmd => ?_, ?_⟩
    · exact listed_indent
        (unbroken_commandOrdinal hwell.protocol_name (hwell.command_names cmd hcmd)) 1
    · exact List.forall_mem_singleton.mpr
        (listed_indent (unbroken_commandCount hwell.protocol_name) 1)
  refine (filterMap_block hlines hhead (forall_opensEnum_linesBefore header) hread).trans ?_
  rw [List.map_id']
  rfl

theorem commandIds_bridgeHeader (hwell : WellFormed protocol) :
    commandIds protocol.name (BridgeHeader.build (Prepared.ofProtocol protocol)).lines =
      protocol.commands.map fun cmd =>
        (Naming.commandId protocol.name cmd.name, cmd.id.toInt) := by
  let header := BridgeHeader.build (Prepared.ofProtocol protocol)
  have hlines (header : BridgeHeader) :
      linesBeforeIds header ++ opening ("enum " ++ header.commandIds.tag) ::
        (header.commandIds.ids.map (fun entry => indent 1
          (entry.1 ++ " = " ++ Text.hexWord entry.2.toUInt16 ++ ",")) ++ [closing ++ ";"]) <+:
        header.lines := by
    simp [BridgeHeader.lines, linesBeforeIds, WireIds.lines]
  have hhead (tag : String) :
      "enum ".toList.isPrefixOf (opening ("enum " ++ tag)).toList = true := by
    simp [opening, List.isPrefixOf]
  have hread : ∀ entry ∈ header.commandIds.ids,
      constant? (indent 1 (entry.1 ++ " = " ++ Text.hexWord entry.2.toUInt16 ++ ",")) =
        some (entry.1, entry.2.toInt) := by
    refine List.forall_mem_map.mpr fun cmd hcmd => ?_
    have hname := unbroken_commandId hwell.protocol_name (hwell.command_names cmd hcmd)
    have hnonneg := hwell.command_ids_nonneg cmd hcmd
    have hid : (cmd.id.toUInt16.toNat : Int) = cmd.id.toInt := by
      rw [toNat_toUInt16 hnonneg, Int.toNat_of_nonneg (Int16.le_iff_toInt_le.mp hnonneg)]
    have hconstant := constant_indent hname 1 cmd.id.toUInt16
    rwa [hid] at hconstant
  have htag : "enum _lcsf_" ++ lower protocol.name ++ "_cmd_id" =
      "enum " ++ header.commandIds.tag := by
    simp [header, BridgeHeader.build, WireIds.ofCommands, Prepared.ofProtocol, ← String.toList_inj]
  rw [commandIds, htag]
  refine (filterMap_block (hlines header) (hhead _) (linesBeforeIds_start header) hread).trans ?_
  exact List.map_map

/-- The lines of a bridge in front of its table of identifiers. -/
def linesBeforeTable (bridge : Bridge) : List String :=
  let protocol := bridge.protocol
  let infoType := "lcsf_bridge_" ++ lower protocol ++ "_info"
  banner (Naming.bridgeSourceFile protocol bridge.role)
      (protocol ++ " LCSF bridge module (" ++ bridge.role.label ++ ")") ++
    ["// *** Libraries include ***", "// Standard lib", "#include <string.h>", "// Custom lib",
      "#include \"" ++ Naming.bridgeHeaderFile protocol ++ "\"", "", "// *** Definitions ***",
      "// --- Private Macros ---",
      "#define " ++ Bridge.arenaMacro protocol ++ " " ++ toString bridge.arena, "",
      "// --- Private Types ---", opening ("typedef struct _" ++ infoType),
      indent 1 "uint16_t freeAttIdx;",
      indent 1 ("lcsf_valid_att_t attArray[" ++ Bridge.arenaMacro protocol ++ "];"),
      indent 1 (Naming.payloadUnion protocol ++ " cmdPayload;"),
      closing ++ " " ++ infoType ++ "_t;", "", "// --- Private Constants ---"]

theorem nameToId_bridge (hwell : WellFormed protocol) (role : Role) :
    nameToId protocol.name (Bridge.build (Prepared.ofProtocol protocol) role).lines =
      protocol.commands.map fun cmd => Naming.commandId protocol.name cmd.name := by
  let bridge := Bridge.build (Prepared.ofProtocol protocol) role
  have hlines (bridge : Bridge) : linesBeforeTable bridge ++
      opening ("static const uint16_t LCSF_Bridge_" ++ bridge.protocol ++ "_CmdNameToId[" ++
        commandNumber bridge.protocol ++ "] =") ::
      (bridge.keys.map (fun key => indent 1 (key.idName ++ ",")) ++ [closing ++ ";"]) <+:
        bridge.lines := by
    simp [Bridge.lines, linesBeforeTable, Bridge.definitionLines]
  have hhead : "static const ".toList.isPrefixOf
      (opening ("static const uint16_t LCSF_Bridge_" ++ bridge.protocol ++ "_CmdNameToId[" ++
        commandNumber bridge.protocol ++ "] =")).toList = true := by
    simp [opening, List.isPrefixOf]
  have hfront : ∀ line ∈ linesBeforeTable bridge,
      "static const ".toList.isPrefixOf line.toList = false := by
    simp [linesBeforeTable, banner, opening, closing, toList_indent, List.isPrefixOf]
  have hread : ∀ key ∈ bridge.keys, listed? (indent 1 (key.idName ++ ",")) = some key.idName :=
    List.forall_mem_map.mpr fun cmd hcmd =>
      listed_indent (unbroken_commandId hwell.protocol_name (hwell.command_names cmd hcmd)) 1
  exact (filterMap_block (hlines bridge) hhead hfront hread).trans List.map_map

/-- The arms of a switch over entries, and its default arm. -/
theorem switchArms_append {α : Type} {entries : List α} {label result : α → String} {other : String}
    (hlabel : ∀ entry ∈ entries, Unbroken (label entry))
    (hresult : ∀ entry ∈ entries, Unbroken (result entry)) (hother : Unbroken other) :
    switchArms (entries.flatMap (fun entry =>
        [indent 2 ("case " ++ label entry ++ ":"), indent 3 ("return " ++ result entry ++ ";")]) ++
          [indent 2 "default:", indent 3 ("return " ++ other ++ ";")]) =
      entries.map (fun entry => ⟨some (label entry), result entry⟩) ++ [⟨none, other⟩] := by
  induction entries with
  | nil => simp [switchArms, switchArm_default hother]
  | cons entry entries ih =>
      rw [List.forall_mem_cons] at hlabel hresult
      simp only [List.flatMap_cons, List.cons_append, List.nil_append, switchArms,
        switchArm_case hlabel.1 hresult.1, ih hlabel.2 hresult.2]
      rfl

/-- The lines of the arms of a bridge's switch. -/
def armLines (bridge : Bridge) : List String :=
  bridge.keys.flatMap (fun key =>
    [indent 2 ("case " ++ key.idName ++ ":"), indent 3 ("return " ++ key.ordinal ++ ";")]) ++
  [indent 2 "default:", indent 3 ("return " ++ Naming.commandCount bridge.protocol ++ ";")]

theorem closesAt_armLines {level : Nat} (hlevel : level < 2) (bridge : Bridge) :
    ∀ line ∈ armLines bridge, closesAt level line = false := by
  have hdeep {deeper : Nat} (h : 1 < deeper) (text : String) :
      closesAt level (indent deeper text) = false :=
    closesAt_indent (by omega) text
  simp only [armLines, List.forall_mem_append, List.forall_mem_flatMap, List.forall_mem_cons]
  simp [hdeep]

theorem block_idToName (bridge : Bridge) :
    blockOf 1 "switch (cmdId)" (blockOf 0
      ("static uint16_t LCSF_Bridge_" ++ bridge.protocol ++ "CmdIdToName(uint_fast16_t cmdId)")
        bridge.lines) = armLines bridge := by
  have hlines : bridge.definitionLines ++ ["// *** Private Functions ***", ""] ++
      opening ("static uint16_t LCSF_Bridge_" ++ bridge.protocol ++
        "CmdIdToName(uint_fast16_t cmdId)") ::
        ((indent 1 (opening "switch (cmdId)") :: (armLines bridge ++ [indent 1 closing])) ++
          [closing ++ ""]) <+: bridge.lines := by
    simp [Bridge.lines, Bridge.idToNameLines, armLines]
  have hhead : "static u".toList.isPrefixOf
      (opening ("static uint16_t LCSF_Bridge_" ++ bridge.protocol ++
        "CmdIdToName(uint_fast16_t cmdId)")).toList = true := by
    simp [opening, List.isPrefixOf]
  have hfront : ∀ line ∈ bridge.definitionLines ++ ["// *** Private Functions ***", ""],
      "static u".toList.isPrefixOf line.toList = false := by
    simp only [Bridge.definitionLines, List.forall_mem_append, List.forall_mem_cons,
      List.forall_mem_map]
    simp [banner, opening, closing, isPrefixOf_indent, List.isPrefixOf]
  have hbody : ∀ line ∈ indent 1 (opening "switch (cmdId)") ::
      (armLines bridge ++ [indent 1 closing]), closesAt 0 line = false := by
    rw [List.forall_mem_cons, List.forall_mem_append, List.forall_mem_singleton]
    exact ⟨closesAt_indent (by decide) _, closesAt_armLines (by decide) bridge,
      closesAt_indent (by decide) _⟩
  rw [blockOf_top hlines hhead hfront hbody]
  exact @blockOf_append 1 "switch (cmdId)" (indent 1 closing) [] (armLines bridge)
    (List.forall_mem_nil _) (closesAt_armLines (by decide) bridge) (closesAt_indent_closing 1) []

theorem idToName_bridge (hwell : WellFormed protocol) (role : Role) :
    idToName protocol.name (Bridge.build (Prepared.ofProtocol protocol) role).lines =
      protocol.commands.map (fun cmd =>
        ⟨some (Naming.commandId protocol.name cmd.name),
          Naming.commandOrdinal protocol.name cmd.name⟩) ++
        [⟨none, Naming.commandCount protocol.name⟩] := by
  let bridge := Bridge.build (Prepared.ofProtocol protocol) role
  have hlabel : ∀ key ∈ bridge.keys, Unbroken key.idName :=
    List.forall_mem_map.mpr fun cmd hcmd =>
      unbroken_commandId hwell.protocol_name (hwell.command_names cmd hcmd)
  have hresult : ∀ key ∈ bridge.keys, Unbroken key.ordinal :=
    List.forall_mem_map.mpr fun cmd hcmd =>
      unbroken_commandOrdinal hwell.protocol_name (hwell.command_names cmd hcmd)
  have harms := switchArms_append hlabel hresult (unbroken_commandCount hwell.protocol_name)
  refine (congrArg switchArms (block_idToName bridge)).trans (harms.trans ?_)
  exact congrArg (· ++ _) List.map_map

/-- The lines of a descriptor in front of the table of its commands. -/
def linesBeforeRows (descriptor : Descriptor) : List String :=
  let protocol := descriptor.protocol
  banner (Naming.descriptorFile protocol) (protocol ++ " LCSF descriptor") ++
    ["// *** Libraries include ***",
      "#include \"" ++ Naming.bridgeHeaderFile protocol ++ "\"", "", "// *** Definitions ***",
      "// --- Private Constants ---", ""] ++
    Descriptor.tableLines "// Sub-attribute array descriptions" descriptor.nested ++
    Descriptor.tableLines "// Attribute array descriptions" descriptor.tables ++
    ["// Command array description"]

theorem closesAt_row (row : CommandRow) : ∀ line ∈ row.lines, closesAt 0 line = false := by
  have hdeep {deeper : Nat} (h : 0 < deeper) (text : String) :
      closesAt 0 (indent deeper text) = false :=
    closesAt_indent h text
  simp [CommandRow.lines, hdeep]

/-- Other members of a row name no identifier. -/
theorem rowId_of_ne {key : String} (h : Unbroken key) (hne : key ≠ ".CmdId") (level : Nat)
    (rest : String) : rowId? (indent level (key ++ " " ++ rest)) = none := by
  have hchars : key.toList ≠ ['.', 'C', 'm', 'd', 'I', 'd'] := fun heq =>
    hne (String.toList_inj.mp heq)
  rw [rowId?, words_indent, words_append h]
  split
  next heq => exact absurd (List.cons.inj heq).1 hchars
  next => rfl

/-- A row of the table of commands names one identifier. -/
theorem filterMap_rowId {row : CommandRow} (h : Unbroken row.idName) :
    row.lines.filterMap rowId? = [row.idName] := by
  have hopen : rowId? (indent 1 r"{") = none := by decide
  have hclose : rowId? (indent 1 (closing ++ ",")) = none := by decide
  have hcount (rest : String) : rowId? (indent 2 (".AttNb = " ++ rest ++ ",")) = none := by
    have hline : ".AttNb = " ++ rest ++ "," = ".AttNb" ++ " " ++ ("= " ++ rest ++ ",") := by
      simp [← String.toList_inj, String.toList_append]
    rw [hline, rowId_of_ne (by decide) (by decide)]
  have htable (rest : String) : rowId? (indent 2 (".pAttDescArray = " ++ rest ++ ",")) = none := by
    have hline : ".pAttDescArray = " ++ rest ++ "," =
        ".pAttDescArray" ++ " " ++ ("= " ++ rest ++ ",") := by
      simp [← String.toList_inj, String.toList_append]
    rw [hline, rowId_of_ne (by decide) (by decide)]
  simp only [CommandRow.lines, List.filterMap_cons, List.filterMap_nil, hopen, hclose, hcount,
    htable, rowId_indent h]

/-- The tables of attributes stand in front of the table of commands. -/
theorem forall_linesBeforeRows (descriptor : Descriptor) : ∀ line ∈ linesBeforeRows descriptor,
    "static const lcsf_c".toList.isPrefixOf line.toList = false := by
  have htable (table : AttributeTable) : ∀ line ∈ table.lines,
      "static const lcsf_c".toList.isPrefixOf line.toList = false := by
    simp only [AttributeTable.lines, AttributeRow.lines, List.forall_mem_append,
      List.forall_mem_cons, List.forall_mem_flatMap]
    simp [opening, closing, isPrefixOf_indent, List.isPrefixOf]
  have htables {title : String}
      (htitle : "static const lcsf_c".toList.isPrefixOf title.toList = false)
      (tables : List AttributeTable) : ∀ line ∈ Descriptor.tableLines title tables,
      "static const lcsf_c".toList.isPrefixOf line.toList = false := by
    intro line hline
    rw [Descriptor.tableLines] at hline
    split at hline
    · exact absurd hline List.not_mem_nil
    · rcases List.mem_cons.mp hline with rfl | hline
      · exact htitle
      · obtain ⟨table, -, hmem⟩ := List.mem_flatMap.mp hline
        exact htable table line hmem
  simp only [linesBeforeRows, List.forall_mem_append]
  refine ⟨⟨⟨⟨?_, ?_⟩, htables (by decide) _⟩, htables (by decide) _⟩, ?_⟩
  · simp [banner, List.isPrefixOf]
  · simp [List.isPrefixOf]
  · simp [List.isPrefixOf]

theorem rowIds_descriptor (hwell : WellFormed protocol) :
    rowIds protocol.name (Descriptor.build (Prepared.ofProtocol protocol)).lines =
      protocol.commands.map fun cmd => Naming.commandId protocol.name cmd.name := by
  let descriptor := Descriptor.build (Prepared.ofProtocol protocol)
  have hlines (descriptor : Descriptor) : linesBeforeRows descriptor ++
      opening ("static const lcsf_command_desc_t LCSF_" ++ descriptor.protocol ++
        "_CmdDescArray[" ++ commandNumber descriptor.protocol ++ "] =") ::
      (descriptor.commands.flatMap CommandRow.lines ++ [closing ++ ";"]) <+: descriptor.lines := by
    simp [Descriptor.lines, linesBeforeRows]
  have hhead : "static const lcsf_c".toList.isPrefixOf
      (opening ("static const lcsf_command_desc_t LCSF_" ++ descriptor.protocol ++
        "_CmdDescArray[" ++ commandNumber descriptor.protocol ++ "] =")).toList = true := by
    simp [opening, List.isPrefixOf]
  have hbody : ∀ line ∈ descriptor.commands.flatMap CommandRow.lines, closesAt 0 line = false :=
    List.forall_mem_flatMap.mpr fun row _ => closesAt_row row
  have hrows : ∀ row ∈ descriptor.commands, row.lines.filterMap rowId? = [row.idName] :=
    List.forall_mem_map.mpr fun cmd hcmd =>
      filterMap_rowId (unbroken_commandId hwell.protocol_name (hwell.command_names cmd hcmd))
  refine (congrArg _ (blockOf_top (hlines descriptor) hhead (forall_linesBeforeRows descriptor)
    hbody)).trans ?_
  rw [List.filterMap_flatMap, List.flatMap_congr hrows, ← List.map_eq_flatMap]
  exact List.map_map

end Firmware
end CommandSet
