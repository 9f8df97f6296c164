import CommandSet.Firmware.Page
import CommandSet.Prepared
import CommandSet.Text.Hexadecimal
import CommandSet.Text.Lines

/-!
# The bridge header

The bridge moves values between payload structs and the validator's attribute
arrays.  Its header, shared by both roles, gives the wire identifiers of the
protocol, its commands and their attributes, and the lengths of all arrays.

Main definitions:

- {lit}`WireIds`: an enumeration of wire identifiers.
- {lit}`CountMacro`: the length of an array.
- {lit}`BridgeHeader`, {lit}`BridgeHeader.build`: a header and its making.
- {lit}`BridgeHeader.lines`: its text.
-/

namespace CommandSet
namespace Firmware

open Text (lower upper)

/-! ## Identifiers and counts -/

/-- An enumeration of wire identifiers. -/
structure WireIds where
  tag : String
  ids : List (String × Int16)
deriving Repr, DecidableEq

namespace WireIds

/-- The identifiers of the commands. -/
def ofCommands (protocol : Protocol) : WireIds :=
  { tag := "_lcsf_" ++ lower protocol.name ++ "_cmd_id"
    ids := protocol.commands.map fun cmd => (Naming.commandId protocol.name cmd.name, cmd.id) }

/-- The identifiers of the attributes of a scope. -/
def ofScope (protocol : String) (scope : Scope) : WireIds :=
  { tag := "_lcsf_" ++ lower protocol ++ "_" ++ lower scope.parent ++ "_att_id"
    ids :=
      scope.entries.map fun entry =>
        (Naming.attributeId protocol scope.parent entry.node.name, entry.node.id) }

/-- The lines of an enumeration, with the blank line after it. -/
def lines (wireIds : WireIds) : List String :=
  [opening ("enum " ++ wireIds.tag)] ++
    wireIds.ids.map
      (fun entry => indent 1 (entry.1 ++ " = " ++ Text.hexWord entry.2.toUInt16 ++ ",")) ++
    [closing ++ ";", ""]

end WireIds

/-- A macro for the length of an array. -/
structure CountMacro where
  name : String
  count : Nat
deriving Repr, DecidableEq

/-- The definition of a macro. -/
def CountMacro.line (m : CountMacro) : String :=
  "#define " ++ m.name ++ " " ++ toString m.count

/-- The macro for the number of commands. -/
def commandNumber (protocol : String) : String :=
  "LCSF_" ++ upper protocol ++ "_CMD_NB"

/-- The macro for the identifier of the protocol. -/
def protocolIdMacro (protocol : String) : String :=
  "LCSF_" ++ upper protocol ++ "_PROTOCOL_ID"

/-! ## Signatures -/

/-- The signature of the function that takes a received command. -/
def receiveSignature (protocol : String) : String :=
  "LCSF_Bridge_" ++ protocol ++ "Receive(lcsf_valid_cmd_t *pValidCmd)"

/-- The signature of the function that encodes a command. -/
def encodeSignature (protocol : String) : String :=
  "LCSF_Bridge_" ++ protocol ++ "Encode(uint_fast16_t cmdName, " ++
    Naming.payloadUnion protocol ++ " *pCmdPayload, uint8_t *pBuffer, size_t buffSize)"

/-! ## The whole header -/

/-- The header of the bridges. -/
structure BridgeHeader where
  protocol : String
  id : UInt16
  commandIds : WireIds
  attributeIds : List WireIds
  commands : CountMacro
  attributeCounts : List CountMacro
  subAttributeCounts : List CountMacro
deriving Repr, DecidableEq

namespace BridgeHeader

/-- The bridge header of a protocol. -/
def build (prepared : Prepared) : BridgeHeader :=
  let protocol := prepared.protocol.name
  { protocol := protocol
    id := prepared.protocol.id
    commandIds := WireIds.ofCommands prepared.protocol
    attributeIds := prepared.scopes.map (WireIds.ofScope protocol)
    commands := ⟨commandNumber protocol, prepared.protocol.commands.length⟩
    attributeCounts :=
      prepared.protocol.carriers.map fun cmd =>
        ⟨Naming.attributeCount protocol cmd.name, cmd.attributes.length⟩
    subAttributeCounts :=
      prepared.complexChildrenFirst.reverse.map fun entry =>
        ⟨Naming.subAttributeCount protocol entry.node.name, entry.childCount⟩ }

/-- The lines of a list of macros, none for an empty list. -/
def countLines (title : String) (macros : List CountMacro) : List String :=
  if macros.isEmpty then [] else [title] ++ macros.map CountMacro.line ++ [""]

/-- The lines of a header. -/
def lines (header : BridgeHeader) : List String :=
  let protocol := header.protocol
  let file := Naming.bridgeHeaderFile protocol
  let guardName := includeGuard file
  banner file (protocol ++ " LCSF bridge module") ++
    ["#ifndef " ++ guardName, "#define " ++ guardName, "", "// *** Libraries include ***",
      "#include <lib_lcsf/lcsf_validator.h>",
      "#include \"" ++ Naming.mainHeaderFile protocol ++ "\"", "", "// *** Definitions ***",
      "// --- Public Constants ---", "", "// Lcsf protocol identifier",
      "#define " ++ protocolIdMacro protocol ++ " " ++ Text.hexWord header.id, "",
      "// Command identifier enum"] ++
    header.commandIds.lines ++
    (if header.attributeIds.isEmpty then []
    else "// Attribute identifier enums" :: header.attributeIds.flatMap WireIds.lines) ++
    ["// Command number", header.commands.line, ""] ++
    countLines "// Command attribute number" header.attributeCounts ++
    countLines "// Attribute sub-attribute number" header.subAttributeCounts ++
    ["// --- Public Variables ---",
      "extern const lcsf_protocol_desc_t LCSF_" ++ protocol ++ "_ProtDesc;", "",
      "// --- Public Function Prototypes ---", "bool " ++ receiveSignature protocol ++ ";",
      "int " ++ encodeSignature protocol ++ ";", "", "#endif // " ++ guardName]

/-- The text of a header. -/
def text (header : BridgeHeader) : String :=
  Text.unlines header.lines

end BridgeHeader
end Firmware
end CommandSet
