import CommandSet.Text.Lines
import CommandSet.Typed.Codec
import CommandSet.Typed.Descriptor
import CommandSet.Typed.Match

/-!
# The bridge module in Rust

The bridge module of a role holds the command enumeration, the payload types, the
descriptor constants and the functions between payloads and validated commands.
It imports exactly what it uses.

Main definitions:

- {lit}`Imports`: what a bridge module imports.
- {lit}`decodeArms`, {lit}`encodeArms`: how it selects by command.
- {lit}`Bridge`, {lit}`Bridge.build`: a module and its making.
- {lit}`Bridge.lines`: its text.
-/

namespace CommandSet
namespace Typed

/-- The comment that opens a module, with the blank line after it. -/
def moduleBanner (brief : String) : List String :=
  ["//! " ++ brief, "//!", "//! Generated by lcsfgen. Regenerating overwrites this file.", ""]

/-! ## Imports -/

/-- Whether values of an attribute are numbers of variable length. -/
def usesVariableLength (att : Attribute) : Bool :=
  match att.dataType.storage with
  | some (.scalar .u16) | some (.scalar .u32) | some (.scalar .u64) => true
  | _ => false

/-- Whether values of an attribute are texts. -/
def usesText (att : Attribute) : Bool :=
  att.dataType.storage == some .text

/-- What a bridge module imports. -/
structure Imports where
  /-- Items of the validator library. -/
  validator : List String
  /-- Functions on numbers of variable length. -/
  numbers : List String
  /-- Whether the text type is imported. -/
  text : Bool
deriving Repr, DecidableEq

namespace Imports

/-- The imports of the bridge module of a role. -/
def ofProtocol (protocol : Protocol) (role : Role) : Imports :=
  let decoded := protocol.decoded role
  let encoded := protocol.encoded role
  let attributes := !protocol.carriers.isEmpty
  let codecs := !decoded.isEmpty || !encoded.isEmpty
  let usingNumbers := fun (cmds : List Command) =>
    cmds.any fun cmd => anyInForest usesVariableLength cmd.attributes
  { validator :=
      (if attributes then ["LcsfAttDesc"] else []) ++ ["LcsfCmdDesc"] ++
        (if attributes then ["LcsfDataType"] else []) ++ ["LcsfProtDesc"] ++
        (if codecs then ["LcsfValidAtt", "LcsfValidAttPayload"] else []) ++ ["LcsfValidCmd"]
    numbers :=
      (if usingNumbers decoded then ["vle_decode"] else []) ++
        if usingNumbers encoded then ["vle_encode"] else []
    text := protocol.commands.any fun cmd => anyInForest usesText cmd.attributes }

/-- Items behind a path; several stand between braces. -/
def useLine (path : String) (items : List String) : String :=
  match items with
  | [item] => "use " ++ path ++ item ++ ";"
  | items => "use " ++ path ++ r"{" ++ String.intercalate ", " items ++ r"};"

/-- The lines of the imports, with the blank line after them. -/
def lines (imports : Imports) : List String :=
  [useLine "lcsf_lib::lcsf_validator::" imports.validator] ++
    (if imports.numbers.isEmpty then [] else [useLine "lcsf_lib::vle::" imports.numbers]) ++
    (if imports.text then ["use std::ffi::CString;"] else []) ++ [""]

end Imports

/-! ## The command enumeration -/

/-- A variant of the command enumeration and its wire identifier. -/
structure CommandVariant where
  variant : String
  id : Int16
deriving Repr, DecidableEq

namespace CommandVariant

/-- The variant of a command. -/
def ofCommand (cmd : Command) : CommandVariant :=
  ⟨capitalized cmd.name, cmd.id⟩

/-- The definition of the enumeration and its two functions, with the blank line
after each part. -/
def enumLines (variants : List CommandVariant) : List String :=
  ["/// Command names", "#[derive(Debug, Clone, Copy, PartialEq, Eq)]",
    opening "pub enum CmdEnum"] ++
    variants.map (fun v => indent 1 (v.variant ++ ",")) ++
    [closing, "", opening "impl CmdEnum", indent 1 "/// Wire identifier of the command.",
      indent 1 (opening "pub fn id(self) -> u16"), indent 2 (opening "match self")] ++
    variants.map (fun v =>
      indent 3 ("CmdEnum::" ++ v.variant ++ " => " ++ Text.hexWord v.id.toUInt16 ++ ",")) ++
    [indent 2 closing, indent 1 closing, "",
      indent 1 (opening "pub fn from_id(cmd_id: u16) -> Option<Self>"),
      indent 2 (opening "match cmd_id")] ++
    variants.map (fun v =>
      indent 3 (Text.hexWord v.id.toUInt16 ++ " => Some(CmdEnum::" ++ v.variant ++ "),")) ++
    [indent 3 "_ => None,", indent 2 closing, indent 1 closing, closing, ""]

end CommandVariant

/-! ## Selection by command -/

/-- What decoding gives for a command. -/
inductive DecodeResult where
  /-- The variant of the payload struct that the decoder with this stem gives. -/
  | decoded (variant stem : String)
  | empty
deriving Repr, DecidableEq

/-- The expression of a result. -/
def DecodeResult.text : DecodeResult → String
  | decoded variant stem =>
      "CmdPayload::" ++ variant ++ "(" ++ Decoder.name stem ++ "(&valid_cmd.att_arr)?)"
  | empty => "CmdPayload::Empty"

/-- The arms of decoding: the received commands with attributes, then the rest if
there is any. -/
def decodeArms (commands decoded : List Command) : List (CommandPattern × DecodeResult) :=
  decoded.map (fun cmd =>
      (.only (capitalized cmd.name),
        .decoded (capitalized cmd.name) (commandStem cmd.name))) ++
    if decoded.length < commands.length then [(.any, .empty)] else []

/-- What encoding gives for a command and a payload. -/
inductive EncodeResult where
  /-- What the encoder with this stem gives. -/
  | encoded (stem : String)
  /-- No attributes. -/
  | empty
  /-- The payload does not match the command. -/
  | mismatch
deriving Repr, DecidableEq

/-- The expression of a result. -/
def EncodeResult.text : EncodeResult → String
  | encoded stem => Encoder.name stem ++ "(cmd_payload)"
  | empty => "Vec::new()"
  | mismatch => "return None"

/-- The arms of encoding: the sent commands with attributes, empty payloads, then
the rest if some command has attributes. -/
def encodeArms (attributes : Bool) (encoded : List Command) : List (Arm EncodeResult) :=
  encoded.map (fun cmd =>
      ⟨.only (capitalized cmd.name), .carried (capitalized cmd.name),
        .encoded (commandStem cmd.name)⟩) ++
    [⟨.any, .empty, .empty⟩] ++ if attributes then [⟨.any, .any, .mismatch⟩] else []

/-! ## The whole module -/

/-- The bridge module of a role. -/
structure Bridge where
  protocol : String
  role : Role
  id : UInt16
  imports : Imports
  commands : List CommandVariant
  /-- Whether payloads of complex attributes are listed at all. -/
  nesting : Bool
  nested : List PayloadStruct
  payloads : List PayloadStruct
  /-- Variants of the payload type, each with its struct. -/
  variants : List (String × String)
  tables : List AttributeTable
  rows : List CommandRow
  decoders : List Decoder
  encoders : List Encoder
  decodeArms : List (CommandPattern × DecodeResult)
  encodeArms : List (Arm EncodeResult)
deriving Repr, DecidableEq

namespace Bridge

/-- The bridge module of a role. -/
def build (prepared : Prepared) (role : Role) : Bridge :=
  let protocol := prepared.protocol
  let complex := prepared.complexChildrenFirst
  { protocol := protocol.name
    role := role
    id := protocol.id
    imports := Imports.ofProtocol protocol role
    commands := protocol.commands.map CommandVariant.ofCommand
    nesting := prepared.nesting
    nested := complex.map PayloadStruct.ofEntry
    payloads := protocol.carriers.map PayloadStruct.ofCommand
    variants :=
      protocol.carriers.map fun cmd =>
        (capitalized cmd.name, Naming.typedCommandPayload cmd.name)
    tables :=
      complex.map AttributeTable.ofEntry ++ protocol.carriers.map AttributeTable.ofCommand
    rows := protocol.commands.map CommandRow.ofCommand
    decoders := (protocol.decoded role).flatMap Decoder.ofCommand
    encoders := (protocol.encoded role).flatMap Encoder.ofCommand
    decodeArms := Typed.decodeArms protocol.commands (protocol.decoded role)
    encodeArms := Typed.encodeArms (!protocol.carriers.isEmpty) (protocol.encoded role) }

/-- The constant for the identifier of the protocol. -/
def idConstant (protocol : String) : String :=
  "LCSF_" ++ Text.upper protocol ++ "_PROTOCOL_ID"

/-- The payload type, with the blank line after it. -/
def payloadLines (variants : List (String × String)) : List String :=
  ["/// Payload of any command", "#[derive(Debug, Clone, PartialEq)]",
    opening "pub enum CmdPayload", indent 1 (PayloadVariant.empty.name ++ ",")] ++
    variants.map (fun v => indent 1 (v.1 ++ "(" ++ v.2 ++ "),")) ++ [closing, ""]

/-- The protocol's constant, with the blank line after it. -/
def descriptorLines (protocol : String) (rows : List CommandRow) : List String :=
  ["/// Protocol descriptor handed to the validator",
    opening
      ("pub const LCSF_" ++ Text.upper protocol ++
        "_PROT_DESC: LcsfProtDesc = LcsfProtDesc"),
    indent 1 "cmd_desc_arr: &["] ++
    rows.map (fun row => indent 2 row.line) ++ [indent 1 "],", closing ++ ";", ""]

/-- The function that decodes a command, with the blank line after it. -/
def decodeLines (bridge : Bridge) : List String :=
  ["/// Decode a validated command into its name and typed payload.",
    opening "pub fn decode(valid_cmd: &LcsfValidCmd) -> Option<(CmdEnum, CmdPayload)>",
    indent 1 "let cmd_name = CmdEnum::from_id(valid_cmd.cmd_id)?;"] ++
    (if bridge.decoders.isEmpty then [indent 1 "let payload = CmdPayload::Empty;"]
    else
      [indent 1 (opening "let payload = match cmd_name")] ++
        bridge.decodeArms.map (fun arm => indent 2 (arm.1.text ++ " => " ++ arm.2.text ++ ",")) ++
        [indent 1 (closing ++ ";")]) ++
    [indent 1 "Some((cmd_name, payload))", closing, ""]

/-- The function that encodes a command. -/
def encodeLines (bridge : Bridge) : List String :=
  ["/// Build the validated command for `cmd_name`, `None` if the payload does not match.",
    opening
      "pub fn encode(cmd_name: CmdEnum, payload: &CmdPayload) -> Option<LcsfValidCmd>",
    indent 1 (opening "let att_arr = match (cmd_name, payload)")] ++
    bridge.encodeArms.map (fun arm => indent 2 (arm.line EncodeResult.text)) ++
    [indent 1 (closing ++ ";"), indent 1 r"Some(LcsfValidCmd {",
      indent 2 "cmd_id: cmd_name.id(),", indent 2 "att_arr,", indent 1 (closing ++ ")"), closing]

/-- The lines of a module. -/
def lines (bridge : Bridge) : List String :=
  moduleBanner (bridge.protocol ++ " LCSF bridge (role " ++ bridge.role.label ++ ")") ++
    bridge.imports.lines ++
    ["/// Lcsf protocol identifier",
      "pub const " ++ idConstant bridge.protocol ++ ": u16 = " ++ Text.hexWord bridge.id ++ ";",
      ""] ++
    CommandVariant.enumLines bridge.commands ++
    (if bridge.nesting then
      ["// Attribute with sub-attributes payloads", ""] ++ bridge.nested.flatMap PayloadStruct.lines
    else []) ++
    (if bridge.payloads.isEmpty then []
    else ["// Command payloads", ""] ++ bridge.payloads.flatMap PayloadStruct.lines) ++
    payloadLines bridge.variants ++ bridge.tables.flatMap AttributeTable.lines ++
    descriptorLines bridge.protocol bridge.rows ++ bridge.decoders.flatMap Decoder.lines ++
    bridge.encoders.flatMap Encoder.lines ++ bridge.decodeLines ++ bridge.encodeLines

/-- The text of a module. -/
def text (bridge : Bridge) : String :=
  Text.unlines bridge.lines

end Bridge
end Typed
end CommandSet
