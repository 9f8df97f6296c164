import CommandSet.Firmware.BridgeHeader
import CommandSet.Firmware.Codec

/-!
# The bridge of a role

The bridge of a role decodes the commands the role receives and encodes those it
sends.  The attribute arrays of an encoded command are taken from one arena, which
is emptied for every command and is as long as the largest command needs.

Main definitions:

- {lit}`Bridge`, {lit}`Bridge.build`: a bridge and its making.
- {lit}`Bridge.lines`: its text.
-/

namespace CommandSet
namespace Firmware

open Text (lower upper)

/-- A command as the bridge knows it: the names of its identifier and ordinal. -/
structure CommandKey where
  idName : String
  ordinal : String
deriving Repr, DecidableEq

/-- The bridge of a role. -/
structure Bridge where
  protocol : String
  role : Role
  /-- Length of the arena. -/
  arena : Nat
  /-- All commands in the order of their ordinals. -/
  keys : List CommandKey
  decoders : List Decoder
  encoders : List Encoder

namespace Bridge

/-- The bridge of a role. -/
def build (prepared : Prepared) (role : Role) : Bridge :=
  let protocol := prepared.protocol.name
  { protocol := protocol
    role := role
    arena := max prepared.protocol.maxSlots 1
    keys :=
      prepared.protocol.commands.map fun cmd =>
        ⟨Naming.commandId protocol cmd.name, Naming.commandOrdinal protocol cmd.name⟩
    decoders := (prepared.protocol.decoded role).map (Decoder.ofCommand protocol)
    encoders := (prepared.protocol.encoded role).map (Encoder.ofCommand protocol) }

/-! ## Constants and types -/

/-- The macro for the length of the arena. -/
def arenaMacro (protocol : String) : String :=
  "LCSF_" ++ upper protocol ++ "_MAX_ATT_NB"

/-- The variable that holds the state of the bridge. -/
def infoVariable (protocol : String) : String :=
  "LcsfBridge" ++ protocol ++ "Info"

/-- The lines before the functions. -/
def definitionLines (bridge : Bridge) : List String :=
  let protocol := bridge.protocol
  let infoType := "lcsf_bridge_" ++ lower protocol ++ "_info"
  banner (Naming.bridgeSourceFile protocol bridge.role)
      (protocol ++ " LCSF bridge module (" ++ bridge.role.label ++ ")") ++
    ["// *** Libraries include ***", "// Standard lib", "#include <string.h>", "// Custom lib",
      "#include \"" ++ Naming.bridgeHeaderFile protocol ++ "\"", "", "// *** Definitions ***",
      "// --- Private Macros ---",
      "#define " ++ arenaMacro protocol ++ " " ++ toString bridge.arena, "",
      "// --- Private Types ---", opening ("typedef struct _" ++ infoType),
      indent 1 "uint16_t freeAttIdx;",
      indent 1 ("lcsf_valid_att_t attArray[" ++ arenaMacro protocol ++ "];"),
      indent 1 (Naming.payloadUnion protocol ++ " cmdPayload;"),
      closing ++ " " ++ infoType ++ "_t;", "", "// --- Private Constants ---",
      opening
        ("static const uint16_t LCSF_Bridge_" ++ protocol ++ "_CmdNameToId[" ++
          commandNumber protocol ++ "] =")] ++
    bridge.keys.map (fun key => indent 1 (key.idName ++ ",")) ++
    [closing ++ ";", "", "// --- Private Variables ---",
      "static " ++ infoType ++ "_t " ++ infoVariable protocol ++ ";", ""]

/-! ## Functions -/

/-- The function from identifiers to ordinals, with the blank line after it. -/
def idToNameLines (bridge : Bridge) : List String :=
  [opening
      ("static uint16_t LCSF_Bridge_" ++ bridge.protocol ++ "CmdIdToName(uint_fast16_t cmdId)"),
    indent 1 (opening "switch (cmdId)")] ++
    bridge.keys.flatMap (fun key =>
      [indent 2 ("case " ++ key.idName ++ ":"), indent 3 ("return " ++ key.ordinal ++ ";")]) ++
    [indent 2 "default:", indent 3 ("return " ++ Naming.commandCount bridge.protocol ++ ";"),
      indent 1 closing, closing, ""]

/-- The function that takes an array from the arena, with the blank line after it. -/
def allocateLines (protocol : String) : List String :=
  let info := infoVariable protocol
  [opening
      ("static lcsf_valid_att_t *LCSF_Bridge_" ++ protocol ++
        "AllocateAtt(uint_fast16_t attNb)"),
    indent 1
      (opening
        ("if ((uint_fast16_t)(" ++ info ++ ".freeAttIdx + attNb) > " ++ arenaMacro protocol ++
          ")")),
    indent 2 "return NULL;", indent 1 closing,
    indent 1 ("lcsf_valid_att_t *pAtt = &" ++ info ++ ".attArray[" ++ info ++ ".freeAttIdx];"),
    indent 1 (info ++ ".freeAttIdx += attNb;"), indent 1 "return pAtt;", closing, ""]

/-- The function that takes a received command, with the blank line after it. -/
def receiveLines (bridge : Bridge) : List String :=
  let protocol := bridge.protocol
  [opening ("bool " ++ receiveSignature protocol), indent 1 (opening "if (pValidCmd == NULL)"),
    indent 2 "return false;", indent 1 closing,
    indent 1
      ("uint16_t cmdName = LCSF_Bridge_" ++ protocol ++ "CmdIdToName(pValidCmd->CmdId);"),
    indent 1 (opening ("if (cmdName >= " ++ Naming.commandCount protocol ++ ")")),
    indent 2 "return false;", indent 1 closing,
    indent 1
      (Naming.payloadUnion protocol ++ " *pCmdPayload = &" ++ infoVariable protocol ++
        ".cmdPayload;")] ++
    (if bridge.decoders.isEmpty then []
    else
      [indent 1
        ("LCSF_Bridge_" ++ protocol ++
          "GetCmdData(cmdName, pValidCmd->pAttArray, pCmdPayload);")]) ++
    [indent 1 ("return " ++ protocol ++ "Execute(cmdName, pCmdPayload);"), closing, ""]

/-- The function that encodes a command. -/
def encodeLines (bridge : Bridge) : List String :=
  let protocol := bridge.protocol
  [opening ("int " ++ encodeSignature protocol),
    indent 1 (opening ("if (cmdName >= " ++ Naming.commandCount protocol ++ ")")),
    indent 2 "return -1;", indent 1 closing, indent 1 "lcsf_valid_cmd_t sendCmd;",
    indent 1 ("sendCmd.CmdId = LCSF_Bridge_" ++ protocol ++ "_CmdNameToId[cmdName];"),
    indent 1 "sendCmd.pAttArray = NULL;",
    indent 1 (infoVariable protocol ++ ".freeAttIdx = 0;")] ++
    (if bridge.encoders.isEmpty then [indent 1 "(void)pCmdPayload;"]
    else
      [indent 1
          (opening
            ("if (!LCSF_Bridge_" ++ protocol ++
              "FillCmdAtt(cmdName, &sendCmd.pAttArray, pCmdPayload))")),
        indent 2 "return -1;", indent 1 closing]) ++
    [indent 1
        ("return LCSF_ValidatorEncode(" ++ protocolIdMacro protocol ++
          ", &sendCmd, pBuffer, buffSize);"),
      closing]

/-! ## The whole bridge -/

/-- The lines of a bridge. -/
def lines (bridge : Bridge) : List String :=
  bridge.definitionLines ++ ["// *** Private Functions ***", ""] ++ bridge.idToNameLines ++
    (if bridge.encoders.isEmpty then [] else allocateLines bridge.protocol) ++
    bridge.decoders.flatMap Decoder.lines ++
    (if bridge.decoders.isEmpty then []
    else Decoder.selectLines bridge.protocol bridge.decoders) ++
    bridge.encoders.flatMap Encoder.lines ++
    (if bridge.encoders.isEmpty then []
    else Encoder.selectLines bridge.protocol bridge.encoders) ++
    ["// *** Public Functions ***", ""] ++ bridge.receiveLines ++ bridge.encodeLines

/-- The text of a bridge. -/
def text (bridge : Bridge) : String :=
  Text.unlines bridge.lines

end Bridge
end Firmware
end CommandSet
