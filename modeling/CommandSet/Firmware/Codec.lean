import CommandSet.Firmware.Statement

/-!
# Decoding and encoding of payloads

Decoding copies the elements of received attribute arrays into the payload struct
of a command; encoding fills attribute arrays from it.  Both walk the attributes
of the command in order, each before its sub-attributes.  An optional attribute is
decoded if its element carries something and encoded if its presence bit is set.

Main definitions:

- {lit}`decodeAll`, {lit}`decodeGroup`: the statements that decode attributes.
- {lit}`encodeAll`: the statements that encode attributes.
- {lit}`Decoder`, {lit}`Encoder`: the functions of a command.
-/

namespace CommandSet
namespace Firmware

open Text (lower)

/-! ## Statements -/

/-- Clear the presence bits of a group that has any. -/
def clearGroup (groups : List String) (attributes : List Attribute) : List Statement :=
  if attributes.any (·.optional) then
    [.remark "Initialize optional attribute flags bitfield",
      .clearPresence groups (PresenceWidth.ofCount attributes.length)]
  else []

mutual

/-- The statements that decode an attribute, which is the one at {lit}`index` of a
group with presence field {lit}`width`. -/
def decode (protocol : String) (ancestors : List String) (width : PresenceWidth)
    (index : Nat) : Attribute → List Statement
  | ⟨name, _, optional, dataType, children, _⟩ =>
      let source : Element := ⟨Naming.receiveRoot, Naming.ordinals protocol ancestors name⟩
      let bit : PresenceBit :=
        ⟨ancestors, width, index, Naming.attributeFlag protocol (ancestors.getLastD "") name⟩
      match dataType.storage with
      | none => []
      | some storage =>
          let values : List Statement :=
            match storage with
            | .scalar scalar => [.takeNumber scalar ⟨ancestors, numberMember name⟩ source]
            | .bytes =>
                [.takeLength ⟨ancestors, sizeMember name⟩ source,
                  .takePointer ⟨ancestors, pointerMember name⟩ source]
            | .text => [.takePointer ⟨ancestors, pointerMember name⟩ source]
            | .nested =>
                clearGroup (ancestors ++ [name]) children ++
                  decodeAll protocol (ancestors ++ [name])
                    (PresenceWidth.ofCount children.length) 0 children
          .remark ("Retrieve data of attribute " ++ name) ::
            if optional then
              [.ifCarried source (Slot.ofStorage storage) (.setPresence bit :: values)]
            else values

/-- The statements that decode sibling attributes, the first of which stands at
{lit}`index`. -/
def decodeAll (protocol : String) (ancestors : List String) (width : PresenceWidth)
    (index : Nat) : List Attribute → List Statement
  | [] => []
  | att :: rest =>
      decode protocol ancestors width index att ++
        decodeAll protocol ancestors width (index + 1) rest

end

/-- The statements that decode all attributes of a group. -/
def decodeGroup (protocol : String) (ancestors : List String) (attributes : List Attribute) :
    List Statement :=
  clearGroup ancestors attributes ++
    decodeAll protocol ancestors (PresenceWidth.ofCount attributes.length) 0 attributes

mutual

/-- The statements that encode an attribute, which is the one at {lit}`index` of a
group with presence field {lit}`width`. -/
def encode (protocol : String) (ancestors : List String) (width : PresenceWidth)
    (index : Nat) : Attribute → List Statement
  | ⟨name, _, optional, dataType, children, _⟩ =>
      let target : Element := ⟨Naming.transmitRoot, Naming.ordinals protocol ancestors name⟩
      let bit : PresenceBit :=
        ⟨ancestors, width, index, Naming.attributeFlag protocol (ancestors.getLastD "") name⟩
      match dataType.storage with
      | none => []
      | some storage =>
          let values : List Statement :=
            match storage with
            | .scalar scalar =>
                [.putWidth target scalar, .putAddress target ⟨ancestors, numberMember name⟩]
            | .bytes =>
                [.putLength target ⟨ancestors, sizeMember name⟩,
                  .putPointer target ⟨ancestors, pointerMember name⟩]
            | .text =>
                [.putTextLength target ⟨ancestors, pointerMember name⟩,
                  .putPointer target ⟨ancestors, pointerMember name⟩]
            | .nested =>
                [.putCount target (Naming.subAttributeCount protocol name),
                  .allocate protocol target (Naming.subAttributeCount protocol name),
                  .requireArray target] ++
                  encodeAll protocol (ancestors ++ [name])
                    (PresenceWidth.ofCount children.length) 0 children
          .remark ("Fill attribute " ++ name) ::
            if optional then
              [.ifPresent bit values [.putAbsent target (Slot.ofStorage storage)]]
            else values

/-- The statements that encode sibling attributes, the first of which stands at
{lit}`index`. -/
def encodeAll (protocol : String) (ancestors : List String) (width : PresenceWidth)
    (index : Nat) : List Attribute → List Statement
  | [] => []
  | att :: rest =>
      encode protocol ancestors width index att ++
        encodeAll protocol ancestors width (index + 1) rest

end

/-- The statements that encode all attributes of a group. -/
def encodeGroup (protocol : String) (ancestors : List String) (attributes : List Attribute) :
    List Statement :=
  encodeAll protocol ancestors (PresenceWidth.ofCount attributes.length) 0 attributes

/-! ## Functions -/

/-- The function that decodes the payload of a command. -/
structure Decoder where
  protocol : String
  command : String
  /-- The ordinal of the command. -/
  ordinal : String
  body : List Statement

namespace Decoder

/-- The decoder of a command. -/
def ofCommand (protocol : String) (cmd : Command) : Decoder :=
  { protocol := protocol
    command := cmd.name
    ordinal := Naming.commandOrdinal protocol cmd.name
    body := decodeGroup protocol [cmd.name] cmd.attributes }

/-- The name of a decoder. -/
def name (decoder : Decoder) : String :=
  "LCSF_Bridge_" ++ decoder.protocol ++ decoder.command ++ "GetData"

/-- The text of a decoder, with the blank line after it. -/
def lines (decoder : Decoder) : List String :=
  [opening
      ("static void " ++ decoder.name ++ "(lcsf_valid_att_t *pAttArray, " ++
        Naming.payloadUnion decoder.protocol ++ " *pCmdPayload)"),
    indent 1 (opening "if (pCmdPayload == NULL)"), indent 2 "return;", indent 1 closing] ++
    Statement.allLines 1 decoder.body ++ [closing, ""]

/-- The function that selects a decoder, with the blank line after it. -/
def selectLines (protocol : String) (decoders : List Decoder) : List String :=
  [opening
      ("static void LCSF_Bridge_" ++ protocol ++
        "GetCmdData(uint_fast16_t cmdName, lcsf_valid_att_t *pAttArray, " ++
        Naming.payloadUnion protocol ++ " *pCmdPayload)"),
    indent 1 (opening "if (pAttArray == NULL)"), indent 2 "return;", indent 1 closing,
    indent 1 (opening "switch (cmdName)")] ++
    decoders.flatMap (fun decoder =>
      [indent 2 ("case " ++ decoder.ordinal ++ ":"),
        indent 3 (decoder.name ++ "(pAttArray, pCmdPayload);"), indent 3 "break;"]) ++
    [indent 2 "default:", indent 3 "break;", indent 1 closing, closing, ""]

end Decoder

/-- The function that encodes the payload of a command. -/
structure Encoder where
  protocol : String
  command : String
  /-- The ordinal of the command. -/
  ordinal : String
  /-- The length of the array of the command's attributes. -/
  count : String
  body : List Statement

namespace Encoder

/-- The encoder of a command. -/
def ofCommand (protocol : String) (cmd : Command) : Encoder :=
  { protocol := protocol
    command := cmd.name
    ordinal := Naming.commandOrdinal protocol cmd.name
    count := Naming.attributeCount protocol cmd.name
    body := encodeGroup protocol [cmd.name] cmd.attributes }

/-- The name of an encoder. -/
def name (encoder : Encoder) : String :=
  "LCSF_Bridge_" ++ encoder.protocol ++ encoder.command ++ "FillAtt"

/-- The text of an encoder, with the blank line after it. -/
def lines (encoder : Encoder) : List String :=
  [opening
      ("static bool " ++ encoder.name ++ "(lcsf_valid_att_t **pAttArrayPtr, " ++
        Naming.payloadUnion encoder.protocol ++ " *pCmdPayload)"),
    indent 1 (opening "if (pCmdPayload == NULL)"), indent 2 "return false;", indent 1 closing,
    indent 1 "// Allocate attribute array",
    indent 1 ("*pAttArrayPtr = " ++ allocateCall encoder.protocol encoder.count ++ ";"),
    indent 1 (opening "if (*pAttArrayPtr == NULL)"), indent 2 "return false;",
    indent 1 closing] ++
    Statement.allLines 1 encoder.body ++ [indent 1 "return true;", closing, ""]

/-- The function that selects an encoder, with the blank line after it. -/
def selectLines (protocol : String) (encoders : List Encoder) : List String :=
  [opening
      ("static bool LCSF_Bridge_" ++ protocol ++
        "FillCmdAtt(uint_fast16_t cmdName, lcsf_valid_att_t **pAttArrayPtr, " ++
        Naming.payloadUnion protocol ++ " *pCmdPayload)"),
    indent 1 (opening "switch (cmdName)")] ++
    encoders.flatMap (fun encoder =>
      [indent 2 ("case " ++ encoder.ordinal ++ ":"),
        indent 3 ("return " ++ encoder.name ++ "(pAttArrayPtr, pCmdPayload);")]) ++
    [indent 2 "default:", indent 3 "*pAttArrayPtr = NULL;", indent 3 "return true;",
      indent 1 closing, closing, ""]

end Encoder
end Firmware
end CommandSet
