import CommandSet.Protocol.Basic
import CommandSet.Text.LetterCase

/-!
# Names in generated code

How the names of a schema are spelled in generated code.  C constants use upper
case and C types, members and locals lower case; Rust types use capitalised words
and Rust fields and functions snake case.

Main definitions:

- {lit}`capitalized`, {lit}`snakeCase`: the spellings of Rust items.
- {lit}`Naming`: constants, types, locals, paths and file names.
-/

namespace CommandSet

open Text (upper lower)

/-! ## Spellings -/

/-- The non-empty parts between underscores; {lit}`part` holds the characters read
since the last one, in reverse. -/
def underscorePartsFrom (part : List Char) : List Char → List (List Char)
  | [] => if part.isEmpty then [] else [part.reverse]
  | c :: rest =>
      if c == '_' then
        if part.isEmpty then underscorePartsFrom [] rest
        else part.reverse :: underscorePartsFrom [] rest
      else underscorePartsFrom (c :: part) rest

/-- One word with its first character in upper and the rest in lower case. -/
def capitalizedWord : List Char → List Char
  | [] => []
  | c :: rest => Text.upperChar c ++ Text.lowerFrom [] rest

/-- The parts of a name between underscores, each capitalised: {lit}`SET_MODE`
becomes {lit}`SetMode`. -/
def capitalized (name : String) : String :=
  String.ofList ((underscorePartsFrom [] name.toList).flatMap capitalizedWord)

/-- Lower case with an underscore before each capital that follows a lower-case
letter or digit; {lit}`afterLower` says whether one came just before. -/
def snakeCaseFrom (afterLower : Bool) : List Char → List Char
  | [] => []
  | c :: rest =>
      (if Text.isUpper c && afterLower then ['_'] else []) ++ Text.lowerChar c ++
        snakeCaseFrom (Text.isLower c || c.isDigit) rest

/-- A name in snake case: {lit}`SetMode` becomes {lit}`set_mode`. -/
def snakeCase (name : String) : String :=
  String.ofList (snakeCaseFrom false name.toList)

namespace Naming

/-! ## Constants -/

/-- Ordinal of an attribute within its parent: {lit}`TEST_CC1_ATT_SA6`. -/
def attributeOrdinal (protocol parent name : String) : String :=
  upper protocol ++ "_" ++ upper parent ++ "_ATT_" ++ upper name

/-- Presence flag of an optional attribute: {lit}`TEST_CC1_ATT_SA6_FLAG`. -/
def attributeFlag (protocol parent name : String) : String :=
  attributeOrdinal protocol parent name ++ "_FLAG"

/-- Ordinal of a command: {lit}`TEST_CMD_CC1`. -/
def commandOrdinal (protocol command : String) : String :=
  upper protocol ++ "_CMD_" ++ upper command

/-- The ordinal after the last command's: {lit}`TEST_CMD_COUNT`. -/
def commandCount (protocol : String) : String :=
  upper protocol ++ "_CMD_COUNT"

/-- Wire identifier of a command: {lit}`LCSF_TEST_CMD_ID_CC1`. -/
def commandId (protocol command : String) : String :=
  "LCSF_" ++ upper protocol ++ "_CMD_ID_" ++ upper command

/-- Wire identifier of an attribute: {lit}`LCSF_TEST_CC1_ATT_ID_SA6`. -/
def attributeId (protocol parent name : String) : String :=
  "LCSF_" ++ upper protocol ++ "_" ++ upper parent ++ "_ATT_ID_" ++ upper name

/-- Number of attributes of a command: {lit}`LCSF_TEST_CMD_CC1_ATT_NB`. -/
def attributeCount (protocol command : String) : String :=
  "LCSF_" ++ upper protocol ++ "_CMD_" ++ upper command ++ "_ATT_NB"

/-- Number of sub-attributes of a complex attribute: {lit}`LCSF_TEST_ATT_CA1_SUBATT_NB`. -/
def subAttributeCount (protocol name : String) : String :=
  "LCSF_" ++ upper protocol ++ "_ATT_" ++ upper name ++ "_SUBATT_NB"

/-! ## Types -/

/-- Payload struct of a command: {lit}`test_cc1_att_payload_t`. -/
def commandPayload (protocol command : String) : String :=
  lower protocol ++ "_" ++ lower command ++ "_att_payload_t"

/-- Payload struct of a complex attribute: {lit}`test_cc3_att_ca1_att_payload_t`. -/
def nestedPayload (protocol parent name : String) : String :=
  lower protocol ++ "_" ++ lower parent ++ "_att_" ++ lower name ++ "_att_payload_t"

/-- Payload union of all commands: {lit}`test_cmd_payload_t`. -/
def payloadUnion (protocol : String) : String :=
  lower protocol ++ "_cmd_payload_t"

/-- Drop the ending of a type name; the name is reversed. -/
def dropTypeEnding : List Char → List Char
  | 't' :: '_' :: stem => stem
  | name => name

/-- Tag of a struct or union: {lit}`_test_cc1_att_payload`. -/
def structTag (typeName : String) : String :=
  "_" ++ String.ofList (dropTypeEnding typeName.toList.reverse).reverse

/-- Payload type of a complex attribute in Rust: {lit}`Cc3AttCa1Payload`. -/
def typedNestedPayload (parent name : String) : String :=
  capitalized parent ++ "Att" ++ capitalized name ++ "Payload"

/-- Payload type of a command in Rust: {lit}`Cc1AttPayload`. -/
def typedCommandPayload (command : String) : String :=
  capitalized command ++ "AttPayload"

/-! ## Paths and locals -/

/-- The member that holds a payload group: {lit}`cc3_payload`. -/
def groupMember (name : String) : String :=
  lower name ++ "_payload"

/-- The payload group of a chain of names, the command first. -/
def scopePath (ancestors : List String) : String :=
  String.intercalate "." (ancestors.map groupMember)

/-- A member of a payload group: {lit}`cc3_payload.ca1_payload.sa1`. -/
def memberPath (ancestors : List String) (member : String) : String :=
  String.intercalate "." (ancestors.map groupMember ++ [member])

/-- The ordinals that lead from the attributes of a command to an attribute; the
chain runs from the command to its parent. -/
def ordinals (protocol : String) : (ancestors : List String) → (name : String) → List String
  | [], name => [attributeOrdinal protocol "" name]
  | [parent], name => [attributeOrdinal protocol parent name]
  | parent :: child :: rest, name =>
      attributeOrdinal protocol parent child :: ordinals protocol (child :: rest) name

/-- An element of nested attribute arrays. -/
def elementPath (root : String) (ordinals : List String) : String :=
  root ++ "[" ++ String.intercalate "].Payload.pSubAttArray[" ordinals ++ "]"

/-- The array from which received attributes are read. -/
def receiveRoot : String :=
  "pAttArray"

/-- The array into which sent attributes are written. -/
def transmitRoot : String :=
  "(*pAttArrayPtr)"

/-- Stem of the locals of an attribute: the names below the command, joined. -/
def localStem (ancestors : List String) (name : String) : String :=
  String.intercalate "_" ((ancestors.drop 1).map lower ++ [lower name])

/-! ## Files -/

/-- The main header. -/
def mainHeaderFile (protocol : String) : String :=
  protocol ++ "_Main.h"

/-- The main module of a role. -/
def mainSourceFile (protocol : String) (role : Role) : String :=
  protocol ++ "_Main_" ++ role.letter ++ ".c"

/-- The header of the bridge to the validator. -/
def bridgeHeaderFile (protocol : String) : String :=
  "LCSF_Bridge_" ++ protocol ++ ".h"

/-- The bridge to the validator of a role. -/
def bridgeSourceFile (protocol : String) (role : Role) : String :=
  "LCSF_Bridge_" ++ protocol ++ "_" ++ role.letter ++ ".c"

/-- The descriptor tables. -/
def descriptorFile (protocol : String) : String :=
  "LCSF_Desc_" ++ protocol ++ ".c"

/-- The bridge module in Rust. -/
def typedBridgeModule (protocol : String) : String :=
  "lcsf_protocol_" ++ snakeCase protocol

/-- The main module in Rust. -/
def typedMainModule (protocol : String) : String :=
  "protocol_" ++ snakeCase protocol

end Naming
end CommandSet
