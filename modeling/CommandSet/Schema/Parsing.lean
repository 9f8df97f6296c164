import CommandSet.Protocol.Basic
import CommandSet.Schema.Grammar
import CommandSet.Schema.Report
import CommandSet.Text.Search

/-!
# From a schema to a protocol

A schema that reads as a draft becomes a protocol once its numbers fit: the
protocol identifier an unsigned and all others a signed 16-bit word.  Numbers are
looked at in the order of the text, and only after the whole text has been read.
Unknown types and directions pass; validation refuses them.

Main definitions:

- {lit}`ParseError`, {lit}`ParseError.message`: what may be wrong with a schema.
- {lit}`unescape`: the text of a description.
- {lit}`parse`: the protocol of a schema.
-/

namespace CommandSet
namespace Schema

/-! ## Errors -/

/-- What may be wrong with a schema. -/
inductive ParseError where
  /-- The text does not follow the grammar. -/
  | unexpected (report : Report)
  /-- A number does not fit a 64-bit word. -/
  | invalidNumber (numeral : Numeral) (overflow : Numeral.Overflow)
  /-- The protocol identifier does not fit. -/
  | protocolIdOutOfRange (id : Int)
  /-- The identifier of a command or attribute does not fit. -/
  | idOutOfRange (owner : String) (id : Int)
deriving Repr, DecidableEq

/-- The wording of an error. -/
def ParseError.message : ParseError → String
  | unexpected report => "Parse error: " ++ report.message
  | invalidNumber numeral overflow =>
      "invalid number " ++ Text.quoted (String.ofList numeral.chars) ++ ": " ++ overflow.message
  | protocolIdOutOfRange id => "protocol id " ++ toString id ++ " out of range"
  | idOutOfRange owner id => owner ++ ": id " ++ toString id ++ " out of range"

/-! ## Parts of a draft -/

/-- The text of a description: newline, tab and quote escapes are replaced, in this
order, each throughout. -/
def unescape (text : List Char) : String :=
  String.ofList <|
    Text.replaceAll ['\\', '"'] ['"'] <|
      Text.replaceAll ['\\', 't'] ['\t'] <|
        Text.replaceAll ['\\', 'n'] ['\n'] text

/-- The description of an item, empty when none is written. -/
def describe (text : Option (List Char)) : String :=
  (text.map unescape).getD ""

/-- The value of a numeral. -/
def numeralWord (n : Numeral) : Except ParseError Int :=
  n.word?.mapError (.invalidNumber n)

/-- The identifier of a command or attribute. -/
def itemId (owner : String) (n : Numeral) : Except ParseError Int16 := do
  let id ← numeralWord n
  if -0x8000 ≤ id ∧ id < 0x8000 then pure (Int16.ofInt id) else throw (.idOutOfRange owner id)

/-- The identifier of a protocol. -/
def protocolId (n : Numeral) : Except ParseError UInt16 := do
  let id ← numeralWord n
  if 0 ≤ id ∧ id < 0x10000 then pure (UInt16.ofNat id.toNat) else throw (.protocolIdOutOfRange id)

mutual

/-- The attribute of a draft. -/
def AttributeDraft.toAttribute : AttributeDraft → Except ParseError Attribute
  | ⟨optional, name, id, typeWord, description, children⟩ => do
      let id ← itemId name id
      let children ← AttributeDraft.toAttributes children
      pure ⟨name, id, optional, DataType.ofKeyword typeWord, children, describe description⟩

/-- The attributes of a list of drafts. -/
def AttributeDraft.toAttributes : List AttributeDraft → Except ParseError (List Attribute)
  | [] => pure []
  | draft :: rest => do
      let att ← draft.toAttribute
      let atts ← AttributeDraft.toAttributes rest
      pure (att :: atts)

end

/-- The command of a draft. -/
def CommandDraft.toCommand (draft : CommandDraft) : Except ParseError Command := do
  let id ← itemId draft.name draft.id
  let attributes ← AttributeDraft.toAttributes draft.attributes
  pure
    ⟨draft.name, id, Direction.ofKeyword draft.directionWord, attributes,
      describe draft.description⟩

/-- The protocol of a draft. -/
def ProtocolDraft.toProtocol (draft : ProtocolDraft) : Except ParseError Protocol := do
  let id ← protocolId draft.id
  let commands ← draft.commands.mapM CommandDraft.toCommand
  pure ⟨draft.name, id, commands⟩

/-! ## Whole schemas -/

/-- Read a schema as a draft, or report where reading stopped. -/
def readDraft (text : List Char) : Except ParseError ProtocolDraft :=
  match Grammar.document text.length ⟨0, text⟩ Attempts.none with
  | (some (draft, _), _) => .ok draft
  | (none, attempts) => .error (.unexpected (Report.ofAttempts text attempts))

/-- The protocol of a schema. -/
def parse (source : String) : Except ParseError Protocol := do
  let draft ← readDraft source.toList
  draft.toProtocol

end Schema
end CommandSet
