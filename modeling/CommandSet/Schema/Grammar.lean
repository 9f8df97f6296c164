import CommandSet.Schema.Numeral
import CommandSet.Schema.Reader

/-!
# The schema grammar

The text of a schema is read into a draft: names, words and numerals as written.
What the words mean and whether the numbers fit is decided afterwards.

Main definitions:

- {lit}`AttributeDraft`, {lit}`CommandDraft`, {lit}`ProtocolDraft`: what a schema
  says, word for word.
- {lit}`Grammar.document`: the reader of a whole schema.
-/

namespace CommandSet
namespace Schema

/-! ## Drafts -/

/-- An attribute as written. -/
structure AttributeDraft where
  optional : Bool
  name : String
  id : Numeral
  typeWord : String
  description : Option (List Char)
  children : List AttributeDraft

/-- A command as written. -/
structure CommandDraft where
  name : String
  id : Numeral
  directionWord : String
  description : Option (List Char)
  attributes : List AttributeDraft

/-- A protocol as written. -/
structure ProtocolDraft where
  name : String
  id : Numeral
  commands : List CommandDraft

namespace Grammar

open Reader

/-! ## Tokens -/

/-- First characters of a name. -/
def isNameStart (c : Char) : Bool :=
  c.isAlpha || c == '_'

/-- Further characters of a name. -/
def isNameRest (c : Char) : Bool :=
  c.isAlphanum || c == '_'

/-- The name at the head of a text. -/
def nameAt : List Char → Option (List Char)
  | [] => none
  | c :: rest => if isNameStart c then some (c :: rest.takeWhile isNameRest) else none

/-- A name. -/
def ident : Reader String :=
  named .ident <| plain fun rest =>
    (nameAt rest).map fun name => (String.ofList name, name.length)

/-- Hexadecimal digits behind their mark. -/
def hexAt : List Char → Option Numeral
  | '0' :: x :: rest =>
      let digits := rest.takeWhile isHexDigit
      if (x == 'x' || x == 'X') && !digits.isEmpty then some (.hex (x == 'X') digits) else none
  | _ => none

/-- Decimal digits, with their sign if there is one. -/
def decAt : List Char → Option Numeral
  | '-' :: rest =>
      let digits := rest.takeWhile Char.isDigit
      if digits.isEmpty then none else some (.dec true digits)
  | rest =>
      let digits := rest.takeWhile Char.isDigit
      if digits.isEmpty then none else some (.dec false digits)

/-- A reader of one form of numeral. -/
def numeral (formAt : List Char → Option Numeral) : Reader Numeral :=
  plain fun rest => (formAt rest).map fun n => (n, n.chars.length)

/-- A number in either form. -/
def number : Reader Numeral :=
  named .number <|
    orElse (named .hex (numeral hexAt)) (named .dec (numeral decAt))

/-- The characters of a quoted text up to its closing quote; a backslash takes the
character after it along. -/
def quotedSpan : List Char → List Char
  | '"' :: _ => []
  | '\\' :: c :: rest => '\\' :: c :: quotedSpan rest
  | ['\\'] => []
  | c :: rest => c :: quotedSpan rest
  | [] => []

/-- A quoted text, its escapes as written. -/
def string : Reader (List Char) :=
  named .string do
    word "\""
    let text ← named .stringInner <| plain fun rest =>
      let span := quotedSpan rest
      some (span, span.length)
    word "\""
    pure text

/-! ## Attributes -/

/-- The word that makes an attribute optional. -/
def optionalWord : Reader Unit :=
  named .optionalWord (word "optional")

/-- The end of an item without a body. -/
def terminator : Reader Unit :=
  named .terminator (word ";")

/-- The end of an item: a body, or a terminator in place of an empty one. -/
def bodyOrTerminator (body : Reader (List AttributeDraft)) : Reader (List AttributeDraft) :=
  orElse body do
    terminator
    pure []

/-- An attribute whose sub-attributes are read by {lit}`body`. -/
def attributeClause (body : Reader (List AttributeDraft)) : Reader AttributeDraft :=
  named .attributeClause do
    let optional ← maybe optionalWord
    layout
    word "attribute"
    layout
    let name ← ident
    layout
    word "="
    layout
    let id ← number
    layout
    word ":"
    layout
    let typeWord ← ident
    layout
    let description ← maybe string
    layout
    let children ← bodyOrTerminator body
    pure ⟨optional.isSome, name, id, typeWord, description, children⟩

/-- A body: attributes between braces.  At most {lit}`depth` bodies nest and each
holds at most {lit}`limit` attributes. -/
def body (limit : Nat) : (depth : Nat) → Reader (List AttributeDraft)
  | 0 => fun _ attempts => (none, attempts)
  | depth + 1 =>
      named .body do
        word r"{"
        layout
        let attributes ← many layout (attributeClause (body limit depth)) limit
        layout
        word r"}"
        pure attributes

/-! ## Commands -/

/-- A command. -/
def commandClause (limit : Nat) : Reader CommandDraft :=
  named .commandClause do
    word "command"
    layout
    let name ← ident
    layout
    word "="
    layout
    let id ← number
    layout
    let directionWord ← ident
    layout
    let description ← maybe string
    layout
    let attributes ← bodyOrTerminator (body limit limit)
    pure ⟨name, id, directionWord, description, attributes⟩

/-- The end of the text. -/
def endOfInput : Reader Unit :=
  named .endOfInput <| plain fun rest => if rest.isEmpty then some ((), 0) else none

/-- A whole schema.  No text holds more bodies or items than characters, so
{lit}`limit` is its length. -/
def document (limit : Nat) : Reader ProtocolDraft :=
  named .protocolClause do
    layout
    word "protocol"
    layout
    let name ← ident
    layout
    word "="
    layout
    let id ← number
    layout
    word r"{"
    layout
    let commands ← many layout (commandClause limit) limit
    layout
    word r"}"
    layout
    endOfInput
    pure ⟨name, id, commands⟩

end Grammar
end Schema
end CommandSet
