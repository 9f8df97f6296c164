import CommandSet.Proofs.Protocol.WellFormed

/-!
# Written schemas

Which texts say a protocol.  A schema is first a sequence of tokens, which leaves open
how numbers, descriptions and empty lists of attributes are spelled, and then a text,
which leaves open the layout between the tokens.

Main definitions:

- {lit}`NumberToken`, {lit}`QuotedChars`: spellings of numbers and descriptions.
- {lit}`AttributeTokens`, {lit}`CommandTokens`, {lit}`ProtocolTokens`: the tokens of a
  protocol.
- {lit}`Layout`, {lit}`Spread`, {lit}`LaidOut`: tokens with layout around them.
- {lit}`Writable`: the protocols that can be written.
-/

namespace CommandSet
namespace Schema

/-- The characters of a token. -/
abbrev Token :=
  List Char

/-! ## Numbers and descriptions -/

/-- The spellings of a number: decimal with an optional minus sign, or hexadecimal in
either case, with any number of leading zeros. -/
inductive NumberToken : Int → Token → Prop where
  | decimal (n zeros : Nat) : NumberToken n (List.replicate zeros '0' ++ Nat.toDigits 10 n)
  | negative (n zeros : Nat) :
      NumberToken (-n) ('-' :: (List.replicate zeros '0' ++ Nat.toDigits 10 n))
  | hexadecimal (n zeros : Nat) {mark : Char} {digits : List Char} (hmark : mark = 'x' ∨ mark = 'X')
      (hdigits : digits.map Char.toLower = List.replicate zeros '0' ++ Nat.toDigits 16 n) :
      NumberToken n ('0' :: mark :: digits)

/-- The characters between the quotes of a description: quotes are escaped, newlines
and tabs may be. -/
inductive QuotedChars : List Char → List Char → Prop where
  | nil : QuotedChars [] []
  | quote {text chars : List Char} : QuotedChars text chars →
      QuotedChars ('"' :: text) ('\\' :: '"' :: chars)
  | newline {text chars : List Char} : QuotedChars text chars →
      QuotedChars ('\n' :: text) ('\\' :: 'n' :: chars)
  | tab {text chars : List Char} : QuotedChars text chars →
      QuotedChars ('\t' :: text) ('\\' :: 't' :: chars)
  | plain {c : Char} {text chars : List Char} (hc : c ≠ '"') : QuotedChars text chars →
      QuotedChars (c :: text) (c :: chars)

/-- A description between quotes; an empty one may be left out. -/
inductive DescriptionTokens : String → List Token → Prop where
  | omitted : DescriptionTokens "" []
  | quoted {description : String} {chars : List Char} (h : QuotedChars description.toList chars) :
      DescriptionTokens description ['"' :: chars ++ ['"']]

/-! ## Tokens of a protocol -/

/-- The word in front of an optional attribute. -/
def optionalTokens (optional : Bool) : List Token :=
  if optional then ["optional".toList] else []

mutual

/-- The tokens of an attribute. -/
inductive AttributeTokens : Attribute → List Token → Prop where
  | mk {att : Attribute} {number : Token} {description body : List Token}
      (hnumber : NumberToken att.id.toInt number)
      (hdescription : DescriptionTokens att.description description)
      (hbody : BodyTokens att.children body) :
      AttributeTokens att
        (optionalTokens att.optional ++
          (["attribute".toList, att.name.toList, ['='], number, [':'],
            att.dataType.keyword.toList] ++ (description ++ body)))

/-- The tokens of a list of attributes behind its owner; an empty list may be written
as a semicolon. -/
inductive BodyTokens : List Attribute → List Token → Prop where
  | terminator : BodyTokens [] [[';']]
  | braces {atts : List Attribute} {tokens : List Token} (h : AttributesTokens atts tokens) :
      BodyTokens atts (['{'] :: (tokens ++ [['}']]))

/-- The tokens of attributes one after the other. -/
inductive AttributesTokens : List Attribute → List Token → Prop where
  | nil : AttributesTokens [] []
  | cons {att : Attribute} {rest : List Attribute} {tokens more : List Token}
      (hfirst : AttributeTokens att tokens) (hrest : AttributesTokens rest more) :
      AttributesTokens (att :: rest) (tokens ++ more)

end

/-- The tokens of a command. -/
inductive CommandTokens : Command → List Token → Prop where
  | mk {cmd : Command} {number : Token} {description body : List Token}
      (hnumber : NumberToken cmd.id.toInt number)
      (hdescription : DescriptionTokens cmd.description description)
      (hbody : BodyTokens cmd.attributes body) :
      CommandTokens cmd
        (["command".toList, cmd.name.toList, ['='], number, cmd.direction.keyword.toList] ++
          (description ++ body))

/-- The tokens of commands one after the other. -/
inductive CommandsTokens : List Command → List Token → Prop where
  | nil : CommandsTokens [] []
  | cons {cmd : Command} {rest : List Command} {tokens more : List Token}
      (hfirst : CommandTokens cmd tokens) (hrest : CommandsTokens rest more) :
      CommandsTokens (cmd :: rest) (tokens ++ more)

/-- The tokens of a protocol. -/
inductive ProtocolTokens : Protocol → List Token → Prop where
  | mk {protocol : Protocol} {number : Token} {commands : List Token}
      (hnumber : NumberToken protocol.id.toNat number)
      (hcommands : CommandsTokens protocol.commands commands) :
      ProtocolTokens protocol
        (["protocol".toList, protocol.name.toList, ['='], number, ['{']] ++ commands ++
          [['}']])

/-! ## Layout -/

/-- Blanks between tokens. -/
def layoutBlanks : List Char :=
  [' ', '\t', '\r', '\n']

/-- Any mix of blanks, comments that end with their line, and closed block comments. -/
inductive Layout : List Char → Prop where
  | nil : Layout []
  | blank {c : Char} {rest : List Char} (hc : c ∈ layoutBlanks) : Layout rest → Layout (c :: rest)
  | lineComment {comment rest : List Char} (hcomment : '\n' ∉ comment) : Layout rest →
      Layout ('/' :: '/' :: (comment ++ '\n' :: rest))
  | blockComment {comment rest : List Char} (hcomment : ¬['*', '/'] <:+: comment) : Layout rest →
      Layout ('/' :: '*' :: (comment ++ '*' :: '/' :: rest))

/-- Layout that separates two tokens. -/
structure Gap (text : List Char) : Prop where
  layout : Layout text
  ne_nil : text ≠ []

/-- The text of tokens with a gap behind each. -/
inductive Spread : List Token → List Char → Prop where
  | nil : Spread [] []
  | cons {token : Token} {tokens : List Token} {gap text : List Char} (hgap : Gap gap)
      (h : Spread tokens text) : Spread (token :: tokens) (token ++ (gap ++ text))

/-- The text of tokens with gaps between them, and possibly layout before the first and
behind the last. -/
inductive LaidOut : List Token → List Char → Prop where
  | mk {front : List Token} {last : Token} {before text after : List Char} (hbefore : Layout before)
      (h : Spread front text) (hafter : Layout after) :
      LaidOut (front ++ [last]) (before ++ (text ++ (last ++ after)))

/-! ## Protocols that can be written -/

/-- Protocols whose names the grammar reads as one word and whose descriptions hold no
backslash. -/
structure Writable (protocol : Protocol) : Prop where
  protocol_name : IsName protocol.name
  command_names : ∀ cmd ∈ protocol.commands, IsName cmd.name
  attribute_names : ∀ att ∈ protocol.attributes, IsName att.name
  command_descriptions : ∀ cmd ∈ protocol.commands, '\\' ∉ cmd.description.toList
  attribute_descriptions : ∀ att ∈ protocol.attributes, '\\' ∉ att.description.toList

end Schema
end CommandSet
