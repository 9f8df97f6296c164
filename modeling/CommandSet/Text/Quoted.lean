import CommandSet.Text.EscapeTable
import CommandSet.Text.Hexadecimal

/-!
# Quoted texts in messages

Messages show a doubtful text between double quotes.  Quotes, backslashes and
the usual control characters have short escapes; every other character that
would not show as itself is written by its code point.

Main definitions:

- {lit}`quotedChar`: one character of a quoted text.
- {lit}`quoted`: a text as messages show it.
-/

namespace CommandSet
namespace Text

/-- Whether a character is shown by its code point. -/
def isEscaped (c : Char) : Bool :=
  if c.toNat < 0x80 then c.toNat < 0x20 || c.toNat == 0x7F else anyContains escapedRuns c.toNat

/-- One character of a quoted text. -/
def quotedChar (c : Char) : List Char :=
  if c.toNat == 0 then ['\\', '0']
  else if c == '\t' then ['\\', 't']
  else if c == '\r' then ['\\', 'r']
  else if c == '\n' then ['\\', 'n']
  else if c == '"' then ['\\', '"']
  else if c == '\\' then ['\\', '\\']
  else if isEscaped c then ['\\', 'u', '{'] ++ hexDigits c.toNat ++ ['}']
  else [c]

/-- A text between double quotes, its special characters escaped. -/
def quoted (text : String) : String :=
  String.ofList ('"' :: text.toList.flatMap quotedChar ++ ['"'])

end Text
end CommandSet
