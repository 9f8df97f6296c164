import CommandSet.Text.Blank
import CommandSet.Text.Search

/-!
# Lines of C source

Recovery looks at a source line by line: where comments end and code begins, which
braces a line opens and closes, and what kind of line it is.

Main definitions:

- {lit}`codePart`: a line without its comment.
- {lit}`walkBraces`, {lit}`braceDelta`: the braces of a line.
- {lit}`isCommentLine`, {lit}`isStatementLine`, {lit}`isBlankLine`: kinds of lines.
- {lit}`Marker`, {lit}`Marker.isOn`: the lines between sections.
-/

namespace CommandSet
namespace Recovery

/-! ## Parts of a line -/

/-- A line up to its first {lit}`//`. -/
def codePart (line : String) : List Char :=
  Text.before ['/', '/'] line.toList

/-- A line without the blanks at its ends. -/
def trimmed (line : String) : List Char :=
  Text.trim line.toList

/-- Lines of blanks only. -/
def isBlankLine (line : String) : Bool :=
  (trimmed line).isEmpty

/-! ## Braces -/

/-- The nesting depth after some code, and whether a brace was opened in it; nothing
if a brace is closed that was never opened. -/
def walkBraces (depth : Nat) (opened : Bool) : List Char → Option (Nat × Bool)
  | [] => some (depth, opened)
  | '{' :: rest => walkBraces (depth + 1) true rest
  | '}' :: rest =>
      match depth with
      | 0 => none
      | depth + 1 => walkBraces depth opened rest
  | _ :: rest => walkBraces depth opened rest

/-- Opened less closed braces of a line. -/
def braceDelta (line : String) : Int :=
  let code := codePart line
  (code.count '{' : Int) - code.count '}'

/-! ## Kinds of lines -/

/-- Lines that belong to a comment. -/
def isCommentLine (line : String) : Bool :=
  let text := trimmed line
  ['/', '/'].isPrefixOf text || ['/', '*'].isPrefixOf text || ['*'].isPrefixOf text ||
    ['*', '/'].isSuffixOf text

/-- Lines that cannot continue into a signature: directives, statements and ends of
blocks. -/
def isStatementLine (line : String) : Bool :=
  let text := Text.trim (codePart line)
  ['#'].isPrefixOf text || [';'].isSuffixOf text || ['}'].isSuffixOf text

/-! ## Section markers -/

/-- The markers that start the sections of a main module. -/
inductive Marker where
  | definitions
  | privateFunctions
  | publicFunctions
deriving Repr, DecidableEq

/-- The name of a section in its marker. -/
def Marker.name : Marker → String
  | .definitions => "Definitions"
  | .privateFunctions => "Private Functions"
  | .publicFunctions => "Public Functions"

/-- Whether a line is a marker of the section. -/
def Marker.isOn (marker : Marker) (line : String) : Bool :=
  let text := trimmed line
  "// ***".toList.isPrefixOf text && Text.occursIn marker.name.toList text

end Recovery
end CommandSet
