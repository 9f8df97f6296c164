import CommandSet.CodeLine
import CommandSet.Text.LetterCase

/-!
# Layout of generated C files

A generated C file opens with a banner and documents every function in a comment
block; a header is guarded against a second inclusion.

Main definitions:

- {lit}`banner`: the comment that opens a file.
- {lit}`DocBlock`: the comment that documents a function.
- {lit}`includeGuard`: the symbol that guards a header.
-/

namespace CommandSet
namespace Firmware

/-! ## Comments -/

/-- The comment that opens a file, with the blank line after it. -/
def banner (file brief : String) : List String :=
  ["/**", " * \\file " ++ file, " * \\brief " ++ brief, " * \\author LCSF Generator", " *", " */",
    ""]

/-- What the comment above a function says. -/
structure DocBlock where
  signature : String
  brief : String
  params : List (String × String)
  result : String
deriving Repr, DecidableEq

/-- The result that every documented function has. -/
def successResult : String :=
  "bool: true if operation was a success"

/-- The comment above a function. -/
def DocBlock.lines (doc : DocBlock) : List String :=
  ["/**", " * \\fn " ++ doc.signature, " * \\brief " ++ doc.brief, " *"] ++
    doc.params.map (fun param => " * \\param " ++ param.1 ++ " " ++ param.2) ++
    [" * \\return " ++ doc.result, " */"]

/-- The symbol that guards a header against a second inclusion. -/
def includeGuard (file : String) : String :=
  String.ofList ((Text.lower file).toList.map fun c => if c == '.' then '_' else c)

end Firmware
end CommandSet
