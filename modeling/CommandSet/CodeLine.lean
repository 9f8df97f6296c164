/-!
# Lines of generated code

Generated code is a list of lines, indented by four blanks for each block around
them.

Main definitions:

- {lit}`indent`: a line at a nesting level.
- {lit}`opening`, {lit}`closing`: the lines around a block.
-/

namespace CommandSet

/-- A line at a nesting level. -/
def indent (level : Nat) (text : String) : String :=
  String.join (List.replicate level "    ") ++ text

/-- A line that opens a block. -/
def opening (text : String) : String :=
  text ++ r" {"

/-- The line that closes a block. -/
def closing : String :=
  r"}"

end CommandSet
