/-!
# Lines of a text

A generated file is a list of lines, each closed by a newline.  Reading splits a
text at newlines; a carriage return before a newline belongs to the line break,
and a text that ends in a newline has no further, empty line.

Main definitions:

- {lit}`unlines`: the text of a list of lines.
- {lit}`splitLines`, {lit}`lines`: the lines of a text.

Main result:

- Theorem {lit}`toList_unlines`: the characters of a text built from lines.
-/

namespace CommandSet
namespace Text

/-! ## Writing -/

/-- The text of a list of lines, each closed by a newline. -/
def unlines (ls : List String) : String :=
  ls.foldl (fun text line => text ++ line ++ "\n") ""

private theorem toList_foldl_lines (ls : List String) (text : String) :
    (ls.foldl (fun text line => text ++ line ++ "\n") text).toList =
      text.toList ++ ls.flatMap (fun line => line.toList ++ ['\n']) := by
  induction ls generalizing text with
  | nil => simp
  | cons line ls ih => simp [ih]

/-- A text built from lines is their concatenation, each with its newline. -/
theorem toList_unlines (ls : List String) :
    (unlines ls).toList = ls.flatMap (fun line => line.toList ++ ['\n']) := by
  simp [unlines, toList_foldl_lines]

/-! ## Reading -/

/-- Drop the carriage return that a reversed line ends in. -/
def dropReturn : List Char → List Char
  | '\r' :: line => line
  | line => line

/-- Split at newlines; {lit}`line` holds the characters read since the last one,
in reverse. -/
def splitLinesFrom (line : List Char) : List Char → List (List Char)
  | [] => if line.isEmpty then [] else [line.reverse]
  | '\n' :: rest => (dropReturn line).reverse :: splitLinesFrom [] rest
  | c :: rest => splitLinesFrom (c :: line) rest

/-- The lines of a text, as characters. -/
def splitLines (text : List Char) : List (List Char) :=
  splitLinesFrom [] text

/-- The lines of a text. -/
def lines (text : String) : List String :=
  (splitLines text.toList).map String.ofList

end Text
end CommandSet
