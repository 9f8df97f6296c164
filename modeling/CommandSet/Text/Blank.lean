/-!
# Blank characters

Trimming removes the White_Space characters of Unicode, which include the
no-break and ideographic spaces but neither the zero width space nor the byte
order mark.

Main definitions:

- {lit}`isBlank`: the White_Space property.
- {lit}`trimStart`, {lit}`trimEnd`, {lit}`trim`: a text without the blanks at
  its ends.
-/

namespace CommandSet
namespace Text

/-- The White_Space property of Unicode. -/
def isBlank (c : Char) : Bool :=
  let n := c.toNat
  (9 ≤ n && n ≤ 13) || n == 0x20 || n == 0x85 || n == 0xA0 || n == 0x1680 ||
    (0x2000 ≤ n && n ≤ 0x200A) || n == 0x2028 || n == 0x2029 || n == 0x202F ||
    n == 0x205F || n == 0x3000

/-- A text without its leading blanks. -/
def trimStart (text : List Char) : List Char :=
  text.dropWhile isBlank

/-- A text without its trailing blanks. -/
def trimEnd (text : List Char) : List Char :=
  (text.reverse.dropWhile isBlank).reverse

/-- A text without the blanks at its two ends. -/
def trim (text : List Char) : List Char :=
  trimEnd (trimStart text)

end Text
end CommandSet
