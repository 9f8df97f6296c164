/-!
# Search and replacement

Plain substring search on characters, with the leftmost match taken first and
matches never overlapping.

Main definitions:

- {lit}`occursIn`: substring test.
- {lit}`before`, {lit}`splitAtFirst?`: the text up to the first match.
- {lit}`replaceAll`, {lit}`countOccurrences`: all matches, left to right.
-/

namespace CommandSet
namespace Text

/-- Whether {lit}`pattern` stands somewhere in the text. -/
def occursIn (pattern : List Char) : List Char → Bool
  | [] => pattern.isEmpty
  | c :: text => pattern.isPrefixOf (c :: text) || occursIn pattern text

/-- The text before the first match of {lit}`pattern`, all of it without one. -/
def before (pattern : List Char) : List Char → List Char
  | [] => []
  | c :: text => if pattern.isPrefixOf (c :: text) then [] else c :: before pattern text

/-- The text before and from the first match of {lit}`pattern`; {lit}`seen` holds
the characters passed, in reverse. -/
def splitAtFirstFrom (pattern seen : List Char) : List Char → Option (List Char × List Char)
  | [] => if pattern.isEmpty then some (seen.reverse, []) else none
  | c :: text =>
      if pattern.isPrefixOf (c :: text) then some (seen.reverse, c :: text)
      else splitAtFirstFrom pattern (c :: seen) text

/-- The text before and from the first match of {lit}`pattern`. -/
def splitAtFirst? (pattern text : List Char) : Option (List Char × List Char) :=
  splitAtFirstFrom pattern [] text

/-- The number of matches and the text with each replaced, in reverse.
{lit}`skip` characters still belong to the last match. -/
def replaceFrom (pattern replacement : List Char) (count skip : Nat) (done : List Char) :
    List Char → Nat × List Char
  | [] => (count, done)
  | c :: text =>
      match skip with
      | skip + 1 => replaceFrom pattern replacement count skip done text
      | 0 =>
          if pattern.isPrefixOf (c :: text) then
            replaceFrom pattern replacement (count + 1) (pattern.length - 1)
              (replacement.reverse ++ done) text
          else
            replaceFrom pattern replacement count 0 (c :: done) text

/-- Replace every match of {lit}`pattern` and count them.  An empty pattern matches
before each character and at the end. -/
def replaceCounting (pattern replacement text : List Char) : Nat × List Char :=
  if pattern.isEmpty then
    (text.length + 1, replacement ++ text.flatMap (· :: replacement))
  else
    let (count, done) := replaceFrom pattern replacement 0 0 [] text
    (count, done.reverse)

/-- Replace every match of {lit}`pattern`. -/
def replaceAll (pattern replacement text : List Char) : List Char :=
  (replaceCounting pattern replacement text).2

end Text
end CommandSet
