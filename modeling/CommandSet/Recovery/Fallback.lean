import CommandSet.Recovery.Line

/-!
# The fallback of a dispatcher

The lines between {lit}`default:` and the {lit}`break;` that ends it, where braces
opened in between have been closed again.

Main definition:

- {lit}`fallbackOf`: the fallback in the lines of a dispatcher.
-/

namespace CommandSet
namespace Recovery

/-- Lines up to the {lit}`break;` at relative brace depth zero. -/
def untilBreak (depth : Int) : List String → Option (List String)
  | [] => none
  | line :: rest =>
      if Text.trim (codePart line) == "break;".toList && depth == 0 then some []
      else (untilBreak (depth + braceDelta line) rest).map (line :: ·)

/-- The lines of the fallback of a dispatcher, if it has one that ends. -/
def fallbackOf : List String → Option (List String)
  | [] => none
  | line :: rest =>
      if "default:".toList.isPrefixOf (trimmed line) then untilBreak (braceDelta line) rest
      else fallbackOf rest

end Recovery
end CommandSet
