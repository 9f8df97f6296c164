import CommandSet.Recovery.Line
import CommandSet.Text.Quoted

/-!
# Functions in a section

A function starts on the line where the brace depth leaves zero and ends on the
line where it is zero again.  The lines above it that could be part of its
signature go with it, and so does the comment block above those.

Main definitions:

- {lit}`RecoveryError`: what may be wrong with a source.
- {lit}`FoundFunction`: a function with what stands above it.
- {lit}`Scanner`, {lit}`Scanner.feed`: the state between two lines.
-/

namespace CommandSet
namespace Recovery

/-! ## Errors -/

/-- What may be wrong with a source. -/
inductive RecoveryError where
  /-- A brace is closed that was never opened. -/
  | negativeBraceDepth (line : Nat)
  /-- A function is never closed. -/
  | unterminatedFunction (line : Nat)
  /-- A section does not start. -/
  | missingSection (marker : Marker)
deriving Repr, DecidableEq

/-- The wording of an error. -/
def RecoveryError.message : RecoveryError → String
  | negativeBraceDepth line =>
      "line " ++ toString line ++ ": closing brace without matching opening brace"
  | unterminatedFunction line => "function starting at line " ++ toString line ++ " is never closed"
  | missingSection marker => "section marker " ++ Text.quoted marker.name ++ " not found"

/-! ## Functions -/

/-- A line of a source with its number, counted from one. -/
structure SourceLine where
  number : Nat
  text : String
deriving Repr, DecidableEq

/-- Number lines from {lit}`start` on. -/
def numberLines (start : Nat) : List String → List SourceLine
  | [] => []
  | line :: rest => ⟨start, line⟩ :: numberLines (start + 1) rest

/-- A function found in a section. -/
structure FoundFunction where
  /-- Lines above the comment block. -/
  leading : List String
  /-- The comment block. -/
  doc : List String
  /-- The signature, through the line of the opening brace. -/
  signature : List String
  /-- The whole function, signature included. -/
  body : List String
deriving Repr, DecidableEq

/-- A list without its longest ending of elements with a property, and that ending. -/
def splitEnding {α : Type} (p : α → Bool) (xs : List α) : List α × List α :=
  ((xs.reverse.dropWhile p).reverse, (xs.reverse.takeWhile p).reverse)

/-- The beginning of a function that opens on {lit}`line` below {lit}`pending` lines. -/
def FoundFunction.start (pending : List String) (line : String) : FoundFunction :=
  let (above, signature) := splitEnding (fun l => !isCommentLine l && !isStatementLine l) pending
  let (leading, doc) := splitEnding isCommentLine above
  ⟨leading, doc, signature ++ [line], signature ++ [line]⟩

/-! ## Scanning -/

/-- A function whose closing brace is still to come. -/
structure OpenFunction where
  /-- The line that opened it. -/
  since : Nat
  depth : Nat
  function : FoundFunction
deriving Repr, DecidableEq

/-- The state between two lines of a section. -/
structure Scanner where
  /-- Non-blank lines since the last function. -/
  pending : List String
  current : Option OpenFunction
deriving Repr, DecidableEq

namespace Scanner

/-- The state at the start of a section. -/
def initial : Scanner :=
  ⟨[], none⟩

/-- The brace depth between two lines. -/
def depth (scanner : Scanner) : Nat :=
  (scanner.current.map (·.depth)).getD 0

/-- The state after a line of a function, and the function if it ends there. -/
def close (depth since : Nat) (function : FoundFunction) : Scanner × Option FoundFunction :=
  if depth = 0 then (initial, some function) else (⟨[], some ⟨since, depth, function⟩⟩, none)

/-- The state after a line, and the function that ends on it. -/
def feed (scanner : Scanner) (line : SourceLine) :
    Except RecoveryError (Scanner × Option FoundFunction) :=
  match walkBraces scanner.depth false (codePart line.text) with
  | none => .error (.negativeBraceDepth line.number)
  | some (depth, opened) =>
      match scanner.current with
      | some current =>
          .ok (close depth current.since
            { current.function with body := current.function.body ++ [line.text] })
      | none =>
          if opened then
            .ok (close depth line.number (FoundFunction.start scanner.pending line.text))
          else if isBlankLine line.text then .ok (scanner, none)
          else .ok (⟨scanner.pending ++ [line.text], none⟩, none)

end Scanner
end Recovery
end CommandSet
