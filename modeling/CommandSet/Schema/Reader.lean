/-!
# Readers with a record of failed rules

A reader consumes a beginning of a text or fails.  Besides its result it keeps
the furthest position at which a rule of the grammar failed and the rules that
failed there, also across alternatives that were given up, because a syntax
error is reported from that record.

A rule that fails where exactly one of its parts has just been recorded leaves
that record alone; otherwise it replaces what its parts recorded at its own
start by itself.

Main definitions:

- {lit}`Rule`: the rules that error reports name.
- {lit}`Attempts`: the furthest failed rules, {lit}`Attempts.fail` their update.
- {lit}`Reader`: readers, with {lit}`Reader.named`, {lit}`Reader.orElse`,
  {lit}`Reader.maybe` and {lit}`Reader.many`.
- {lit}`layout`: skips blanks and comments.
-/

namespace CommandSet
namespace Schema

/-! ## Failed rules -/

/-- The rules of the schema grammar. -/
inductive Rule where
  | endOfInput
  | ident
  | hex
  | dec
  | number
  | stringInner
  | string
  | optionalWord
  | body
  | terminator
  | attributeClause
  | commandClause
  | protocolClause
deriving Repr, DecidableEq

namespace Rule

/-- All rules in the order in which reports list them. -/
def all : List Rule :=
  [endOfInput, ident, hex, dec, number, stringInner, string, optionalWord, body, terminator,
    attributeClause, commandClause, protocolClause]

/-- The name of a rule in reports. -/
def label : Rule → String
  | endOfInput => "EOI"
  | ident => "ident"
  | hex => "hex"
  | dec => "dec"
  | number => "number"
  | stringInner => "string_inner"
  | string => "string"
  | optionalWord => "optional_kw"
  | body => "body"
  | terminator => "terminator"
  | attributeClause => "attribute"
  | commandClause => "command"
  | protocolClause => "protocol"

end Rule

/-- The furthest offset at which a rule failed, and the rules that failed there. -/
structure Attempts where
  offset : Nat
  rules : List Rule
deriving Repr, DecidableEq

namespace Attempts

/-- Nothing has failed yet. -/
def none : Attempts :=
  ⟨0, []⟩

/-- How many rules are recorded at an offset. -/
def countAt (attempts : Attempts) (offset : Nat) : Nat :=
  if offset = attempts.offset then attempts.rules.length else 0

/-- Record that {lit}`rule`, entered at {lit}`start` when {lit}`before` rules were
recorded there, has failed. -/
def fail (attempts : Attempts) (rule : Rule) (start before : Nat) : Attempts :=
  if attempts.countAt start = before + 1 then attempts
  else if start = attempts.offset then
    { attempts with rules := attempts.rules.take before ++ [rule] }
  else if attempts.offset < start then ⟨start, [rule]⟩
  else attempts

end Attempts

/-! ## Readers -/

/-- A position in a text: what is left, and how much was consumed. -/
structure Cursor where
  offset : Nat
  rest : List Char
deriving Repr, DecidableEq

/-- Move over {lit}`n` characters. -/
def Cursor.advance (cursor : Cursor) (n : Nat) : Cursor :=
  ⟨cursor.offset + n, cursor.rest.drop n⟩

/-- A reader's value and the cursor behind it, if it succeeds, and the record of
failed rules. -/
def Reader (α : Type) : Type :=
  Cursor → Attempts → Option (α × Cursor) × Attempts

namespace Reader

variable {α β : Type}

instance : Monad Reader where
  pure a := fun cursor attempts => (some (a, cursor), attempts)
  bind r f := fun cursor attempts =>
    match r cursor attempts with
    | (some (a, cursor), attempts) => f a cursor attempts
    | (none, attempts) => (none, attempts)

/-- A reader of plain text, which records nothing.  {lit}`take` gives the value and
the number of characters it consumes. -/
def plain (take : List Char → Option (α × Nat)) : Reader α :=
  fun cursor attempts =>
    match take cursor.rest with
    | some (a, n) => (some (a, cursor.advance n), attempts)
    | none => (none, attempts)

/-- Read a fixed word. -/
def word (text : String) : Reader Unit :=
  plain fun rest =>
    if text.toList.isPrefixOf rest then some ((), text.toList.length) else none

/-- The reader of a rule of the grammar, recorded when it fails. -/
def named (rule : Rule) (r : Reader α) : Reader α :=
  fun cursor attempts =>
    match r cursor attempts with
    | (some result, after) => (some result, after)
    | (none, after) =>
        (none, after.fail rule cursor.offset (attempts.countAt cursor.offset))

/-- The first of two readers that succeeds. -/
def orElse (r s : Reader α) : Reader α :=
  fun cursor attempts =>
    match r cursor attempts with
    | (some result, after) => (some result, after)
    | (none, after) => s cursor after

/-- A reader that may also read nothing. -/
def maybe (r : Reader α) : Reader (Option α) :=
  fun cursor attempts =>
    match r cursor attempts with
    | (some (a, cursor), after) => (some (some a, cursor), after)
    | (none, after) => (some (none, cursor), after)

/-- As many values as possible, at most {lit}`limit`, each followed by what
{lit}`gap` skips. -/
def many (gap : Reader Unit) (r : Reader α) : (limit : Nat) → Reader (List α)
  | 0 => pure []
  | limit + 1 => do
      match ← maybe r with
      | some a =>
          gap
          let more ← many gap r limit
          pure (a :: more)
      | none => pure []

end Reader

/-! ## Layout -/

/-- Where the skipping of layout stands: between comments, in a comment to the end
of the line, or in a block comment that starts at {lit}`opened`. -/
inductive LayoutMode where
  | between
  | line
  | block (opened : Cursor)

/-- Skip blanks and comments.  A block comment that is never closed is no layout. -/
def skipLayout : LayoutMode → Nat → List Char → Cursor
  | .between, n, '/' :: '/' :: rest => skipLayout .line (n + 2) rest
  | .between, n, '/' :: '*' :: rest => skipLayout (.block ⟨n, '/' :: '*' :: rest⟩) (n + 2) rest
  | .between, n, ' ' :: rest => skipLayout .between (n + 1) rest
  | .between, n, '\t' :: rest => skipLayout .between (n + 1) rest
  | .between, n, '\r' :: rest => skipLayout .between (n + 1) rest
  | .between, n, '\n' :: rest => skipLayout .between (n + 1) rest
  | .between, n, rest => ⟨n, rest⟩
  | .line, n, '\n' :: rest => skipLayout .between (n + 1) rest
  | .line, n, _ :: rest => skipLayout .line (n + 1) rest
  | .line, n, [] => ⟨n, []⟩
  | .block _, n, '*' :: '/' :: rest => skipLayout .between (n + 2) rest
  | .block opened, n, _ :: rest => skipLayout (.block opened) (n + 1) rest
  | .block opened, _, [] => opened

/-- Skip blanks and comments. -/
def layout : Reader Unit :=
  fun cursor attempts => (some ((), skipLayout .between cursor.offset cursor.rest), attempts)

end Schema
end CommandSet
