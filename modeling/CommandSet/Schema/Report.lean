import CommandSet.Schema.Reader

/-!
# Reports of syntax errors

A syntax error shows the line of the furthest failure with a mark under its
column and lists the rules that were tried there.

Main definitions:

- {lit}`Report`: position, line and expected rules of a syntax error.
- {lit}`Report.ofAttempts`: the report of a text and its failed rules.
- {lit}`Report.message`: its wording.
-/

namespace CommandSet
namespace Schema

/-- A syntax error: where reading stopped, and what would have gone on. -/
structure Report where
  line : Nat
  column : Nat
  /-- The line as shown. -/
  text : List Char
  expected : List Rule
deriving Repr, DecidableEq

namespace Report

/-- A line with its line breaks made visible. -/
def visible (line : List Char) : List Char :=
  line.map fun c => if c == '\r' then '␍' else if c == '\n' then '␊' else c

/-- A line as shown: with visible breaks when the failure is at one, else without
any. -/
def shown (next : Option Char) (line : List Char) : List Char :=
  if next == some '\r' || next == some '\n' then visible line
  else line.filter fun c => c != '\r' && c != '\n'

/-- The line that starts here, with its newline. -/
def throughNewline (text : List Char) : List Char :=
  text.takeWhile (· != '\n') ++ (text.dropWhile (· != '\n')).take 1

/-- The report of a text whose furthest failed rules are known. -/
def ofAttempts (text : List Char) (attempts : Attempts) : Report :=
  let passed := text.take attempts.offset
  let rest := text.drop attempts.offset
  let lineStart := (passed.reverse.takeWhile (· != '\n')).reverse
  { line := passed.count '\n' + 1
    column := lineStart.length + 1
    text := shown rest.head? (lineStart ++ throughNewline rest)
    expected := Rule.all.filter (attempts.rules.contains ·) }

/-- A list of names in prose. -/
def enumerate : List String → String
  | [] => ""
  | [x] => x
  | [x, y] => x ++ " or " ++ y
  | xs => String.intercalate ", " (xs.dropLast ++ ["or " ++ xs.getLastD ""])

/-- The wording of a report. -/
def message (report : Report) : String :=
  let number := toString report.line
  let margin := String.ofList (number.toList.map fun _ => ' ')
  let under := String.ofList <|
    (report.text.take (report.column - 1)).map fun c => if c == '\t' then '\t' else ' '
  String.intercalate "\n"
    [margin ++ "--> " ++ number ++ ":" ++ toString report.column,
      margin ++ " |",
      number ++ " | " ++ String.ofList report.text,
      margin ++ " | " ++ under ++ "^---",
      margin ++ " |",
      margin ++ " = expected " ++ enumerate (report.expected.map Rule.label)]

end Report
end Schema
end CommandSet
