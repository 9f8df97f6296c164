import CommandSet.Generation
import CommandSet.Schema.Parsing

/-!
# The command line

The program takes one schema and generates its artifacts, or with {lit}`--check`
only checks it.  Options may stand anywhere; each is taken out of the arguments
before the next one is looked for, so that a value may look like an option.

Main definitions:

- {lit}`Settings`, {lit}`parseArgs`: what the arguments ask for.
- {lit}`UsageError`, {lit}`UsageError.message`: what may be wrong with them.
- {lit}`run`: the whole program up to the exit code.
-/

namespace CommandSet
namespace CommandLine

/-! ## Arguments -/

/-- What the arguments ask for. -/
structure Settings where
  schema : String
  options : Options
  /-- Check the schema and write nothing. -/
  check : Bool
deriving Repr, DecidableEq

/-- What may be wrong with the arguments. -/
inductive UsageError where
  | missingValue (flag : String)
  | unknownOption (arg : String)
  /-- Not exactly one schema. -/
  | usage
deriving Repr, DecidableEq

/-- The wording of an error. -/
def UsageError.message : UsageError → String
  | missingValue flag => flag ++ " expects a value"
  | unknownOption arg => "unknown option " ++ arg
  | usage =>
      "Usage: lcsfgen [-o DIR] [--import-a FILE] [--import-b FILE] [--rust] [--check] SCHEMA.lcsf"

/-- Take the first of the given flags and its value out of the arguments. -/
def takeValue (flags : List String) :
    List String → Except UsageError (Option String × List String)
  | [] => .ok (none, [])
  | arg :: rest =>
      if flags.contains arg then
        match rest with
        | [] => .error (.missingValue arg)
        | value :: rest => .ok (some value, rest)
      else do
        let (value, rest) ← takeValue flags rest
        pure (value, arg :: rest)

/-- Take the first occurrence of a flag out of the arguments. -/
def takeFlag (flag : String) : List String → Bool × List String
  | [] => (false, [])
  | arg :: rest =>
      if arg == flag then (true, rest)
      else
        let (found, rest) := takeFlag flag rest
        (found, arg :: rest)

/-- What the arguments ask for; {lit}`outDir` is where artifacts go by default. -/
def parseArgs (outDir : String) (args : List String) : Except UsageError Settings := do
  let (out, args) ← takeValue ["-o", "--out"] args
  let (typed, args) := takeFlag "--rust" args
  let (importA, args) ← takeValue ["--import-a"] args
  let (importB, args) ← takeValue ["--import-b"] args
  let (check, args) := takeFlag "--check" args
  match args.find? (fun arg => ['-'].isPrefixOf arg.toList) with
  | some arg => throw (.unknownOption arg)
  | none =>
      match args with
      | [schema] => pure ⟨schema, ⟨out.getD outDir, importA, importB, typed⟩, check⟩
      | _ => throw .usage

/-! ## The program -/

/-- How the program ends: the lines on standard error and whether it succeeded. -/
structure Outcome where
  messages : List String
  success : Bool
deriving Repr, DecidableEq

namespace Outcome

/-- The exit code of the program. -/
def exitCode (outcome : Outcome) : Nat :=
  if outcome.success then 0 else 1

/-- The end after an error; {lit}`chain` leads from what was done to the cause. -/
def fatal (chain : List String) : Outcome :=
  ⟨["error: " ++ String.intercalate ": " chain], false⟩

/-- The end of a run that was not refused. -/
def ofReport (report : Report) : Outcome :=
  { messages :=
      (report.imports.filter (!·.complete)).map (fun outcome =>
          "warning: " ++ outcome.path ++ " could not be reused, role " ++ outcome.role.label ++
            " main module regenerated from stubs") ++
        report.failures.filterMap fun result =>
          match result.outcome with
          | .error error => some ("error: " ++ result.path ++ ": " ++ error.message)
          | .ok _ => none
    success := report.isSuccess }

end Outcome

section

variable {m : Type → Type} [Monad m] [FileStore m]

/-- The text of a schema file. -/
def readSchema (path : String) : m (Except FileError String) := do
  match ← FileStore.read path with
  | .error error => pure (.error error)
  | .ok bytes =>
      match String.fromUTF8? bytes with
      | some text => pure (.ok text)
      | none => pure (.error .notUtf8)

/-- Check or generate a protocol. -/
def runProtocol (settings : Settings) (protocol : Protocol) : m Outcome := do
  if settings.check then
    match prepare protocol with
    | .ok _ => pure ⟨[], true⟩
    | .error error => pure (.fatal ["validating protocol", error.message])
  else
    match ← generateAll protocol settings.options with
    | .ok report => pure (.ofReport report)
    | .error error => pure (.fatal [refusalMessage error, error.message])

/-- Run the program; {lit}`outDir` is where artifacts go by default. -/
def run (outDir : String) (args : List String) : m Outcome := do
  match parseArgs outDir args with
  | .error error => pure (.fatal [error.message])
  | .ok settings =>
      match ← readSchema settings.schema with
      | .error error => pure (.fatal ["reading " ++ settings.schema, error.message])
      | .ok source =>
          match Schema.parse source with
          | .error error => pure (.fatal ["parsing " ++ settings.schema, error.message])
          | .ok protocol => runProtocol settings protocol

end

end CommandLine
end CommandSet
