import CommandSet.Text.Blank
import CommandSet.Text.Lines
import CommandSet.Text.Search

/-!
# Recovered code

What is recovered from an earlier main module, so that it can be written into the
next one.  Every part is a list of whole lines.

Main definitions:

- {lit}`PublicFunction`: a public function and what stands above it.
- {lit}`prototypeOf`, {lit}`PublicFunction.prototype`: its declaration.
- {lit}`RecoveredCode`: all recovered parts.
-/

namespace CommandSet
namespace Recovery

/-! ## Public functions -/

/-- A function of the public section. -/
structure PublicFunction where
  /-- Lines between the function before and this one's comment block. -/
  preceding : List String
  /-- The comment block above the signature. -/
  doc : List String
  /-- The signature, through the line of the opening brace. -/
  signature : List String
  /-- The whole function, signature included. -/
  body : List String
deriving Repr, DecidableEq

/-- The declaration of a function from the text of its signature: all before the
opening brace, closed by a semicolon. -/
def prototypeOf (signature : String) : String :=
  String.ofList (Text.trimEnd (signature.toList.takeWhile (· != '{'))) ++ ";"

/-- The declaration of a public function. -/
def PublicFunction.prototype (function : PublicFunction) : String :=
  prototypeOf (Text.unlines function.signature)

/-! ## All parts of a module -/

/-- The parts recovered from a main module. -/
structure RecoveredCode where
  /-- Lines before the definitions. -/
  includes : List String
  /-- Lines of the definitions. -/
  definitions : List String
  /-- Handlers by command name; of two with one name the first counts. -/
  handlers : List (String × List String)
  /-- Private functions and declarations that belong to no command. -/
  unknown : List (List String)
  /-- The fallback of the dispatcher, if one was found. -/
  fallback : Option (List String)
  /-- Lines after the last private function. -/
  privateTrailing : List String
  publicFunctions : List PublicFunction
  /-- Lines after the last public function. -/
  publicTrailing : List String
deriving Repr, DecidableEq

/-- The handler recovered for a command. -/
def RecoveredCode.handler? (code : RecoveredCode) (command : String) : Option (List String) :=
  code.handlers.lookup command

end Recovery
end CommandSet
