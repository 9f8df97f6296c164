import CommandSet.Firmware.MainModule

/-!
# The main header

One header serves the main modules of both roles.  It numbers the commands and,
scope by scope, the attributes, defines the presence flags of optional attributes
and declares the payload structs, each after the structs it uses, and the public
functions.

Main definitions:

- {lit}`PresenceFlag`, {lit}`ScopeNames`: the constants of a scope.
- {lit}`MainHeader`, {lit}`MainHeader.build`: a header and its making.
- {lit}`MainHeader.lines`: its text.
-/

namespace CommandSet
namespace Firmware

open Recovery (PublicFunction RecoveredCode)
open Text (lower)

/-! ## Constants of a scope -/

/-- A presence flag and the bit it stands for. -/
structure PresenceFlag where
  name : String
  width : PresenceWidth
  index : Nat
deriving Repr, DecidableEq

/-- The definition of a flag. -/
def PresenceFlag.line (flag : PresenceFlag) : String :=
  "#define " ++ flag.name ++ " " ++ flag.width.flagValue flag.index

/-- The ordinals of the attributes of a scope, each with its description, and the
flags of the optional ones. -/
structure ScopeNames where
  tag : String
  ordinals : List (String × String)
  flags : List PresenceFlag
deriving Repr, DecidableEq

namespace ScopeNames

/-- The constants of a scope. -/
def ofScope (protocol : String) (scope : Scope) : ScopeNames :=
  { tag := "_" ++ lower protocol ++ "_" ++ lower scope.parent ++ "_att_names"
    ordinals :=
      scope.entries.map fun entry =>
        (Naming.attributeOrdinal protocol scope.parent entry.node.name, entry.node.description)
    flags :=
      (scope.entries.filter (·.node.optional)).map fun entry =>
        ⟨Naming.attributeFlag protocol scope.parent entry.node.name,
          PresenceWidth.ofCount scope.entries.length, entry.index⟩ }

/-- The line of an ordinal. -/
def ordinalLine (ordinal : String × String) : String :=
  indent 1
    (ordinal.1 ++ "," ++ if ordinal.2.isEmpty then "" else " // " ++ ordinal.2)

/-- The lines of a scope, with the blank lines after its two parts. -/
def lines (names : ScopeNames) : List String :=
  [opening ("enum " ++ names.tag)] ++ names.ordinals.map ordinalLine ++ [closing ++ ";", ""] ++
    if names.flags.isEmpty then [] else names.flags.map PresenceFlag.line ++ [""]

end ScopeNames

/-! ## The whole header -/

/-- The header of the main modules. -/
structure MainHeader where
  protocol : String
  /-- Ordinals of the commands, the count of commands last. -/
  commands : List String
  scopes : List ScopeNames
  /-- Whether structs of complex attributes are listed at all. -/
  nesting : Bool
  nested : List Record
  payloads : List Record
  union : Record
  publicFunctions : List PublicFunction
deriving Repr, DecidableEq

namespace MainHeader

/-- The header of a protocol; public functions come from recovered code. -/
def build (prepared : Prepared) (code : Option RecoveredCode) : MainHeader :=
  let protocol := prepared.protocol.name
  { protocol := protocol
    commands :=
      prepared.protocol.commands.map (fun cmd => Naming.commandOrdinal protocol cmd.name) ++
        [Naming.commandCount protocol]
    scopes := prepared.scopes.map (ScopeNames.ofScope protocol)
    nesting := prepared.nesting
    nested := prepared.complexChildrenFirst.map (Record.ofEntry protocol)
    payloads := prepared.protocol.carriers.map (Record.ofCommand protocol)
    union := Record.ofCarriers protocol prepared.protocol.carriers
    publicFunctions := publicFunctionsOf protocol code }

/-- A section of the header: its title and lines, left out when {lit}`shown` is
false. -/
def titled (shown : Bool) (title : String) (content : List String) : List String :=
  if shown then title :: content else []

/-- The lines of a public function in the header, with the blank line after it. -/
def declarationLines (function : PublicFunction) : List String :=
  function.doc ++ [function.prototype, ""]

/-- The lines of a header. -/
def lines (header : MainHeader) : List String :=
  let file := Naming.mainHeaderFile header.protocol
  let guardName := includeGuard file
  banner file (header.protocol ++ " protocol module") ++
    ["#ifndef " ++ guardName, "#define " ++ guardName, "", "// *** Libraries include ***",
      "#include <stdbool.h>", "#include <stddef.h>", "#include <stdint.h>", "",
      "// *** Definitions ***", "// --- Public Types ---", "", "// Command name enum",
      opening ("enum _" ++ lower header.protocol ++ "_cmd_names")] ++
    header.commands.map (fun name => indent 1 (name ++ ",")) ++ [closing ++ ";", ""] ++
    titled (!header.scopes.isEmpty) "// Attributes enums"
      (header.scopes.flatMap ScopeNames.lines) ++
    titled header.nesting "// Attribute with sub-attributes structures"
      (header.nested.flatMap Record.lines) ++
    titled (!header.payloads.isEmpty) "// Command data structures"
      (header.payloads.flatMap Record.lines) ++
    ["// Command payload union"] ++ header.union.lines ++
    ["// --- Public Function Prototypes ---", ""] ++
    header.publicFunctions.flatMap declarationLines ++ ["#endif // " ++ guardName]

/-- The text of a header. -/
def text (header : MainHeader) : String :=
  Text.unlines header.lines

end MainHeader
end Firmware
end CommandSet
