import CommandSet.Naming
import CommandSet.Recovery.Code
import CommandSet.Recovery.Fallback
import CommandSet.Recovery.Scanner

/-!
# Recovery of hand-written code

A main module is cut at its three section markers.  The functions of the private
section are told apart by the generated names in their signatures: the dispatcher
and the sender are written anew, handlers are kept under their command's name, and
everything else is kept as it is.

Main definitions:

- {lit}`Owner`, {lit}`ownerOf`: whose function a signature is.
- {lit}`PrivateCode`: what is kept of the private section.
- {lit}`recoverLines`, {lit}`recover`: all parts of a module.
- {lit}`Recoverer`: recovery that remembers its last success.
-/

namespace CommandSet
namespace Recovery

/-! ## Sections -/

/-- The lines before the marker of a section, and those after it. -/
def takeUntil (marker : Marker) :
    List SourceLine → Except RecoveryError (List String × List SourceLine)
  | [] => .error (.missingSection marker)
  | line :: rest =>
      if marker.isOn line.text then .ok ([], rest)
      else do
        let (lines, after) ← takeUntil marker rest
        pure (line.text :: lines, after)

/-- The functions of the private section, the lines after the last one, and the
lines of the public section. -/
def scanPrivate (scanner : Scanner) :
    List SourceLine →
      Except RecoveryError (List FoundFunction × List String × List SourceLine)
  | [] => .error (.missingSection .publicFunctions)
  | line :: rest =>
      if scanner.current.isNone && Marker.publicFunctions.isOn line.text then
        .ok ([], scanner.pending, rest)
      else do
        let (scanner, found) ← scanner.feed line
        let (functions, after) ← scanPrivate scanner rest
        pure (found.toList ++ functions, after)

/-- The functions of the public section and the lines after the last one. -/
def scanPublic (scanner : Scanner) :
    List SourceLine → Except RecoveryError (List FoundFunction × List String)
  | [] =>
      match scanner.current with
      | some current => .error (.unterminatedFunction current.since)
      | none => .ok ([], scanner.pending)
  | line :: rest => do
      let (scanner, found) ← scanner.feed line
      let (functions, trailing) ← scanPublic scanner rest
      pure (found.toList ++ functions, trailing)

/-! ## Owners of private functions -/

/-- Whose function a private function is. -/
inductive Owner where
  | dispatcher
  | sender
  | handler (command : String)
  | nobody
deriving Repr, DecidableEq

/-- Put a name before the first one that is shorter, in bytes of UTF-8. -/
def insertByLength (name : String) : List String → List String
  | [] => [name]
  | other :: rest =>
      if other.utf8ByteSize ≤ name.utf8ByteSize then name :: other :: rest
      else other :: insertByLength name rest

/-- Names by decreasing length, otherwise in their old order. -/
def longestFirst (names : List String) : List String :=
  names.foldr insertByLength []

/-- The command whose handler a signature names; of several the one with the longest
name. -/
def handledCommand? (protocol : String) (commands : List String) (signature : List Char) :
    Option String :=
  (longestFirst commands).find? fun command =>
    Text.occursIn (protocol ++ "Execute" ++ command).toList signature

/-- Whose function a signature is. -/
def ownerOf (protocol : String) (commands : List String) (signature : List String) : Owner :=
  let text := (String.intercalate "\n" signature).toList
  if Text.occursIn (protocol ++ "DispatchCommand").toList text then .dispatcher
  else if Text.occursIn (protocol ++ "SendCommand").toList text then .sender
  else
    match handledCommand? protocol commands text with
    | some command => .handler command
    | none => .nobody

/-! ## The private section -/

/-- What is kept of the private section. -/
structure PrivateCode where
  handlers : List (String × List String)
  unknown : List (List String)
  fallback : Option (List String)
deriving Repr, DecidableEq

namespace PrivateCode

/-- Nothing is kept yet. -/
def none : PrivateCode :=
  ⟨[], [], Option.none⟩

/-- Keep the lines above a function that is written anew. -/
def keepLeading (code : PrivateCode) (leading : List String) : PrivateCode :=
  if leading.isEmpty then code else { code with unknown := code.unknown ++ [leading] }

/-- Keep the handler of a command, unless one is kept already. -/
def keepHandler (code : PrivateCode) (command : String) (body : List String) : PrivateCode :=
  if (code.handlers.lookup command).isSome then code
  else { code with handlers := code.handlers ++ [(command, body)] }

/-- Keep what is to be kept of a function. -/
def keep (protocol : String) (commands : List String) (code : PrivateCode)
    (function : FoundFunction) : PrivateCode :=
  match ownerOf protocol commands function.signature with
  | .dispatcher =>
      { code.keepLeading function.leading with fallback := fallbackOf function.body }
  | .sender => code.keepLeading function.leading
  | .handler command => (code.keepLeading function.leading).keepHandler command function.body
  | .nobody =>
      { code with
        unknown := code.unknown ++ [function.leading ++ function.doc ++ function.body] }

/-- What is kept of all functions of the private section. -/
def ofFunctions (protocol : String) (commands : List String) (functions : List FoundFunction) :
    PrivateCode :=
  functions.foldl (keep protocol commands) none

end PrivateCode

/-! ## Whole modules -/

/-- A function of the public section. -/
def PublicFunction.ofFound (function : FoundFunction) : PublicFunction :=
  ⟨function.leading, function.doc, function.signature, function.body⟩

/-- Recover the hand-written parts of a main module of a protocol from its lines. -/
def recoverLines (protocol : String) (commands lines : List String) :
    Except RecoveryError RecoveredCode := do
  let (includes, rest) ← takeUntil .definitions (numberLines 1 lines)
  let (definitions, rest) ← takeUntil .privateFunctions rest
  let (privateFunctions, privateTrailing, rest) ← scanPrivate Scanner.initial rest
  let (publicFunctions, publicTrailing) ← scanPublic Scanner.initial rest
  let kept := PrivateCode.ofFunctions protocol commands privateFunctions
  pure
    { includes := includes
      definitions := definitions
      handlers := kept.handlers
      unknown := kept.unknown
      fallback := kept.fallback
      privateTrailing := privateTrailing
      publicFunctions := publicFunctions.map PublicFunction.ofFound
      publicTrailing := publicTrailing }

/-- Recover the hand-written parts of a main module of a protocol. -/
def recover (protocol : String) (commands : List String) (source : String) :
    Except RecoveryError RecoveredCode :=
  recoverLines protocol commands (Text.lines source)

/-! ## Repeated recovery -/

/-- Recovery for one protocol; {lit}`code` is what the last run recovered, if it
succeeded. -/
structure Recoverer where
  protocol : String
  code : Option RecoveredCode

namespace Recoverer

/-- Nothing has been recovered yet. -/
def ofProtocol (protocol : String) : Recoverer :=
  ⟨protocol, none⟩

/-- Run recovery; a failure forgets the last success. -/
def run (recoverer : Recoverer) (commands : List String) (source : String) :
    Except RecoveryError RecoveredCode × Recoverer :=
  let result := recover recoverer.protocol commands source
  (result, { recoverer with code := result.toOption })

end Recoverer
end Recovery
end CommandSet
