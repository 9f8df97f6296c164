import CommandSet.Firmware.Bridge
import CommandSet.Firmware.Descriptor
import CommandSet.Firmware.MainHeader
import CommandSet.Typed.MainModule

/-!
# All artifacts of a protocol

The files generated for a protocol, in the order in which they are written: the
seven C files, then, on request, the two Rust modules of each role.

Main definitions:

- {lit}`RenderedFile`: a file and its content.
- {lit}`Recovered`: the code recovered for each role.
- {lit}`render`: all files of a protocol.
-/

namespace CommandSet

open Recovery (RecoveredCode)

/-- A generated file, by its path below the output directory. -/
structure RenderedFile where
  path : String
  content : String
deriving Repr, DecidableEq

/-- The code recovered from the earlier main module of each role. -/
structure Recovered where
  a : Option RecoveredCode
  b : Option RecoveredCode
deriving Repr, DecidableEq

namespace Recovered

/-- Nothing was recovered. -/
def none : Recovered :=
  ⟨Option.none, Option.none⟩

/-- The code of a role. -/
def ofRole (recovered : Recovered) : Role → Option RecoveredCode
  | .a => recovered.a
  | .b => recovered.b

/-- The code whose public functions the shared header declares: role A's, else role
B's. -/
def forHeader (recovered : Recovered) : Option RecoveredCode :=
  recovered.a.or recovered.b

end Recovered

/-- The C files of a protocol. -/
def renderFirmware (prepared : Prepared) (recovered : Recovered) : List RenderedFile :=
  let protocol := prepared.protocol.name
  [⟨Naming.mainHeaderFile protocol,
    (Firmware.MainHeader.build prepared recovered.forHeader).text⟩] ++
    Role.both.map (fun role =>
      ⟨Naming.mainSourceFile protocol role,
        (Firmware.MainModule.build prepared role (recovered.ofRole role)).text⟩) ++
    [⟨Naming.bridgeHeaderFile protocol, (Firmware.BridgeHeader.build prepared).text⟩] ++
    Role.both.map (fun role =>
      ⟨Naming.bridgeSourceFile protocol role, (Firmware.Bridge.build prepared role).text⟩) ++
    [⟨Naming.descriptorFile protocol, (Firmware.Descriptor.build prepared).text⟩]

/-- The Rust modules of a role. -/
def renderTyped (prepared : Prepared) (role : Role) : List RenderedFile :=
  let protocol := prepared.protocol.name
  let directory := "rust_" ++ role.letter ++ "/"
  [⟨directory ++ Naming.typedBridgeModule protocol ++ ".rs",
      (Typed.Bridge.build prepared role).text⟩,
    ⟨directory ++ Naming.typedMainModule protocol ++ ".rs",
      (Typed.MainModule.build prepared role).text⟩]

/-- All files of a protocol; {lit}`typed` asks for the Rust modules. -/
def render (prepared : Prepared) (recovered : Recovered) (typed : Bool) : List RenderedFile :=
  renderFirmware prepared recovered ++
    if typed then Role.both.flatMap (renderTyped prepared) else []

end CommandSet
