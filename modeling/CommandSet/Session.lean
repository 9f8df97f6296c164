import CommandSet.Firmware.MainHeader
import CommandSet.Recovery.Recover

/-!
# Editing sessions

A session follows one main module through its life: it is generated, edited by
hand, recovered and generated again, while its schema changes.  A step that is refused
leaves the session as it was; a recovery that fails forgets what was recovered before.

Main definitions:

- {lit}`Session`: the state between two steps.
- {lit}`Session.Step`, {lit}`Session.Answer`: steps and what they answer.
- {lit}`Session.step`: one step.
-/

namespace CommandSet

open Recovery (RecoveredCode RecoveryError Recoverer)

/-- The state between two steps. -/
structure Session where
  protocol : Protocol
  role : Role
  /-- The main module as it stands. -/
  source : String
  recoverer : Recoverer

namespace Session

/-- A session before its first step. -/
def start (protocol : Protocol) (role : Role) : Session :=
  ⟨protocol, role, "", Recoverer.ofProtocol protocol.name⟩

/-- A step of a session. -/
inductive Step where
  /-- Turn to another protocol. -/
  | schema (protocol : Protocol)
  /-- Change the commands; recovery goes on under the old protocol's name. -/
  | commands (protocol : Protocol)
  | role (role : Role)
  /-- Replace the module. -/
  | source (text : String)
  | append (text : String)
  /-- Replace every occurrence of a text. -/
  | replace (find replacement : String)
  /-- Insert a text before the first occurrence of another. -/
  | insert (before text : String)
  | recover
  /-- Generate a fresh module. -/
  | generate
  /-- Generate a module that reuses what was last recovered. -/
  | regenerate
  /-- Generate the header. -/
  | header

/-- What a step answers. -/
inductive Answer where
  | protocol (name : String)
  | role (role : Role)
  /-- The length of the module in bytes. -/
  | size (bytes : Nat)
  | replaced (count bytes : Nat)
  | inserted (found : Bool) (bytes : Nat)
  /-- The code recovered, or why it was not. -/
  | recovered (result : Except RecoveryError RecoveredCode)
  /-- The module did not change. -/
  | unchanged
  | changed (source : String)
  | text (text : String)
  | refused (error : ValidationError)

/-- The main module of the session's role. -/
def mainModule (session : Session) (code : Option RecoveredCode) :
    Except ValidationError String := do
  let prepared ← prepare session.protocol
  pure (Firmware.MainModule.build prepared session.role code).text

/-- Take over a generated module, unless generation was refused. -/
def takeModule (session : Session) : Except ValidationError String → Answer × Session
  | .error error => (.refused error, session)
  | .ok source =>
      if source == session.source then (.unchanged, session)
      else (.changed source, { session with source := source })

/-- Insert a text before the first occurrence of another. -/
def insertBefore (before text source : String) : Option String :=
  (Text.splitAtFirst? before.toList source.toList).map fun (passed, rest) =>
    String.ofList (passed ++ text.toList ++ rest)

/-- One step of a session. -/
def step (session : Session) : Step → Answer × Session
  | .schema protocol =>
      (.protocol protocol.name,
        { session with
          protocol := protocol
          recoverer := Recoverer.ofProtocol protocol.name })
  | .commands protocol => (.protocol protocol.name, { session with protocol := protocol })
  | .role role => (.role role, { session with role := role })
  | .source text => (.size text.utf8ByteSize, { session with source := text })
  | .append text =>
      let source := session.source ++ text
      (.size source.utf8ByteSize, { session with source := source })
  | .replace find replacement =>
      let (count, chars) :=
        Text.replaceCounting find.toList replacement.toList session.source.toList
      let source := String.ofList chars
      (.replaced count source.utf8ByteSize, { session with source := source })
  | .insert before text =>
      match insertBefore before text session.source with
      | some source =>
          (.inserted true source.utf8ByteSize, { session with source := source })
      | none => (.inserted false session.source.utf8ByteSize, session)
  | .recover =>
      let names := session.protocol.commands.map (·.name)
      let (result, recoverer) := session.recoverer.run names session.source
      (.recovered result, { session with recoverer := recoverer })
  | .generate => session.takeModule (session.mainModule none)
  | .regenerate => session.takeModule (session.mainModule session.recoverer.code)
  | .header =>
      match prepare session.protocol with
      | .error error => (.refused error, session)
      | .ok prepared =>
          (.text (Firmware.MainHeader.build prepared session.recoverer.code).text, session)

end Session
end CommandSet
