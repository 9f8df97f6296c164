import CommandSet.Typed.Bridge

/-!
# The main module in Rust

The main module of a role has a handler for every command it receives, which binds
every attribute to a local, the dispatcher, and the two ways to the bridge.

Main definitions:

- {lit}`Binding`, {lit}`bindAll`: the locals of a handler.
- {lit}`Handler`: a handler and its text.
- {lit}`executeArms`: how the dispatcher selects a handler.
- {lit}`MainModule`, {lit}`MainModule.build`: a module and its making.
- {lit}`MainModule.lines`: its text.
-/

namespace CommandSet
namespace Typed

/-! ## Handlers -/

/-- A local that borrows a field. -/
structure Binding where
  name : String
  place : String
deriving Repr, DecidableEq

/-- The line of a binding. -/
def Binding.line (binding : Binding) : String :=
  "let _" ++ binding.name ++ " = &" ++ binding.place ++ ";"

mutual

/-- The locals of an attribute: one per field of a group that is always there, else
one for the whole. -/
def bind (place stem : String) : Attribute → List Binding
  | att@⟨name, _, optional, _, children, _⟩ =>
      let field := place ++ "." ++ snakeCase name
      let stemmed := stem ++ snakeCase name
      if att.hasSubAttributes && !optional then bindAll field (stemmed ++ "_") children
      else [⟨stemmed, field⟩]

/-- The locals of sibling attributes. -/
def bindAll (place stem : String) : List Attribute → List Binding
  | [] => []
  | att :: rest => bind place stem att ++ bindAll place stem rest

end

/-- The handler of a command. -/
structure Handler where
  command : String
  description : String
  /-- The payload type and the locals, for a command with attributes. -/
  payload : Option (String × List Binding)
deriving Repr, DecidableEq

namespace Handler

/-- The handler of a command. -/
def ofCommand (cmd : Command) : Handler :=
  { command := cmd.name
    description := cmd.description
    payload :=
      if cmd.hasAttributes then
        some (Naming.typedCommandPayload cmd.name, bindAll "payload" "" cmd.attributes)
      else none }

/-- The name of the handler of a command. -/
def name (command : String) : String :=
  "execute_" ++ snakeCase command

/-- The text of a handler, with the blank line after it. -/
def lines (handler : Handler) : List String :=
  ["/// Execute command " ++ handler.command ++
      if handler.description.isEmpty then "" else " (" ++ handler.description ++ ")"] ++
    (match handler.payload with
    | some (typeName, bindings) =>
        [opening ("fn " ++ name handler.command ++ "(payload: &" ++ typeName ++ ") -> bool"),
          indent 1 "// Retrieve attributes data"] ++
          bindings.map fun binding => indent 1 binding.line
    | none => [opening ("fn " ++ name handler.command ++ "() -> bool")]) ++
    [indent 1 "// Process data", indent 1 ("// TODO: process command " ++ handler.command),
      indent 1 "true", closing, ""]

end Handler

/-! ## The dispatcher -/

/-- What dispatching does with a command and a payload. -/
inductive ExecuteResult where
  /-- Call the handler of a command, with its payload if it has one. -/
  | call (command : String) (payload : Bool)
  | refuse
deriving Repr, DecidableEq

/-- The expression of a result. -/
def ExecuteResult.text : ExecuteResult → String
  | call command payload => Handler.name command ++ if payload then "(cmd_payload)" else "()"
  | refuse => "false"

/-- The arm of a received command. -/
def executeArm (cmd : Command) : Arm ExecuteResult :=
  let variant := capitalized cmd.name
  { command := .only variant
    payload := if cmd.hasAttributes then .carried variant else .any
    result := .call cmd.name cmd.hasAttributes }

/-- The arms of dispatching: the received commands, then the rest unless every command
is received and none has attributes. -/
def executeArms (commands received : List Command) : List (Arm ExecuteResult) :=
  received.map executeArm ++
    if received.length == commands.length && received.all (!·.hasAttributes) then []
    else [⟨.any, .any, .refuse⟩]

/-! ## The whole module -/

/-- The main module of a role. -/
structure MainModule where
  protocol : String
  role : Role
  handlers : List Handler
  arms : List (Arm ExecuteResult)
deriving Repr, DecidableEq

namespace MainModule

/-- The main module of a role. -/
def build (prepared : Prepared) (role : Role) : MainModule :=
  let received := prepared.protocol.received role
  { protocol := prepared.protocol.name
    role := role
    handlers := received.map Handler.ofCommand
    arms := executeArms prepared.protocol.commands received }

/-- The items of the bridge module that are imported. -/
def importedItems (module : MainModule) : List String :=
  ["self as bridge", "CmdEnum", "CmdPayload"] ++
    module.handlers.filterMap fun handler => handler.payload.map (·.1)

/-- The lines of a module. -/
def lines (module : MainModule) : List String :=
  moduleBanner (module.protocol ++ " protocol module (role " ++ module.role.label ++ ")") ++
    ["use super::" ++ Naming.typedBridgeModule module.protocol ++ r"::{" ++
        String.intercalate ", " module.importedItems ++ r"};",
      "use lcsf_lib::lcsf_transcoder;", "use lcsf_lib::lcsf_validator::LcsfValidCmd;", ""] ++
    module.handlers.flatMap Handler.lines ++
    ["/// Dispatch a decoded command to its handler.",
      opening "pub fn execute(cmd_name: CmdEnum, payload: &CmdPayload) -> bool",
      indent 1 (opening "match (cmd_name, payload)")] ++
    module.arms.map (fun arm => indent 2 (arm.line ExecuteResult.text)) ++
    [indent 1 closing, closing, "", "/// Decode a validated command and run its handler.",
      opening "pub fn receive(valid_cmd: &LcsfValidCmd) -> bool",
      indent 1 (opening "match bridge::decode(valid_cmd)"),
      indent 2 "Some((cmd_name, payload)) => execute(cmd_name, &payload),",
      indent 2 "None => false,", indent 1 closing, closing, "",
      "/// Encode a command and hand it to the transcoder.",
      opening "pub fn send_command(cmd_name: CmdEnum, payload: &CmdPayload) -> bool",
      indent 1 (opening "match bridge::encode(cmd_name, payload)"),
      indent 2
        ("Some(valid_cmd) => lcsf_transcoder::send(bridge::" ++
          Bridge.idConstant module.protocol ++ ", &valid_cmd),"),
      indent 2 "None => false,", indent 1 closing, closing]

/-- The text of a module. -/
def text (module : MainModule) : String :=
  Text.unlines module.lines

end MainModule
end Typed
end CommandSet
