import CommandSet.CodeLine

/-!
# Match arms on commands and payloads

Generated Rust code selects by the command and by the variant of its payload.  An
arm matches with patterns, and the first matching arm counts.

Main definitions:

- {lit}`CommandPattern`, {lit}`PayloadPattern`: patterns and what they match.
- {lit}`Arm`, {lit}`firstMatch?`: arms read from the top.
-/

namespace CommandSet
namespace Typed

/-! ## Patterns -/

/-- A payload value: empty, or the variant of a command. -/
inductive PayloadVariant where
  | empty
  | carried (variant : String)
deriving Repr, DecidableEq

/-- The name of a variant within its type. -/
def PayloadVariant.name : PayloadVariant → String
  | empty => "Empty"
  | carried variant => variant

/-- A pattern for a command. -/
inductive CommandPattern where
  | any
  | only (variant : String)
deriving Repr, DecidableEq

namespace CommandPattern

/-- Whether a command matches. -/
def accepts : CommandPattern → String → Bool
  | any, _ => true
  | only variant, command => variant == command

/-- The text of a pattern. -/
def text : CommandPattern → String
  | any => "_"
  | only variant => "CmdEnum::" ++ variant

end CommandPattern

/-- A pattern for a payload; {lit}`carried` binds what the variant carries. -/
inductive PayloadPattern where
  | any
  | empty
  | carried (variant : String)
deriving Repr, DecidableEq

namespace PayloadPattern

/-- Whether a payload matches; variants are told apart by their names. -/
def accepts : PayloadPattern → PayloadVariant → Bool
  | any, _ => true
  | empty, payload => payload.name == "Empty"
  | carried variant, payload => payload.name == variant

/-- The text of a pattern. -/
def text : PayloadPattern → String
  | any => "_"
  | empty => "CmdPayload::Empty"
  | carried variant => "CmdPayload::" ++ variant ++ "(cmd_payload)"

end PayloadPattern

/-! ## Arms -/

/-- An arm of a match on a command and its payload. -/
structure Arm (α : Type) where
  command : CommandPattern
  payload : PayloadPattern
  result : α
deriving Repr, DecidableEq

namespace Arm

variable {α : Type}

/-- Whether an arm matches. -/
def accepts (arm : Arm α) (command : String) (payload : PayloadVariant) : Bool :=
  arm.command.accepts command && arm.payload.accepts payload

/-- The pattern of an arm. -/
def pattern (arm : Arm α) : String :=
  match arm.command, arm.payload with
  | .any, .any => "_"
  | command, payload => "(" ++ command.text ++ ", " ++ payload.text ++ ")"

/-- The line of an arm. -/
def line (render : α → String) (arm : Arm α) : String :=
  arm.pattern ++ " => " ++ render arm.result ++ ","

end Arm

/-- The result of the first arm that matches. -/
def firstMatch? {α : Type} (arms : List (Arm α)) (command : String) (payload : PayloadVariant) :
    Option α :=
  (arms.find? (·.accepts command payload)).map (·.result)

end Typed
end CommandSet
