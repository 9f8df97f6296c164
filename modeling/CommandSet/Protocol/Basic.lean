import CommandSet.Protocol.DataType

/-!
# Protocols

A protocol is a list of commands between two endpoints, role A and role B.  A
command carries a list of attributes, and an attribute of type sub-attributes
carries a list of its own.  Identifiers are 16-bit words; negative ones can be
written and are refused by validation.

Main definitions:

- {lit}`Direction`, {lit}`Role`: who sends a command.
- {lit}`Attribute`, {lit}`Command`, {lit}`Protocol`: the description itself.
- {lit}`Command.isTransmittable`, {lit}`Command.isReceivable`: what a role does
  with a command.
- {lit}`Command.slots`, {lit}`Protocol.maxSlots`: how many attributes, at all
  depths, one encoded command takes.
-/

namespace CommandSet

/-! ## Endpoints -/

/-- Which endpoint sends a command; {lit}`unknown` stands for every word that is
no direction. -/
inductive Direction where
  | aToB
  | bToA
  | bidirectional
  | unknown
deriving Repr, DecidableEq

/-- The word of a direction in a schema. -/
def Direction.keyword : Direction → String
  | .aToB => "a_to_b"
  | .bToA => "b_to_a"
  | .bidirectional => "bidirectional"
  | .unknown => "unknown"

/-- The direction a word stands for. -/
def Direction.ofKeyword (word : String) : Direction :=
  match word with
  | "a_to_b" => .aToB
  | "b_to_a" => .bToA
  | "bidirectional" => .bidirectional
  | _ => .unknown

/-- Reading a written direction gives it back. -/
theorem Direction.ofKeyword_keyword (d : Direction) : ofKeyword d.keyword = d := by
  cases d <;> rfl

/-- The two endpoints of a protocol. -/
inductive Role where
  | a
  | b
deriving Repr, DecidableEq

namespace Role

/-- Both roles, A first. -/
def both : List Role :=
  [a, b]

/-- The letter of a role in file names. -/
def letter : Role → String
  | a => "a"
  | b => "b"

/-- The letter of a role in messages and comments. -/
def label : Role → String
  | a => "A"
  | b => "B"

end Role

/-! ## Attributes -/

/-- A named, typed field of a command, with sub-attributes of its own if its type
asks for them. -/
structure Attribute where
  name : String
  id : Int16
  optional : Bool
  dataType : DataType
  children : List Attribute
  description : String
deriving Repr, BEq

namespace Attribute

/-- Whether the type of an attribute asks for sub-attributes. -/
def isComplex (att : Attribute) : Bool :=
  att.dataType == .subAttributes

/-- Whether an attribute holds sub-attributes as its type asks. -/
def hasSubAttributes (att : Attribute) : Bool :=
  att.isComplex && !att.children.isEmpty

mutual

/-- Number of attributes in a tree, its root included. -/
def treeSize : Attribute → Nat
  | ⟨_, _, _, _, children, _⟩ => 1 + forestSize children

/-- Number of attributes in a list of trees. -/
def forestSize : List Attribute → Nat
  | [] => 0
  | att :: rest => att.treeSize + forestSize rest

end

end Attribute

/-! ## Commands and protocols -/

/-- A command and the attributes it carries. -/
structure Command where
  name : String
  id : Int16
  direction : Direction
  attributes : List Attribute
  description : String
deriving Repr, BEq

namespace Command

/-- Whether a command carries attributes. -/
def hasAttributes (cmd : Command) : Bool :=
  !cmd.attributes.isEmpty

/-- Whether a role may send a command. -/
def isTransmittable (cmd : Command) (role : Role) : Bool :=
  match cmd.direction with
  | .bidirectional => true
  | .aToB => role == .a
  | .bToA => role == .b
  | .unknown => false

/-- Whether a role may receive a command. -/
def isReceivable (cmd : Command) (role : Role) : Bool :=
  match cmd.direction with
  | .bidirectional => true
  | .aToB => role == .b
  | .bToA => role == .a
  | .unknown => false

/-- Number of attributes one encoded command takes, at all depths. -/
def slots (cmd : Command) : Nat :=
  Attribute.forestSize cmd.attributes

end Command

/-- A protocol.  The order of its commands fixes their ordinals in generated code. -/
structure Protocol where
  name : String
  id : UInt16
  commands : List Command
deriving Repr, BEq

namespace Protocol

/-- Most attributes that any command takes, zero without commands. -/
def maxSlots (protocol : Protocol) : Nat :=
  (protocol.commands.map Command.slots).foldl max 0

/-- The commands that carry attributes. -/
def carriers (protocol : Protocol) : List Command :=
  protocol.commands.filter Command.hasAttributes

/-- The commands a role receives. -/
def received (protocol : Protocol) (role : Role) : List Command :=
  protocol.commands.filter (·.isReceivable role)

/-- The commands with attributes that a role receives. -/
def decoded (protocol : Protocol) (role : Role) : List Command :=
  protocol.commands.filter fun cmd => cmd.isReceivable role && cmd.hasAttributes

/-- The commands with attributes that a role sends. -/
def encoded (protocol : Protocol) (role : Role) : List Command :=
  protocol.commands.filter fun cmd => cmd.isTransmittable role && cmd.hasAttributes

end Protocol
end CommandSet
