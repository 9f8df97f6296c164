import CommandSet.Forest
import CommandSet.Naming
import CommandSet.Text.Quoted

/-!
# Valid protocols

Code is generated only from protocols whose names are identifiers, whose types and
directions are known, whose identifiers are not negative and distinct, and whose
names stay distinct in every spelling that generated code uses.  Commands and
complex attributes share one set of names, since both become attribute scopes.

Main definitions:

- {lit}`ValidationError`, {lit}`ValidationError.message`: what may be wrong.
- {lit}`isIdentifier`, {lit}`collide`: the rules on names.
- {lit}`validate`: the first thing that is wrong with a protocol.
-/

namespace CommandSet

/-! ## Errors -/

/-- What may be wrong with a protocol. -/
inductive ValidationError where
  | noCommands
  | invalidName (name : String)
  | unknownDirection (command : String)
  | unknownDataType (name : String)
  | negativeId (name : String) (id : Int16)
  | duplicateCommandId (id : Int16) (first second : String)
  | duplicateCommandName (name : String)
  | duplicateAttributeId (parent : String) (id : Int16)
  | duplicateAttributeName (parent name : String)
  | unexpectedChildren (name : String)
  | emptySubAttributes (name : String)
  | duplicateComplexName (name : String)
  | complexNameClash (name : String)
  | identifierCollision (scope first second : String)
deriving Repr, DecidableEq

/-- The wording of an error. -/
def ValidationError.message : ValidationError → String
  | noCommands => "protocol has no commands"
  | invalidName name => "invalid identifier: " ++ Text.quoted name
  | unknownDirection command => "command " ++ command ++ " has an unknown direction"
  | unknownDataType name => "attribute " ++ name ++ " has an unknown data type"
  | negativeId name id => "negative id " ++ toString id.toInt ++ " on " ++ name
  | duplicateCommandId id first second =>
      "duplicate command id " ++ toString id.toInt ++ " (" ++ first ++ " and " ++ second ++ ")"
  | duplicateCommandName name => "duplicate command name: " ++ name
  | duplicateAttributeId parent id =>
      "duplicate attribute id " ++ toString id.toInt ++ " under " ++ parent
  | duplicateAttributeName parent name =>
      "duplicate attribute name " ++ name ++ " under " ++ parent
  | unexpectedChildren name =>
      "attribute " ++ name ++ " has children but is not of type sub_attributes"
  | emptySubAttributes name =>
      "attribute " ++ name ++ " is of type sub_attributes but has no children"
  | duplicateComplexName name => "duplicate complex attribute name: " ++ name
  | complexNameClash name => "complex attribute " ++ name ++ " has the same name as a command"
  | identifierCollision scope first second =>
      first ++ " and " ++ second ++ " produce the same generated identifier under " ++ scope

/-! ## Names -/

/-- ASCII letters and underscores, with digits behind the first character. -/
def isIdentifierChars : List Char → Bool
  | [] => false
  | c :: rest => (c.isAlpha || c == '_') && rest.all fun c => c.isAlphanum || c == '_'

/-- Names that generated code can use. -/
def isIdentifier (name : String) : Bool :=
  isIdentifierChars name.toList

/-- Whether two names are spelled the same in upper case, as capitalised words or in
snake case. -/
def collide (first second : String) : Bool :=
  Text.upper first == Text.upper second || capitalized first == capitalized second ||
    snakeCase first == snakeCase second

/-! ## Single checks -/

/-- The outcome of a check. -/
abbrev Checked :=
  Except ValidationError Unit

/-- Refuse with an error when something is wrong. -/
def refuseIf (wrong : Bool) (error : ValidationError) : Checked :=
  if wrong then .error error else .ok ()

/-- Refuse a name that is no identifier. -/
def checkName (name : String) : Checked :=
  refuseIf (!isIdentifier name) (.invalidName name)

/-- Refuse a name that is spelled like one before it in the same scope. -/
def checkSpelling (scope : String) (earlier : List String) (name : String) : Checked :=
  match earlier.find? (collide · name) with
  | some first => .error (.identifierCollision scope first name)
  | none => .ok ()

/-- Refuse the first of several names that is spelled like one before it. -/
def checkSpellings (scope : String) (earlier : List String) : List String → Checked
  | [] => .ok ()
  | name :: rest => do
      checkSpelling scope earlier name
      checkSpellings scope (earlier ++ [name]) rest

/-! ## Attributes -/

mutual

/-- Check an attribute against its earlier siblings, then its sub-attributes. -/
def checkAttribute (parent : String) (earlier : List Attribute) : Attribute → Checked
  | ⟨name, id, _, dataType, children, _⟩ => do
      checkName name
      refuseIf (dataType == .unknown) (.unknownDataType name)
      refuseIf (decide (id < 0)) (.negativeId name id)
      refuseIf (earlier.any (·.id == id)) (.duplicateAttributeId parent id)
      refuseIf (earlier.any (·.name == name)) (.duplicateAttributeName parent name)
      checkSpelling parent (earlier.map (·.name)) name
      if dataType == .subAttributes then
        refuseIf children.isEmpty (.emptySubAttributes name)
        checkAttributes name [] children
      else
        refuseIf (!children.isEmpty) (.unexpectedChildren name)

/-- Check the attributes of a parent, of which {lit}`earlier` are checked. -/
def checkAttributes (parent : String) (earlier : List Attribute) : List Attribute → Checked
  | [] => .ok ()
  | att :: rest => do
      checkAttribute parent earlier att
      checkAttributes parent (earlier ++ [att]) rest

end

/-! ## Commands -/

/-- Check a command against earlier ones, then its attributes. -/
def checkCommand (protocol : String) (earlier : List Command) (cmd : Command) : Checked := do
  checkName cmd.name
  refuseIf (cmd.direction == .unknown) (.unknownDirection cmd.name)
  refuseIf (decide (cmd.id < 0)) (.negativeId cmd.name cmd.id)
  match earlier.find? (·.id == cmd.id) with
  | some first => .error (.duplicateCommandId cmd.id first.name cmd.name)
  | none => .ok ()
  refuseIf (earlier.any (·.name == cmd.name)) (.duplicateCommandName cmd.name)
  checkSpelling protocol (earlier.map (·.name)) cmd.name
  checkAttributes cmd.name [] cmd.attributes

/-- Check the commands of a protocol, of which {lit}`earlier` are checked. -/
def checkCommands (protocol : String) (earlier : List Command) : List Command → Checked
  | [] => .ok ()
  | cmd :: rest => do
      checkCommand protocol earlier cmd
      checkCommands protocol (earlier ++ [cmd]) rest

/-! ## Protocols -/

/-- The names of the complex attributes of a forest, parents first. -/
def complexNames (entries : List Entry) : List String :=
  (entries.filter (·.node.isComplex)).map (·.node.name)

/-- Refuse complex attributes that share a name, or a spelling, with each other or
with a command. -/
def checkComplexNames (protocol : Protocol) : Checked := do
  match repeatedComplexName? protocol.commands with
  | some name => .error (.duplicateComplexName name)
  | none => .ok ()
  let commandNames := protocol.commands.map (·.name)
  let names := complexNames (flatten protocol.commands)
  match names.find? (commandNames.contains ·) with
  | some name => .error (.complexNameClash name)
  | none => .ok ()
  checkSpellings protocol.name commandNames names

/-- The first thing that is wrong with a protocol, if anything is. -/
def validate (protocol : Protocol) : Checked := do
  refuseIf protocol.commands.isEmpty .noCommands
  checkName protocol.name
  checkCommands protocol.name [] protocol.commands
  checkComplexNames protocol

end CommandSet
