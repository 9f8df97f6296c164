import CommandSet.CodeLine
import CommandSet.Prepared

/-!
# Payload types in Rust

In Rust a payload owns its values: a struct per command with attributes and one per
complex attribute, with an option around every optional field.

Main definitions:

- {lit}`FieldType`, {lit}`Field`, {lit}`PayloadStruct`: the structs and their text.
- {lit}`commandStem`, {lit}`nestedStem`: names shared by functions and constants.
- {lit}`anyInForest`: search through attributes at all depths.
-/

namespace CommandSet

/-- The Rust type of a number. -/
def Scalar.typedName : Scalar → String
  | .u8 => "u8"
  | .u16 => "u16"
  | .u32 => "u32"
  | .u64 => "u64"
  | .f32 => "f32"
  | .f64 => "f64"

namespace Typed

/-! ## Names -/

/-- The stem of the functions and constants of a command: {lit}`cc3`. -/
def commandStem (command : String) : String :=
  snakeCase command

/-- The stem of the functions and constants of a complex attribute:
{lit}`cc3_att_ca1`. -/
def nestedStem (parent name : String) : String :=
  snakeCase parent ++ "_att_" ++ snakeCase name

/-! ## Structs -/

/-- The type of a field, before any option around it. -/
inductive FieldType where
  | number (scalar : Scalar)
  | bytes
  | text
  /-- A payload struct of this name. -/
  | record (typeName : String)
deriving Repr, DecidableEq

namespace FieldType

/-- The type of a stored value. -/
def ofStorage (storage : Storage) (parent name : String) : FieldType :=
  match storage with
  | .scalar scalar => number scalar
  | .bytes => bytes
  | .text => text
  | .nested => record (Naming.typedNestedPayload parent name)

/-- The spelling of a type. -/
def spelling : FieldType → String
  | number scalar => scalar.typedName
  | bytes => "Vec<u8>"
  | text => "CString"
  | record typeName => typeName

end FieldType

/-- A field of a payload struct. -/
structure Field where
  name : String
  type : FieldType
  optional : Bool
deriving Repr, DecidableEq

/-- The declaration of a field. -/
def Field.line (field : Field) : String :=
  let type := field.type.spelling
  "pub " ++ field.name ++ ": " ++ (if field.optional then "Option<" ++ type ++ ">" else type) ++
    ","

/-- The field of an attribute, none if its type is unknown. -/
def fieldOf (parent : String) (att : Attribute) : Option Field :=
  att.dataType.storage.map fun storage =>
    ⟨snakeCase att.name, FieldType.ofStorage storage parent att.name, att.optional⟩

/-- A payload struct. -/
structure PayloadStruct where
  typeName : String
  fields : List Field
deriving Repr, DecidableEq

namespace PayloadStruct

/-- The struct of a command. -/
def ofCommand (cmd : Command) : PayloadStruct :=
  ⟨Naming.typedCommandPayload cmd.name, cmd.attributes.filterMap (fieldOf cmd.name)⟩

/-- The struct of a complex attribute. -/
def ofEntry (entry : Entry) : PayloadStruct :=
  ⟨Naming.typedNestedPayload entry.parent entry.node.name,
    entry.node.children.filterMap (fieldOf entry.node.name)⟩

/-- The definition of a struct, with the blank line after it. -/
def lines (payload : PayloadStruct) : List String :=
  ["#[derive(Debug, Clone, Default, PartialEq)]", opening ("pub struct " ++ payload.typeName)] ++
    payload.fields.map (fun field => indent 1 field.line) ++ [closing, ""]

end PayloadStruct

/-! ## Search -/

mutual

/-- Whether an attribute or one below it has a property. -/
def anyInTree (p : Attribute → Bool) : Attribute → Bool
  | att@⟨_, _, _, _, children, _⟩ => p att || anyInForest p children

/-- Whether some attribute, at any depth, has a property. -/
def anyInForest (p : Attribute → Bool) : List Attribute → Bool
  | [] => false
  | att :: rest => anyInTree p att || anyInForest p rest

end

end Typed
end CommandSet
