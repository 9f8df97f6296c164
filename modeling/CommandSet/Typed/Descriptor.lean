import CommandSet.Text.Hexadecimal
import CommandSet.Typed.Payload

/-!
# Descriptor constants in Rust

The validator checks messages against constants: one per complex attribute, one per
command with attributes, and the protocol's own.

Main definitions:

- {lit}`descriptorConstant`: the name of a constant.
- {lit}`AttributeTable`, {lit}`CommandRow`: the constants and their text.
-/

namespace CommandSet
namespace Typed

/-- The constant that describes the attributes with a stem: {lit}`CC3_ATT_DESC`. -/
def descriptorConstant (stem : String) : String :=
  Text.upper stem ++ "_ATT_DESC"

/-- A reference to a constant, the empty slice without one. -/
def tableText (constant : Option String) : String :=
  constant.getD "&[]"

/-- What a constant says about an attribute. -/
structure AttributeRow where
  optional : Bool
  dataType : DataType
  id : Int16
  /-- The constant of its sub-attributes. -/
  nested : Option String
deriving Repr, DecidableEq

namespace AttributeRow

/-- The row of an attribute under {lit}`parent`. -/
def ofAttribute (parent : String) (att : Attribute) : AttributeRow :=
  { optional := att.optional
    dataType := att.dataType
    id := att.id
    nested :=
      if att.hasSubAttributes then some (descriptorConstant (nestedStem parent att.name))
      else none }

/-- The lines of a row. -/
def lines (row : AttributeRow) : List String :=
  [indent 1 (opening "LcsfAttDesc"),
    indent 2 ("is_optional: " ++ (if row.optional then "true" else "false") ++ ","),
    indent 2 ("data_type: LcsfDataType::" ++ capitalized row.dataType.keyword ++ ","),
    indent 2 ("att_id: " ++ Text.hexWord row.id.toUInt16 ++ ","),
    indent 2 ("subatt_desc_arr: " ++ tableText row.nested ++ ","), indent 1 (closing ++ ",")]

end AttributeRow

/-- The constant that describes the attributes under one parent. -/
structure AttributeTable where
  constant : String
  rows : List AttributeRow
deriving Repr, DecidableEq

namespace AttributeTable

/-- The constant of a command. -/
def ofCommand (cmd : Command) : AttributeTable :=
  ⟨descriptorConstant (commandStem cmd.name),
    cmd.attributes.map (AttributeRow.ofAttribute cmd.name)⟩

/-- The constant of a complex attribute. -/
def ofEntry (entry : Entry) : AttributeTable :=
  ⟨descriptorConstant (nestedStem entry.parent entry.node.name),
    entry.node.children.map (AttributeRow.ofAttribute entry.node.name)⟩

/-- The definition of a constant, with the blank line after it. -/
def lines (table : AttributeTable) : List String :=
  ["const " ++ table.constant ++ ": &[LcsfAttDesc] = &["] ++
    table.rows.flatMap AttributeRow.lines ++ ["];", ""]

end AttributeTable

/-- What the protocol's constant says about a command. -/
structure CommandRow where
  id : Int16
  /-- The constant of its attributes. -/
  table : Option String
deriving Repr, DecidableEq

namespace CommandRow

/-- The row of a command. -/
def ofCommand (cmd : Command) : CommandRow :=
  ⟨cmd.id,
    if cmd.hasAttributes then some (descriptorConstant (commandStem cmd.name)) else none⟩

/-- The line of a row. -/
def line (row : CommandRow) : String :=
  r"LcsfCmdDesc { cmd_id: " ++ Text.hexWord row.id.toUInt16 ++ ", att_desc_arr: " ++
    tableText row.table ++ r" },"

end CommandRow
end Typed
end CommandSet
