import CommandSet.Firmware.BridgeHeader

/-!
# Descriptor tables

The validator checks messages against constant tables: one per complex attribute,
one per command with attributes, and the table of all commands.  A table names the
tables of its complex attributes, so those stand before it.

Main definitions:

- {lit}`TableRef`: a table with the macro of its length.
- {lit}`AttributeTable`, {lit}`CommandRow`: the tables.
- {lit}`Descriptor`, {lit}`Descriptor.build`: all tables and their making.
- {lit}`Descriptor.lines`: their text.
-/

namespace CommandSet
namespace Firmware

/-! ## Tables -/

/-- A table of attributes and the macro of its length. -/
structure TableRef where
  table : String
  count : String
deriving Repr, DecidableEq

/-- The name of the table of the attributes under {lit}`parent`. -/
def tableName (protocol parent : String) : String :=
  "LCSF_" ++ protocol ++ "_" ++ parent ++ "_AttDescArray"

/-- The table of the attributes of a command. -/
def TableRef.ofCommand (protocol command : String) : TableRef :=
  ⟨tableName protocol command, Naming.attributeCount protocol command⟩

/-- The table of the sub-attributes of a complex attribute. -/
def TableRef.ofComplex (protocol name : String) : TableRef :=
  ⟨tableName protocol name, Naming.subAttributeCount protocol name⟩

/-- The row of an attribute. -/
structure AttributeRow where
  optional : Bool
  dataType : DataType
  idName : String
  /-- The table of its sub-attributes. -/
  nested : Option TableRef
deriving Repr, DecidableEq

namespace AttributeRow

/-- The row of an attribute under {lit}`parent`. -/
def ofAttribute (protocol parent : String) (att : Attribute) : AttributeRow :=
  { optional := att.optional
    dataType := att.dataType
    idName := Naming.attributeId protocol parent att.name
    nested := if att.hasSubAttributes then some (TableRef.ofComplex protocol att.name) else none }

/-- The lines of a row. -/
def lines (row : AttributeRow) : List String :=
  [indent 1 r"{",
    indent 2 (".IsOptional = " ++ (if row.optional then "true" else "false") ++ ","),
    indent 2 (".DataType = " ++ row.dataType.validatorName ++ ","),
    indent 2 (".AttId = " ++ row.idName ++ ","),
    indent 2 (".SubAttNb = " ++ (row.nested.map (·.count)).getD "0" ++ ","),
    indent 2 (".pSubAttDescArray = " ++ (row.nested.map (·.table)).getD "NULL" ++ ","),
    indent 1 (closing ++ ",")]

end AttributeRow

/-- The table of the attributes under one parent. -/
structure AttributeTable where
  ref : TableRef
  rows : List AttributeRow
deriving Repr, DecidableEq

namespace AttributeTable

/-- The table of a command. -/
def ofCommand (protocol : String) (cmd : Command) : AttributeTable :=
  ⟨TableRef.ofCommand protocol cmd.name,
    cmd.attributes.map (AttributeRow.ofAttribute protocol cmd.name)⟩

/-- The table of a complex attribute. -/
def ofComplex (protocol : String) (att : Attribute) : AttributeTable :=
  ⟨TableRef.ofComplex protocol att.name,
    att.children.map (AttributeRow.ofAttribute protocol att.name)⟩

/-- The lines of a table, with the blank line after it. -/
def lines (table : AttributeTable) : List String :=
  [opening
      ("static const lcsf_attribute_desc_t " ++ table.ref.table ++ "[" ++ table.ref.count ++
        "] =")] ++
    table.rows.flatMap AttributeRow.lines ++ [closing ++ ";", ""]

end AttributeTable

/-- The row of a command. -/
structure CommandRow where
  idName : String
  /-- The table of its attributes. -/
  table : Option TableRef
deriving Repr, DecidableEq

namespace CommandRow

/-- The row of a command. -/
def ofCommand (protocol : String) (cmd : Command) : CommandRow :=
  { idName := Naming.commandId protocol cmd.name
    table := if cmd.hasAttributes then some (TableRef.ofCommand protocol cmd.name) else none }

/-- The lines of a row. -/
def lines (row : CommandRow) : List String :=
  [indent 1 r"{", indent 2 (".CmdId = " ++ row.idName ++ ","),
    indent 2 (".AttNb = " ++ (row.table.map (·.count)).getD "0" ++ ","),
    indent 2 (".pAttDescArray = " ++ (row.table.map (·.table)).getD "NULL" ++ ","),
    indent 1 (closing ++ ",")]

end CommandRow

/-! ## All tables -/

/-- The descriptor tables of a protocol. -/
structure Descriptor where
  protocol : String
  /-- Tables of complex attributes, each after those it names. -/
  nested : List AttributeTable
  /-- Tables of commands. -/
  tables : List AttributeTable
  commands : List CommandRow
deriving Repr, DecidableEq

namespace Descriptor

/-- The descriptor tables of a protocol. -/
def build (prepared : Prepared) : Descriptor :=
  let protocol := prepared.protocol.name
  { protocol := protocol
    nested :=
      prepared.complexChildrenFirst.map fun entry => AttributeTable.ofComplex protocol entry.node
    tables := prepared.protocol.carriers.map (AttributeTable.ofCommand protocol)
    commands := prepared.protocol.commands.map (CommandRow.ofCommand protocol) }

/-- The lines of a list of tables, none for an empty list. -/
def tableLines (title : String) (tables : List AttributeTable) : List String :=
  if tables.isEmpty then [] else title :: tables.flatMap AttributeTable.lines

/-- The lines of the file. -/
def lines (descriptor : Descriptor) : List String :=
  let protocol := descriptor.protocol
  banner (Naming.descriptorFile protocol) (protocol ++ " LCSF descriptor") ++
    ["// *** Libraries include ***",
      "#include \"" ++ Naming.bridgeHeaderFile protocol ++ "\"", "", "// *** Definitions ***",
      "// --- Private Constants ---", ""] ++
    tableLines "// Sub-attribute array descriptions" descriptor.nested ++
    tableLines "// Attribute array descriptions" descriptor.tables ++
    ["// Command array description",
      opening
        ("static const lcsf_command_desc_t LCSF_" ++ protocol ++ "_CmdDescArray[" ++
          commandNumber protocol ++ "] =")] ++
    descriptor.commands.flatMap CommandRow.lines ++
    [closing ++ ";", "", "// --- Public Constants ---",
      opening ("const lcsf_protocol_desc_t LCSF_" ++ protocol ++ "_ProtDesc ="),
      indent 1 (".CmdNb = " ++ commandNumber protocol ++ ","),
      indent 1 (".pCmdDescArray = LCSF_" ++ protocol ++ "_CmdDescArray,"), closing ++ ";"]

/-- The text of the file. -/
def text (descriptor : Descriptor) : String :=
  Text.unlines descriptor.lines

end Descriptor
end Firmware
end CommandSet
