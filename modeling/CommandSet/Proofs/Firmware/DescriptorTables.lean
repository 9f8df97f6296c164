import CommandSet.Firmware.Descriptor
import CommandSet.Proofs.Firmware.Transfers
import CommandSet.Proofs.Protocol.Groups
import CommandSet.Proofs.Text.Blocks

/-!
# Tables of the descriptor

The tables of attributes are read off the lines of the descriptor: each by its name, the macro of
its length, and the fields that are set in its entries.  One of them belongs to every group, and
its entries to the attributes of the group in their order.

Main definitions:

- {lit}`field?`, {lit}`tableEntries`: a field that is set, and the entries of a table.
- {lit}`Table`, {lit}`attributeTables`: the tables of attributes on some lines.
- {lit}`definedTable?`, {lit}`namedTable?`: the table that a line defines, or that it names.
- {lit}`Group.table`: the table of a group.

Main results:

- Theorem {lit}`tableEntries_entryLines`: entries are read back.
- Theorem {lit}`attributeTables_build`: the tables of the descriptor are those of the groups.
-/

namespace CommandSet
namespace Firmware

/-! ## Entries -/

/-- The field that a line sets, and its value. -/
def field? (line : String) : Option (String × String) := do
  let (name, value) ← sides? line
  let value ← between? "" "," value.toList
  some (name, value)

/-- The entries of a table, each with the fields that are set in it. -/
def tableEntries : List String → List (List (String × String))
  | [] => []
  | line :: rest =>
      if unindented line = r"{" then
        (rest.takeWhile (unindented · != closing ++ ",")).filterMap field? :: tableEntries rest
      else tableEntries rest

/-- The lines of an entry that sets some fields. -/
def entryLines (fields : List (String × String)) : List String :=
  [indent 1 r"{"] ++ fields.map (fun field => indent 2 (field.1 ++ " = " ++ field.2 ++ ",")) ++
    [indent 1 (closing ++ ",")]

/-- Fields whose names start with a dot and whose values are one word. -/
def Settable (fields : List (String × String)) : Prop :=
  ∀ field ∈ fields, Unbroken field.1 ∧ field.1.toList.head? = some '.' ∧ Unbroken field.2

theorem field_indent {name value : String} (hname : Unbroken name) (hvalue : Unbroken value)
    (level : Nat) : field? (indent level (name ++ " = " ++ value ++ ",")) = some (name, value) := by
  have hsides := (sides_assignment hname (hvalue.append (by decide : ' ' ∉ ",".toList))).1
  have hbetween := between_append "" value ","
  rw [String.empty_append] at hbetween
  rw [field?, sides_indent, String.append_assoc, hsides]
  simp only [Option.bind_eq_bind, Option.bind_some, hbetween]

/-- The entry at the front of some lines is read up to the line that closes it. -/
theorem tableEntries_entryLines {fields : List (String × String)} (h : Settable fields)
    (rest : List String) :
    tableEntries (entryLines fields ++ rest) = fields :: tableEntries rest := by
  let settings := fields.map fun field => indent 2 (field.1 ++ " = " ++ field.2 ++ ",")
  have hdot : ∀ line ∈ settings, (unindented line).toList.head? = some '.' := by
    refine List.forall_mem_map.mpr fun field hfield => ?_
    obtain ⟨hname, hhead, -⟩ := h field hfield
    obtain ⟨rest, hrest⟩ := List.head?_eq_some_iff.mp hhead
    rw [unindented_indent (((flush_of_unbroken hname).append _).append _ |>.append _)]
    simp [hrest]
  have hstart : ∀ line ∈ settings ++ [indent 1 (closing ++ ",")], unindented line ≠ r"{" := by
    refine List.forall_mem_append.mpr ⟨fun line hline heq => ?_, by decide⟩
    have hhead := hdot line hline
    rw [heq] at hhead
    exact absurd hhead (by decide)
  have hinside : ∀ line ∈ settings, (unindented line != closing ++ ",") = true := by
    intro line hline
    rw [bne_iff_ne]
    intro heq
    have hhead := hdot line hline
    rw [heq] at hhead
    exact absurd hhead (by decide)
  have hskip (front : List String) (hfront : ∀ line ∈ front, unindented line ≠ r"{") :
      tableEntries (front ++ rest) = tableEntries rest := by
    induction front with
    | nil => rfl
    | cons line front ih =>
        rw [List.forall_mem_cons] at hfront
        rw [List.cons_append, tableEntries, if_neg hfront.1, ih hfront.2]
  have hlines : entryLines fields ++ rest =
      indent 1 r"{" :: (settings ++ [indent 1 (closing ++ ",")] ++ rest) := by
    simp [entryLines, settings]
  have hread : settings.filterMap field? = fields := by
    refine (@filterMap_lines _ _ fields _ _ id fun field hfield => ?_).trans (List.map_id _)
    exact field_indent (h field hfield).1 (h field hfield).2.2 2
  rw [hlines, tableEntries, if_pos (by decide), hskip _ hstart, List.append_assoc,
    List.takeWhile_append_of_pos hinside, List.singleton_append,
    List.takeWhile_cons_of_neg (by decide), List.append_nil, hread]

/-- Entries are read back. -/
theorem tableEntries_flatMap {entries : List (List (String × String))}
    (h : ∀ fields ∈ entries, Settable fields) :
    tableEntries (entries.flatMap entryLines) = entries := by
  induction entries with
  | nil => rfl
  | cons fields entries ih =>
      rw [List.forall_mem_cons] at h
      rw [List.flatMap_cons, tableEntries_entryLines h.1, ih h.2]

/-! ## Tables -/

/-- What the line of a table of attributes starts with. -/
def tableStart : String :=
  "static const lcsf_attribute_desc_t "

/-- The name of the table that a line opens, and the macro of its length. -/
def tableHead? (line : String) : Option (String × String) :=
  (between? tableStart (opening "] =") line.toList).map fun declarator =>
    (String.ofList (declarator.toList.takeWhile (· != '[')),
      String.ofList ((declarator.toList.dropWhile (· != '[')).drop 1))

/-- A table of attributes: its name, the macro of its length and its entries. -/
structure Table where
  name : String
  length : String
  entries : List (List (String × String))
deriving Repr, DecidableEq

/-- The tables of attributes on some lines. -/
def attributeTables (lines : List String) : List Table :=
  (topBlocks tableStart lines).filterMap fun block =>
    (tableHead? block.head).map fun head => ⟨head.1, head.2, tableEntries block.body⟩

/-- The table of attributes that a line defines. -/
def definedTable? (line : String) : Option String :=
  (tableHead? line).map (·.1)

/-- The table that a field names. -/
def fieldTable? (field : String × String) : Option String :=
  if (field.1 = ".pSubAttDescArray" ∨ field.1 = ".pAttDescArray") ∧ field.2 ≠ "NULL" then
    some field.2
  else none

/-- The table of attributes that a line names. -/
def namedTable? (line : String) : Option String :=
  (field? line).bind fieldTable?

/-- The line that opens a table. -/
def tableLine (name length : String) : String :=
  opening (tableStart ++ name ++ "[" ++ length ++ "] =")

theorem tableHead_tableLine {name : String} (h : IsWord name) (length : String) :
    tableHead? (tableLine name length) = some (name, length) := by
  have hline : tableLine name length = tableStart ++ (name ++ "[" ++ length) ++ opening "] =" := by
    simp [tableLine, opening, ← String.toList_inj]
  have hname : ∀ c ∈ name.toList, (c != '[') = true := fun c hc =>
    bne_iff_ne.mpr fun heq => absurd (heq ▸ h c hc : IsNameRest '[') (by decide)
  have hdeclarator : (name ++ "[" ++ length).toList = name.toList ++ '[' :: length.toList := by
    simp
  rw [tableHead?, hline, between_append, Option.map_some, hdeclarator,
    List.takeWhile_append_of_pos hname, List.dropWhile_append_of_pos hname,
    List.takeWhile_cons_of_neg (by decide), List.dropWhile_cons_of_neg (by decide),
    List.append_nil, List.drop_succ_cons, List.drop_zero, String.ofList_toList,
    String.ofList_toList]

theorem tableHead_eq_none {line : String} (h : tableStart.toList.isPrefixOf line.toList = false) :
    tableHead? line = none := by
  rw [tableHead?, between_eq_none]
  · rfl
  · rw [← List.isPrefixOf_iff_prefix, h]
    exact Bool.false_ne_true

/-- The tables that lines define are those that are read off them. -/
theorem filterMap_definedTable (lines : List String) :
    lines.filterMap definedTable? = (attributeTables lines).map (·.name) := by
  have hstart : lines.filterMap definedTable? =
      (lines.filter (tableStart.toList.isPrefixOf ·.toList)).filterMap definedTable? := by
    rw [List.filterMap_filter]
    refine List.filterMap_congr fun line _ => ?_
    cases hline : tableStart.toList.isPrefixOf line.toList with
    | false => rw [definedTable?, tableHead_eq_none hline]; rfl
    | true => rfl
  rw [hstart, ← map_head_topBlocks, List.filterMap_map, attributeTables, List.map_filterMap]
  refine List.filterMap_congr fun block _ => ?_
  rw [Function.comp_apply, definedTable?, Option.map_map]
  rfl

/-! ## Rows -/

/-- The fields of a row. -/
def AttributeRow.fields (row : AttributeRow) : List (String × String) :=
  [(".IsOptional", if row.optional then "true" else "false"),
    (".DataType", row.dataType.validatorName), (".AttId", row.idName),
    (".SubAttNb", (row.nested.map (·.count)).getD "0"),
    (".pSubAttDescArray", (row.nested.map (·.table)).getD "NULL")]

theorem AttributeRow.lines_eq (row : AttributeRow) : row.lines = entryLines row.fields := by
  simp [lines, entryLines, fields]

/-- The fields of the row of a command. -/
def CommandRow.fields (row : CommandRow) : List (String × String) :=
  [(".CmdId", row.idName), (".AttNb", (row.table.map (·.count)).getD "0"),
    (".pAttDescArray", (row.table.map (·.table)).getD "NULL")]

theorem CommandRow.lines_eq (row : CommandRow) : row.lines = entryLines row.fields := by
  simp [lines, entryLines, fields]

/-- Tables that are written with words. -/
structure TableRef.Spelled (ref : TableRef) : Prop where
  table : IsWord ref.table
  table_ne_nil : ref.table.toList ≠ []
  count : Unbroken ref.count

theorem settable_attributeRow {row : AttributeRow} (hid : Unbroken row.idName)
    (hnested : ∀ ref ∈ row.nested, ref.Spelled) : Settable row.fields := by
  have hoptional : Unbroken (if row.optional then "true" else "false") := by
    cases row.optional <;> decide
  have htype : Unbroken row.dataType.validatorName := by cases row.dataType <;> decide
  have hrefs : Unbroken ((row.nested.map (·.count)).getD "0") ∧
      Unbroken ((row.nested.map (·.table)).getD "NULL") := by
    cases hrow : row.nested with
    | none => exact ⟨by decide, by decide⟩
    | some ref =>
        have hspelled := hnested ref hrow
        exact ⟨hspelled.count, hspelled.table.unbroken hspelled.table_ne_nil⟩
  simp only [Settable, AttributeRow.fields, List.forall_mem_cons]
  exact ⟨⟨by decide, by decide, hoptional⟩, ⟨by decide, by decide, htype⟩,
    ⟨by decide, by decide, hid⟩, ⟨by decide, by decide, hrefs.1⟩, ⟨by decide, by decide, hrefs.2⟩,
    List.forall_mem_nil _⟩

theorem settable_commandRow {row : CommandRow} (hid : Unbroken row.idName)
    (htable : ∀ ref ∈ row.table, ref.Spelled) : Settable row.fields := by
  have hrefs : Unbroken ((row.table.map (·.count)).getD "0") ∧
      Unbroken ((row.table.map (·.table)).getD "NULL") := by
    cases hrow : row.table with
    | none => exact ⟨by decide, by decide⟩
    | some ref =>
        have hspelled := htable ref hrow
        exact ⟨hspelled.count, hspelled.table.unbroken hspelled.table_ne_nil⟩
  simp only [Settable, CommandRow.fields, List.forall_mem_cons]
  exact ⟨⟨by decide, by decide, hid⟩, ⟨by decide, by decide, hrefs.1⟩,
    ⟨by decide, by decide, hrefs.2⟩, List.forall_mem_nil _⟩

/-! ## Lines of the descriptor -/

namespace AttributeTable

/-- The lines inside a table. -/
def body (table : AttributeTable) : List String :=
  table.rows.flatMap AttributeRow.lines

/-- What a table is read as. -/
def shown (table : AttributeTable) : Table :=
  ⟨table.ref.table, table.ref.count, table.rows.map AttributeRow.fields⟩

/-- Tables that are written with words. -/
structure Spelled (table : AttributeTable) : Prop where
  ref : table.ref.Spelled
  rows : ∀ row ∈ table.rows, Settable row.fields

theorem lines_eq (table : AttributeTable) : table.lines =
    tableLine table.ref.table table.ref.count :: (table.body ++ [closing ++ ";", ""]) :=
  rfl

theorem body_eq (table : AttributeTable) :
    table.body = (table.rows.map AttributeRow.fields).flatMap entryLines := by
  rw [body, List.flatMap_map]
  exact List.flatMap_congr fun row _ => row.lines_eq

theorem forall_mem_body {table : AttributeTable} {p : String → Prop}
    (h : ∀ level text, p (indent (level + 1) text)) : ∀ line ∈ table.body, p line := by
  refine List.forall_mem_flatMap.mpr fun row _ => ?_
  simp only [AttributeRow.lines, List.forall_mem_cons]
  exact ⟨h 0 _, h 1 _, h 1 _, h 1 _, h 1 _, h 1 _, h 0 _, List.forall_mem_nil _⟩

/-- A table is one block. -/
theorem topBlocks_lines (table : AttributeTable) (rest : List String) :
    topBlocks tableStart (table.lines ++ rest) =
      ⟨tableLine table.ref.table table.ref.count, table.body⟩ :: topBlocks tableStart rest := by
  have hstart : tableStart.toList.isPrefixOf (tableLine table.ref.table table.ref.count).toList =
      true := by
    simp [tableLine, opening]
  have hbody : ∀ line ∈ table.body, tableStart.toList.isPrefixOf line.toList = false :=
    forall_mem_body fun level text => isPrefixOf_indent (by decide) _ level text
  have hinside : ∀ line ∈ table.body, closesAt 0 line = false :=
    forall_mem_body fun level text => closesAt_indent (by omega) text
  have hending : ∀ line ∈ [closing ++ ";", ""],
      tableStart.toList.isPrefixOf line.toList = false := by
    decide
  rw [lines_eq, List.cons_append, List.append_assoc, List.cons_append,
    topBlocks_block hstart hbody hinside (by decide), ← List.cons_append,
    topBlocks_append hending]

theorem read_block {table : AttributeTable} (h : table.Spelled) :
    (tableHead? (tableLine table.ref.table table.ref.count)).map (fun head =>
      (⟨head.1, head.2, tableEntries table.body⟩ : Table)) = some table.shown := by
  rw [tableHead_tableLine h.ref.table, Option.map_some, body_eq,
    tableEntries_flatMap (List.forall_mem_map.mpr h.rows)]
  rfl

end AttributeTable

/-- The lines of a descriptor in front of its tables. -/
def descriptorFront (protocol : String) : List String :=
  banner (Naming.descriptorFile protocol) (protocol ++ " LCSF descriptor") ++
    ["// *** Libraries include ***",
      "#include \"" ++ Naming.bridgeHeaderFile protocol ++ "\"", "", "// *** Definitions ***",
      "// --- Private Constants ---", ""]

/-- The lines of a descriptor behind the tables of attributes. -/
def descriptorBack (descriptor : Descriptor) : List String :=
  ["// Command array description",
      opening
        ("static const lcsf_command_desc_t LCSF_" ++ descriptor.protocol ++ "_CmdDescArray[" ++
          commandNumber descriptor.protocol ++ "] =")] ++
    descriptor.commands.flatMap CommandRow.lines ++
    [closing ++ ";", "", "// --- Public Constants ---",
      opening ("const lcsf_protocol_desc_t LCSF_" ++ descriptor.protocol ++ "_ProtDesc ="),
      indent 1 (".CmdNb = " ++ commandNumber descriptor.protocol ++ ","),
      indent 1 (".pCmdDescArray = LCSF_" ++ descriptor.protocol ++ "_CmdDescArray,"),
      closing ++ ";"]

/-- The sections of tables in a descriptor. -/
def tableSections (descriptor : Descriptor) : List String :=
  Descriptor.tableLines "// Sub-attribute array descriptions" descriptor.nested ++
    Descriptor.tableLines "// Attribute array descriptions" descriptor.tables

theorem lines_descriptor (descriptor : Descriptor) : descriptor.lines =
    descriptorFront descriptor.protocol ++ (tableSections descriptor ++
      descriptorBack descriptor) := by
  simp [Descriptor.lines, descriptorFront, descriptorBack, tableSections]

theorem descriptorFront_start (protocol : String) :
    ∀ line ∈ descriptorFront protocol, tableStart.toList.isPrefixOf line.toList = false := by
  simp [descriptorFront, banner, tableStart, List.isPrefixOf]

theorem descriptorBack_start (descriptor : Descriptor) :
    ∀ line ∈ descriptorBack descriptor, tableStart.toList.isPrefixOf line.toList = false := by
  have hrows : ∀ line ∈ descriptor.commands.flatMap CommandRow.lines,
      tableStart.toList.isPrefixOf line.toList = false := by
    refine List.forall_mem_flatMap.mpr fun row _ => ?_
    simp only [CommandRow.lines, List.forall_mem_cons]
    exact ⟨isPrefixOf_indent (by decide) _ 0 _, isPrefixOf_indent (by decide) _ 1 _,
      isPrefixOf_indent (by decide) _ 1 _, isPrefixOf_indent (by decide) _ 1 _,
      isPrefixOf_indent (by decide) _ 0 _, List.forall_mem_nil _⟩
  rw [descriptorBack, List.forall_mem_append, List.forall_mem_append]
  refine ⟨⟨?_, hrows⟩, ?_⟩
  · simp [tableStart, opening, List.isPrefixOf]
  · simp [tableStart, opening, closing, toList_indent, List.isPrefixOf]

/-- The blocks in a section of tables. -/
theorem topBlocks_tableLines {title : String}
    (htitle : tableStart.toList.isPrefixOf title.toList = false) (tables : List AttributeTable)
    (rest : List String) : topBlocks tableStart (Descriptor.tableLines title tables ++ rest) =
      tables.map (fun table => ⟨tableLine table.ref.table table.ref.count, table.body⟩) ++
        topBlocks tableStart rest := by
  have htables := @topBlocks_flatMap _ _ tables AttributeTable.lines _
    (fun table _ => table.topBlocks_lines) rest
  rw [Descriptor.tableLines]
  split
  next hempty =>
    rw [List.isEmpty_iff.mp hempty]
    rfl
  next =>
    rw [List.cons_append, ← List.singleton_append,
      topBlocks_append (List.forall_mem_singleton.mpr htitle), htables]

/-- The tables of a descriptor are read back. -/
theorem attributeTables_descriptor {descriptor : Descriptor}
    (h : ∀ table ∈ descriptor.nested ++ descriptor.tables, table.Spelled) :
    attributeTables descriptor.lines =
      (descriptor.nested ++ descriptor.tables).map AttributeTable.shown := by
  rw [attributeTables, lines_descriptor, topBlocks_append (descriptorFront_start _), tableSections,
    List.append_assoc, topBlocks_tableLines (by decide), topBlocks_tableLines (by decide),
    topBlocks_eq_nil (descriptorBack_start _), List.append_nil, ← List.map_append,
    List.filterMap_map, ← List.filterMap_eq_map]
  refine List.filterMap_congr fun table htable => ?_
  rw [Function.comp_apply]
  exact AttributeTable.read_block (h table htable)

/-! ## Tables of groups -/

end Firmware

open Firmware

/-- The fields of an attribute in the table of its group. -/
def Attribute.fields (protocol parent : String) (att : Attribute) : List (String × String) :=
  [(".IsOptional", if att.optional then "true" else "false"),
    (".DataType", att.dataType.validatorName),
    (".AttId", Naming.attributeId protocol parent att.name),
    (".SubAttNb", if att.isComplex then Naming.subAttributeCount protocol att.name else "0"),
    (".pSubAttDescArray", if att.isComplex then tableName protocol att.name else "NULL")]

/-- The macro for the number of attributes of a group. -/
def Group.count (protocol : String) (group : Group) : String :=
  if group.ancestors.length = 1 then Naming.attributeCount protocol group.parent
  else Naming.subAttributeCount protocol group.parent

/-- The table of a group. -/
def Group.table (protocol : String) (group : Group) : Table :=
  ⟨tableName protocol group.parent, group.count protocol,
    group.members.map (Attribute.fields protocol group.parent)⟩

namespace Firmware

open Text (lower)

variable {protocol : Protocol}

/-- The table that is written for a group. -/
def writtenTable (protocol : String) (group : Group) : AttributeTable :=
  ⟨⟨tableName protocol group.parent, group.count protocol⟩,
    group.members.map (AttributeRow.ofAttribute protocol group.parent)⟩

theorem count_below (protocol : String) {group : Group} (h : group.ancestors ≠ [])
    (att : Attribute) : (group.below att).count protocol =
      Naming.subAttributeCount protocol att.name := by
  have hlength : (group.below att).ancestors.length ≠ 1 := by
    simpa [Group.below] using h
  rw [Group.count, if_neg hlength, Group.parent_below]

/-- The tables of a descriptor, in the order in which items are defined. -/
theorem tables_build (hwell : WellFormed protocol) :
    (Descriptor.build (Prepared.ofProtocol protocol)).nested ++
        (Descriptor.build (Prepared.ofProtocol protocol)).tables =
      (definedGroups protocol).map (writtenTable protocol.name) := by
  refine map_entries_eq hwell (fun p hp => ?_) fun cmd => rfl
  rw [writtenTable, Position.parent_below, Position.below, count_below protocol.name hp]
  rfl

theorem isWord_tableName {protocol name : String} (hprotocol : IsName protocol)
    (hname : IsName name) : IsWord (tableName protocol name) :=
  ((((IsWord.fixed rfl).append hprotocol.isWord).append (.fixed rfl)).append hname.isWord).append
    (.fixed rfl)

theorem spelled_ref {protocol name count : String} (hprotocol : IsName protocol)
    (hname : IsName name) (hcount : Unbroken count) :
    TableRef.Spelled ⟨tableName protocol name, count⟩ where
  table := isWord_tableName hprotocol hname
  table_ne_nil := by simp [tableName]
  count := hcount

theorem unbroken_commandId {protocol command : String} (hprotocol : IsName protocol)
    (hcommand : IsName command) : Unbroken (Naming.commandId protocol command) :=
  ((((IsWord.fixed rfl : IsWord "LCSF_").append hprotocol.isWord.upper).append
    (.fixed rfl)).append hcommand.isWord.upper).unbroken (by simp)

theorem unbroken_attributeId {protocol parent name : String} (hprotocol : IsName protocol)
    (hparent : IsName parent) (hname : IsName name) :
    Unbroken (Naming.attributeId protocol parent name) :=
  ((((((IsWord.fixed rfl : IsWord "LCSF_").append hprotocol.isWord.upper).append
    (.fixed rfl)).append hparent.isWord.upper).append (.fixed rfl)).append
      hname.isWord.upper).unbroken (by simp)

theorem unbroken_counts {protocol name : String} (hprotocol : IsName protocol)
    (hname : IsName name) : Unbroken (Naming.attributeCount protocol name) ∧
      Unbroken (Naming.subAttributeCount protocol name) :=
  ⟨(isWord_attributeCount hprotocol hname).unbroken (by simp [Naming.attributeCount]),
    (isWord_subAttributeCount hprotocol hname).unbroken (by simp [Naming.subAttributeCount])⟩

/-- The tables of groups are written with words. -/
theorem spelled_writtenTable (hwell : WellFormed protocol) {group : Group}
    (hgroup : group ∈ protocol.groups) : (writtenTable protocol.name group).Spelled := by
  have hnamed := named_of_mem_groups hwell hgroup
  have hprotocol := hwell.protocol_name
  obtain ⟨hattributes, hsubAttributes⟩ := unbroken_counts hprotocol hnamed.parent
  constructor
  case ref =>
    refine spelled_ref hprotocol hnamed.parent ?_
    rw [Group.count]
    split
    next => exact hattributes
    next => exact hsubAttributes
  case rows =>
    refine List.forall_mem_map.mpr fun att hatt => ?_
    have hname := hnamed.members att hatt
    refine settable_attributeRow (unbroken_attributeId hprotocol hnamed.parent hname) ?_
    intro ref href
    obtain ⟨-, href⟩ := Option.ite_none_right_eq_some.mp href
    rw [← Option.some.inj href]
    exact spelled_ref hprotocol hname (unbroken_counts hprotocol hname).2

theorem shown_writtenTable (hwell : WellFormed protocol) {group : Group}
    (hgroup : group ∈ protocol.groups) :
    (writtenTable protocol.name group).shown = group.table protocol.name := by
  rw [AttributeTable.shown, writtenTable, Group.table, List.map_map]
  refine congrArg _ (List.map_congr_left fun att hatt => ?_)
  have hmem := mem_attributes_of_mem_members hwell.children hgroup hatt
  rw [Function.comp_apply, AttributeRow.fields, AttributeRow.ofAttribute, Attribute.fields,
    hasSubAttributes_eq_isComplex (hwell.children att hmem)]
  cases att.isComplex <;> rfl

/-- The tables of the descriptor are those of the groups. -/
theorem attributeTables_build (hwell : WellFormed protocol) :
    attributeTables (Descriptor.build (Prepared.ofProtocol protocol)).lines =
      (definedGroups protocol).map (Group.table protocol.name) := by
  have hmem {group : Group} (h : group ∈ definedGroups protocol) : group ∈ protocol.groups :=
    mem_definedGroups.mp h
  rw [attributeTables_descriptor, tables_build hwell, List.map_map]
  · exact List.map_congr_left fun group hgroup => shown_writtenTable hwell (hmem hgroup)
  · rw [tables_build hwell]
    exact List.forall_mem_map.mpr fun group hgroup => spelled_writtenTable hwell (hmem hgroup)

/-- The tables of groups have different names. -/
theorem nodup_tableNames (hwell : WellFormed protocol) :
    ((definedGroups protocol).map fun group => tableName protocol.name group.parent).Nodup := by
  have hparents : ((definedGroups protocol).map fun group => lower group.parent).Nodup :=
    ((definedGroups_perm protocol).map _).nodup_iff.mpr (nodup_lower_groups hwell)
  refine List.pairwise_map.mpr ((List.pairwise_map.mp hparents).imp ?_)
  intro first second hne heq
  rw [tableName, tableName, String.append_left_inj, String.append_right_inj] at heq
  exact hne (congrArg lower heq)

end Firmware
end CommandSet
