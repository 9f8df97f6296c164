import CommandSet.Proofs.Firmware.DeclaredPaths
import CommandSet.Proofs.Firmware.DescriptorTables
import CommandSet.Proofs.Protocol.ChildrenFirst

/-!
# Definitions before uses

In C a struct or a table can be used only below its definition.  The types that a struct is made
of and the tables that an entry names are read off the lines of the main header and of the
descriptor, and each is defined further up.

Main definitions:

- {lit}`Typedef.uses`: the types that a type definition is made of.
- {lit}`definedTables`, {lit}`namedTables`: the table that a line defines, or names.
- {lit}`TypesInOrder`, {lit}`TablesInOrder`: what a main header and a descriptor define, and in
  which order.

Main results:

- Theorems {lit}`usesEarlier_typedefs`, {lit}`usesEarlier_descriptor`: types are made of types in
  front of them, and lines name tables in front of them.
- Theorem {lit}`definitions_precede_uses`: structs and tables stand in front of their uses.
-/

namespace CommandSet

open Text (lower)

namespace Firmware

/-! ## Types -/

/-- The types that a main header uses without defining them. -/
def basicTypes : List String :=
  ["uint8_t", "uint16_t", "uint32_t", "uint64_t", "float", "double", "char"]

/-- The types that a type definition is made of, but for the basic ones. -/
def Typedef.uses (type : Typedef) : List String :=
  (type.declarations.map (·.base)).filter (!basicTypes.contains ·)

theorem not_basic {name : String} (h : "_payload_t".toList <:+ name.toList) :
    basicTypes.contains name = false := by
  rw [Bool.eq_false_iff, ne_eq, List.contains_iff_mem]
  intro hmem
  have hall : ∀ basic ∈ basicTypes, ¬"_payload_t".toList <:+ basic.toList := by decide
  exact hall name hmem h

theorem suffix_append_payload (front : String) :
    "_payload_t".toList <:+ (front ++ "_att_payload_t").toList := by
  rw [String.toList_append]
  exact (by decide : "_payload_t".toList <:+ "_att_payload_t".toList).trans (List.suffix_append _ _)

/-- An attribute is declared with a type of its own if it is complex. -/
theorem bases_membersOf (protocol parent : String) (att : Attribute) :
    ((membersOf protocol parent att).map (·.declared.base)).filter (!basicTypes.contains ·) =
      if att.isComplex then [Naming.nestedPayload protocol parent att.name] else [] := by
  have hnested := @Attribute.storage_eq_nested_iff att
  rw [membersOf]
  cases hstorage : att.dataType.storage with
  | none => simp [← hnested, hstorage]
  | some storage =>
      cases storage with
      | nested =>
          have hpayload : basicTypes.contains (Naming.nestedPayload protocol parent att.name) =
              false :=
            not_basic (suffix_append_payload _)
          rw [if_pos (hnested.mp hstorage)]
          exact List.filter_cons_of_pos (congrArg (!·) hpayload)
      | scalar scalar =>
          rw [if_neg (by simp [← hnested, hstorage])]
          cases scalar <;> rfl
      | _ =>
          rw [if_neg (by simp [← hnested, hstorage])]
          rfl

variable {protocol : Protocol} {code : Option Recovery.RecoveredCode}

/-- The struct of a group is made of the structs right below it. -/
theorem uses_group (hwell : WellFormed protocol) {group : Group} (h : group ∈ protocol.groups) :
    (group.record protocol.name).typedef.uses =
      group.namesBelow (Group.typeName protocol.name) := by
  have hnamed := named_of_mem_groups hwell h
  have hpresence : (((if group.members.any (·.optional) then
      [(⟨.presence group.width, presenceMember⟩ : Member)] else []).map
        (·.declared.base)).filter (!basicTypes.contains ·)) = [] := by
    split
    · cases group.width <;> rfl
    · rfl
  have hmembers : (group.members.flatMap (membersOf protocol.name group.parent)).map
      (·.declared.base) = group.members.flatMap fun att =>
        (membersOf protocol.name group.parent att).map (·.declared.base) :=
    List.map_flatMap
  rw [Typedef.uses, declarations_typedef (spelled_members hwell _ (record_mem_records h)),
    Group.record, Record.ofGroup, List.map_map, List.map_append, List.filter_append]
  refine (congrArg₂ _ hpresence ((congrArg _ hmembers).trans ?_)).trans (List.nil_append _)
  rw [List.filter_flatMap]
  simp only [bases_membersOf]
  rw [flatMap_kept]
  exact List.map_congr_left fun att _ =>
    (typeName_below protocol.name hnamed.ancestors_ne_nil att).symm

/-- The union is made of the structs of commands. -/
theorem uses_union (hwell : WellFormed protocol) :
    (Record.ofCarriers protocol.name protocol.carriers).typedef.uses =
      protocol.carriers.map (·.group.typeName protocol.name) := by
  rw [Typedef.uses, declarations_typedef (spelled_members hwell _ (union_mem_records protocol)),
    Record.ofCarriers]
  split
  next hempty =>
    rw [List.isEmpty_iff.mp hempty]
    rfl
  next =>
    rw [List.map_map, List.map_map]
    exact List.filter_eq_self.mpr (List.forall_mem_map.mpr fun cmd _ =>
      congrArg (!·) (not_basic (suffix_append_payload _)))

/-- Types are made of types in front of them. -/
theorem usesEarlier_typedefs (hwell : WellFormed protocol) :
    UsesEarlier (fun type => [type.name]) Typedef.uses [] protocol.typedefs := by
  rw [Protocol.typedefs, Protocol.records, List.map_append, List.map_map, usesEarlier_append]
  constructor
  · refine usesEarlier_map (fun _ _ => rfl) (fun group hgroup => ?_)
      (usesEarlier_definedGroups protocol (Group.typeName protocol.name))
    exact uses_group hwell (mem_definedGroups.mp hgroup)
  · refine usesEarlier_of_defined (List.forall_mem_singleton.mpr fun used hused => ?_)
    rw [uses_union hwell, List.mem_map] at hused
    obtain ⟨cmd, hcmd, rfl⟩ := hused
    refine List.mem_flatMap_of_mem (List.mem_map_of_mem (mem_definedGroups.mpr ?_))
      (List.mem_singleton_self _)
    exact group_mem_groups hcmd

/-! ## Names of tables -/

/-- The table that a line defines, in a list. -/
def definedTables (line : String) : List String :=
  (definedTable? line).toList

/-- The table that a line names, in a list. -/
def namedTables (line : String) : List String :=
  (namedTable? line).toList

theorem flatMap_definedTables (lines : List String) :
    lines.flatMap definedTables = lines.filterMap definedTable? :=
  (List.filterMap_eq_flatMap_toList ..).symm

theorem flatMap_namedTables (lines : List String) :
    lines.flatMap namedTables = lines.filterMap namedTable? :=
  (List.filterMap_eq_flatMap_toList ..).symm

theorem namedTable_of_sides {line : String} (h : sides? line = none) : namedTable? line = none := by
  rw [namedTable?, field?, h]
  rfl

/-- An entry names the tables that its fields name. -/
theorem filterMap_namedTable_entryLines {fields : List (String × String)} (h : Settable fields) :
    (entryLines fields).filterMap namedTable? = fields.filterMap fieldTable? := by
  have hopening : namedTable? (indent 1 r"{") = none := namedTable_of_sides (by decide)
  have hclosing : namedTable? (indent 1 (closing ++ ",")) = none := namedTable_of_sides (by decide)
  rw [entryLines, List.filterMap_append, List.filterMap_append, List.filterMap_map,
    List.filterMap_cons_none hopening, List.filterMap_cons_none hclosing, List.filterMap_nil,
    List.nil_append, List.append_nil]
  refine List.filterMap_congr fun field hfield => ?_
  rw [Function.comp_apply, namedTable?, field_indent (h field hfield).1 (h field hfield).2.2,
    Option.bind_some]

theorem fieldTable_tableName {field protocol name : String}
    (h : field = ".pSubAttDescArray" ∨ field = ".pAttDescArray") :
    fieldTable? (field, tableName protocol name) = some (tableName protocol name) := by
  have hnull : tableName protocol name ≠ "NULL" := fun heq => by
    have hhead := congrArg (·.toList.head?) heq
    simp [tableName] at hhead
  exact if_pos ⟨h, hnull⟩

theorem fieldTable_null (field : String) : fieldTable? (field, "NULL") = none :=
  if_neg fun h => h.2 rfl

theorem fieldTable_other {field : String} (value : String)
    (h : field ≠ ".pSubAttDescArray" ∧ field ≠ ".pAttDescArray") :
    fieldTable? (field, value) = none :=
  if_neg fun hfield => hfield.1.elim h.1 h.2

/-- The entry of an attribute names the table of a complex one. -/
theorem filterMap_fieldTable_fields (protocol parent : String) (att : Attribute) :
    (att.fields protocol parent).filterMap fieldTable? =
      if att.isComplex then [tableName protocol att.name] else [] := by
  rw [Attribute.fields]
  iterate 4 rw [List.filterMap_cons_none (fieldTable_other _ (by decide))]
  cases att.isComplex with
  | false => rw [if_neg Bool.false_ne_true, List.filterMap_cons_none (fieldTable_null _)]; rfl
  | true => rw [if_pos rfl, List.filterMap_cons_some (fieldTable_tableName (.inl rfl))]; rfl

/-- The lines of a group's table define it and name the tables of the groups right below. -/
theorem tables_writtenTable (hwell : WellFormed protocol) {group : Group}
    (h : group ∈ protocol.groups) :
    (writtenTable protocol.name group).lines.flatMap definedTables =
        [tableName protocol.name group.parent] ∧
      (writtenTable protocol.name group).lines.flatMap namedTables =
        group.namesBelow fun below => tableName protocol.name below.parent := by
  have hspelled := spelled_writtenTable hwell h
  have hshown := shown_writtenTable hwell h
  let table := writtenTable protocol.name group
  constructor
  · have hblocks := table.topBlocks_lines []
    rw [List.append_nil, topBlocks_eq_nil (List.forall_mem_nil _)] at hblocks
    have htables : attributeTables table.lines = [table.shown] := by
      rw [attributeTables, hblocks, List.filterMap_cons]
      simp only [table, AttributeTable.read_block hspelled, List.filterMap_nil]
    rw [flatMap_definedTables, filterMap_definedTable, htables]
    exact congrArg (fun shown : Table => [shown.name]) hshown
  · have hhead : namedTable? (tableLine table.ref.table table.ref.count) = none := by
      have hsecond := sides_of_second (by decide : Unbroken "static") (by decide : Unbroken "const")
        (by decide) ("lcsf_attribute_desc_t " ++ table.ref.table ++ "[" ++ table.ref.count ++
          opening "] =")
      refine namedTable_of_sides ((congrArg sides? ?_).trans hsecond)
      simp [tableLine, tableStart, opening, ← String.toList_inj]
    have hending : ∀ line ∈ [closing ++ ";", ""], namedTable? line = none := by
      simp only [List.forall_mem_cons]
      exact ⟨namedTable_of_sides (by decide), namedTable_of_sides (by decide),
        List.forall_mem_nil _⟩
    have hrows : table.rows.map AttributeRow.fields =
        group.members.map (Attribute.fields protocol.name group.parent) :=
      congrArg Table.entries hshown
    have hsettable : ∀ att ∈ group.members,
        Settable (att.fields protocol.name group.parent) := by
      have hfields := List.forall_mem_map.mpr hspelled.rows
      rwa [hrows, List.forall_mem_map] at hfields
    rw [flatMap_namedTables, AttributeTable.lines_eq, AttributeTable.body_eq, hrows,
      List.filterMap_cons_none hhead, List.filterMap_append, List.flatMap_map,
      List.filterMap_flatMap, List.filterMap_eq_nil_iff.mpr hending, List.append_nil]
    refine (List.flatMap_congr fun att hatt => ?_).trans (flatMap_kept Attribute.isComplex _ _)
    rw [filterMap_namedTable_entryLines (hsettable att hatt), filterMap_fieldTable_fields]
    simp [Group.parent_below]

/-! ## Lines between tables -/

/-- Lines that neither define a table nor name one. -/
def NoTable (line : String) : Prop :=
  definedTables line = [] ∧ namedTables line = []

theorem noTable_of_sides {line : String} (hstart : tableStart.toList.isPrefixOf line.toList = false)
    (hsides : sides? line = none) : NoTable line := by
  rw [NoTable, definedTables, namedTables, definedTable?, tableHead_eq_none hstart,
    namedTable_of_sides hsides]
  exact ⟨rfl, rfl⟩

theorem noTable_descriptorFront {protocol : String} (hprotocol : IsName protocol) :
    ∀ line ∈ descriptorFront protocol, NoTable line := by
  intro line hline
  have hplain : ∀ line ∈ descriptorFront protocol, Avoids ['='] line := by
    have hword : Avoids ['='] protocol := hprotocol.isWord.avoids (by decide)
    simp only [descriptorFront, banner, Naming.descriptorFile, Naming.bridgeHeaderFile,
      List.forall_mem_append, List.forall_mem_cons, avoids_append]
    exact ⟨⟨by decide, ⟨by decide, ⟨by decide, hword⟩, by decide⟩, ⟨by decide, hword, by decide⟩,
      by decide, by decide, by decide, by decide, List.forall_mem_nil _⟩, by decide,
      ⟨⟨by decide, ⟨by decide, hword⟩, by decide⟩, by decide⟩, by decide, by decide, by decide,
      by decide, List.forall_mem_nil _⟩
  exact noTable_of_sides (descriptorFront_start protocol line hline)
    (sides_of_avoids (hplain line hline)).1

/-- The entry of a command names its table, if it has attributes. -/
theorem filterMap_namedTable_commandRow (hwell : WellFormed protocol) {cmd : Command}
    (hcmd : cmd ∈ protocol.commands) :
    (CommandRow.ofCommand protocol.name cmd).lines.filterMap namedTable? =
      if cmd.hasAttributes then [tableName protocol.name cmd.name] else [] := by
  have hprotocol := hwell.protocol_name
  have hname := hwell.command_names cmd hcmd
  have hsettable : Settable (CommandRow.ofCommand protocol.name cmd).fields := by
    refine settable_commandRow (unbroken_commandId hprotocol hname) fun ref href => ?_
    obtain ⟨-, href⟩ := Option.ite_none_right_eq_some.mp href
    rw [← Option.some.inj href]
    exact spelled_ref hprotocol hname (unbroken_counts hprotocol hname).1
  rw [CommandRow.lines_eq, filterMap_namedTable_entryLines hsettable, CommandRow.fields,
    List.filterMap_cons_none (fieldTable_other _ (by decide)),
    List.filterMap_cons_none (fieldTable_other _ (by decide)), CommandRow.ofCommand]
  cases cmd.hasAttributes with
  | false => exact List.filterMap_cons_none (fieldTable_null _)
  | true => exact List.filterMap_cons_some (fieldTable_tableName (.inr rfl))

/-- A line that sets another field names no table. -/
theorem namedTable_other {name value line : String} (hname : Unbroken name)
    (hvalue : Unbroken value) (hother : name ≠ ".pSubAttDescArray" ∧ name ≠ ".pAttDescArray")
    (hline : line = name ++ " = " ++ value ++ ",") (level : Nat) :
    namedTable? (indent level line) = none := by
  rw [namedTable?, hline, field_indent hname hvalue, Option.bind_some, fieldTable_other _ hother]

/-- The line that opens the table of commands names no table. -/
theorem namedTable_opening (protocol : String) :
    namedTable? (opening ("static const lcsf_command_desc_t LCSF_" ++ protocol ++
      "_CmdDescArray[" ++ commandNumber protocol ++ "] =")) = none := by
  have hsecond := sides_of_second (by decide : Unbroken "static") (by decide : Unbroken "const")
    (by decide) ("lcsf_command_desc_t LCSF_" ++ protocol ++ "_CmdDescArray[" ++
      commandNumber protocol ++ opening "] =")
  refine namedTable_of_sides ((congrArg sides? ?_).trans hsecond)
  simp [opening, ← String.toList_inj]

/-- The lines behind the table of commands name no table of attributes. -/
theorem namedTable_ending {protocol : String} (hprotocol : IsName protocol) :
    ∀ line ∈ [closing ++ ";", "", "// --- Public Constants ---",
      opening ("const lcsf_protocol_desc_t LCSF_" ++ protocol ++ "_ProtDesc ="),
      indent 1 (".CmdNb = " ++ commandNumber protocol ++ ","),
      indent 1 (".pCmdDescArray = LCSF_" ++ protocol ++ "_CmdDescArray,"), closing ++ ";"],
      namedTable? line = none := by
  have hhead : namedTable? (opening ("const lcsf_protocol_desc_t LCSF_" ++ protocol ++
      "_ProtDesc =")) = none := by
    have hsecond := sides_of_second (by decide : Unbroken "const")
      (by decide : Unbroken "lcsf_protocol_desc_t") (by decide)
      ("LCSF_" ++ protocol ++ opening "_ProtDesc =")
    refine namedTable_of_sides ((congrArg sides? ?_).trans hsecond)
    simp [opening, ← String.toList_inj]
  have hcount : namedTable? (indent 1 (".CmdNb = " ++ commandNumber protocol ++ ",")) = none :=
    namedTable_other (by decide : Unbroken ".CmdNb")
      ((by decide : Unbroken "LCSF_").append hprotocol.isWord.upper.blank_not_mem |>.append
        (by decide : ' ' ∉ "_CMD_NB".toList)) (by decide)
      (by simp [commandNumber]) 1
  have htable : namedTable? (indent 1 (".pCmdDescArray = LCSF_" ++ protocol ++
      "_CmdDescArray,")) = none :=
    namedTable_other (by decide : Unbroken ".pCmdDescArray")
      ((by decide : Unbroken "LCSF_").append hprotocol.isWord.blank_not_mem |>.append
        (by decide : ' ' ∉ "_CmdDescArray".toList)) (by decide)
      (by simp [← String.toList_inj]) 1
  have hfixed {line : String} (h : sides? line = none) := namedTable_of_sides h
  simp only [List.forall_mem_cons]
  exact ⟨hfixed (by decide), hfixed (by decide), hfixed (by decide), hhead, hcount, htable,
    hfixed (by decide), List.forall_mem_nil _⟩

/-- Lines behind the tables name the tables of the commands. -/
theorem namedTables_descriptorBack (hwell : WellFormed protocol) :
    (descriptorBack (Descriptor.build (Prepared.ofProtocol protocol))).flatMap namedTables =
      protocol.carriers.map fun cmd => tableName protocol.name cmd.name := by
  have hfront := List.filterMap_eq_nil_iff.mpr (List.forall_mem_cons.mpr
    ⟨namedTable_of_sides (by decide : sides? "// Command array description" = none),
      List.forall_mem_singleton.mpr (namedTable_opening protocol.name)⟩)
  have hrows : (protocol.commands.map (CommandRow.ofCommand protocol.name)).flatMap
      (fun row => row.lines.filterMap namedTable?) =
        protocol.carriers.map fun cmd => tableName protocol.name cmd.name := by
    rw [List.flatMap_map]
    refine (List.flatMap_congr fun cmd hcmd => ?_).trans (flatMap_kept Command.hasAttributes _ _)
    exact filterMap_namedTable_commandRow hwell hcmd
  have hback := List.filterMap_eq_nil_iff.mpr (namedTable_ending hwell.protocol_name)
  rw [flatMap_namedTables, descriptorBack, List.filterMap_append, List.filterMap_append,
    List.filterMap_flatMap]
  refine (congrArg₂ _ (congrArg₂ _ hfront hrows) hback).trans ?_
  rw [List.nil_append, List.append_nil]

/-- What is left of the tables of a section once its title is set apart. -/
theorem tableLines_eq (title : String) (tables : List AttributeTable) :
    Descriptor.tableLines title tables =
      (if tables.isEmpty then [] else [title]) ++ tables.flatMap AttributeTable.lines := by
  rw [Descriptor.tableLines]
  split
  next hempty =>
    rw [List.isEmpty_iff.mp hempty]
    rfl
  next => rfl

theorem noTable_title {title : String} (h : NoTable title) (tables : List AttributeTable) :
    ∀ line ∈ if tables.isEmpty then [] else [title], NoTable line := by
  split
  · exact List.forall_mem_nil _
  · exact List.forall_mem_singleton.mpr h

/-- The lines of a descriptor, with the titles of its sections set apart. -/
theorem lines_tables (descriptor : Descriptor) : ∃ front first second,
    descriptor.lines = front ++ (first ++ (descriptor.nested.flatMap AttributeTable.lines ++
      (second ++ (descriptor.tables.flatMap AttributeTable.lines ++ descriptorBack descriptor)))) ∧
    (IsName descriptor.protocol → ∀ line ∈ front, NoTable line) ∧
    (∀ line ∈ first, NoTable line) ∧ ∀ line ∈ second, NoTable line := by
  have hfirst : NoTable "// Sub-attribute array descriptions" :=
    noTable_of_sides (by decide) (by decide)
  have hsecond : NoTable "// Attribute array descriptions" :=
    noTable_of_sides (by decide) (by decide)
  refine ⟨_, _, _, ?_, fun hprotocol => noTable_descriptorFront hprotocol,
    noTable_title hfirst descriptor.nested, noTable_title hsecond descriptor.tables⟩
  rw [lines_descriptor, tableSections, tableLines_eq, tableLines_eq]
  simp only [List.append_assoc]

/-- The tables of a descriptor are defined by their lines. -/
theorem definedTables_lines (hwell : WellFormed protocol) :
    ∀ table ∈ (Descriptor.build (Prepared.ofProtocol protocol)).nested ++
        (Descriptor.build (Prepared.ofProtocol protocol)).tables,
      table.lines.flatMap definedTables = [table.ref.table] := by
  rw [tables_build hwell]
  exact List.forall_mem_map.mpr fun group hgroup =>
    (tables_writtenTable hwell (mem_definedGroups.mp hgroup)).1

/-- The tables that a descriptor names: those of groups right below others, in the tables of
groups, and those of the commands. -/
theorem namedTables_descriptor (hwell : WellFormed protocol) :
    (Descriptor.build (Prepared.ofProtocol protocol)).lines.flatMap namedTables =
      (definedGroups protocol).flatMap
          (Group.namesBelow fun group => tableName protocol.name group.parent) ++
        protocol.carriers.map fun cmd => tableName protocol.name cmd.name := by
  obtain ⟨front, first, second, hlines, hfront, hfirst, hsecond⟩ :=
    lines_tables (Descriptor.build (Prepared.ofProtocol protocol))
  have hidle {lines : List String} (h : ∀ line ∈ lines, NoTable line) :
      lines.flatMap namedTables = [] :=
    List.flatMap_eq_nil_iff.mpr fun line hline => (h line hline).2
  have hgroups : ((definedGroups protocol).map (writtenTable protocol.name)).flatMap
      (fun table => table.lines.flatMap namedTables) = (definedGroups protocol).flatMap
        (Group.namesBelow fun group => tableName protocol.name group.parent) := by
    rw [List.flatMap_map]
    exact List.flatMap_congr fun group hgroup =>
      (tables_writtenTable hwell (mem_definedGroups.mp hgroup)).2
  rw [← tables_build hwell, List.flatMap_append] at hgroups
  rw [hlines, ← hgroups]
  simp only [List.flatMap_append, hidle (hfront hwell.protocol_name), hidle hfirst, hidle hsecond,
    List.nil_append, List.flatMap_assoc, namedTables_descriptorBack hwell, List.append_assoc]

/-- A descriptor names tables that are defined in front. -/
theorem usesEarlier_descriptor (hwell : WellFormed protocol) :
    UsesEarlier definedTables namedTables []
      (Descriptor.build (Prepared.ofProtocol protocol)).lines := by
  let descriptor := Descriptor.build (Prepared.ofProtocol protocol)
  obtain ⟨front, first, second, hlines, hfront, hfirst, hsecond⟩ := lines_tables descriptor
  have hdefines := definedTables_lines hwell
  have htables : UsesEarlier (fun table => [table.ref.table])
      (fun table => table.lines.flatMap namedTables) []
      (descriptor.nested ++ descriptor.tables) := by
    rw [tables_build hwell]
    exact usesEarlier_map (fun _ _ => rfl)
      (fun group hgroup => (tables_writtenTable hwell (mem_definedGroups.mp hgroup)).2)
      (usesEarlier_definedGroups protocol fun group => tableName protocol.name group.parent)
  have htableLines := usesEarlier_flatMap hdefines (fun _ _ => rfl) htables
  rw [List.flatMap_append, usesEarlier_append] at htableLines
  have hback : ∀ line ∈ descriptorBack descriptor, ∀ used ∈ namedTables line,
      used ∈ (descriptor.tables.flatMap AttributeTable.lines).flatMap definedTables := by
    intro line hline used hused
    have hnamed := List.mem_flatMap_of_mem hline hused
    rw [namedTables_descriptorBack hwell, List.mem_map] at hnamed
    obtain ⟨cmd, hcmd, rfl⟩ := hnamed
    have htable : AttributeTable.ofCommand protocol.name cmd ∈ descriptor.tables :=
      List.mem_map_of_mem hcmd
    rw [List.flatMap_assoc]
    refine List.mem_flatMap_of_mem htable ?_
    rw [hdefines _ (List.mem_append_right _ htable)]
    exact List.mem_singleton_self _
  rw [hlines, usesEarlier_idle (hfront hwell.protocol_name), usesEarlier_idle hfirst,
    usesEarlier_append, usesEarlier_idle hsecond, usesEarlier_append]
  exact ⟨htableLines.1, htableLines.2, usesEarlier_of_defined fun line hline used hused =>
    List.mem_append_right _ (hback line hline used hused)⟩

/-! ## All definitions -/

/-- Complex attributes of a protocol in an order. -/
structure ListsComplex (protocol : Protocol) (order : List Position) : Prop where
  /-- Every complex attribute is listed once. -/
  perm : order.Perm (protocol.positions.filter (·.node.isComplex))
  nodup : (order.map (·.node.name)).Nodup
  /-- It is listed behind all complex attributes below it. -/
  childrenFirst : ChildrenFirst order

/-- A main header defines a struct for every complex attribute in their order, then one for every
command with attributes, then the union, and each in front of its uses. -/
structure TypesInOrder (protocol : Protocol) (order : List Position) (lines : List String) :
    Prop where
  types : (typedefs (typeLines lines)).map (fun type => (type.kind, type.name, type.uses)) =
    (order.map Position.below ++ protocol.carriers.map Command.group).map (fun group =>
        ("struct", group.typeName protocol.name,
          group.namesBelow (Group.typeName protocol.name))) ++
      [("union", Naming.payloadUnion protocol.name,
        protocol.carriers.map (·.group.typeName protocol.name))]
  earlier : UsesEarlier (fun type => [type.name]) Typedef.uses [] (typedefs (typeLines lines))

/-- A descriptor defines a table for every complex attribute in their order, then one for every
command with attributes, and each in front of the lines that name it. -/
structure TablesInOrder (protocol : Protocol) (order : List Position) (lines : List String) :
    Prop where
  tables : attributeTables lines =
    (order.map Position.below ++ protocol.carriers.map Command.group).map
      (Group.table protocol.name)
  defined : lines.flatMap definedTables = (attributeTables lines).map (·.name)
  nodup : (lines.flatMap definedTables).Nodup
  named : lines.flatMap namedTables =
    (order.map Position.below ++ protocol.carriers.map Command.group).flatMap
        (Group.namesBelow fun group => tableName protocol.name group.parent) ++
      protocol.carriers.map fun cmd => tableName protocol.name cmd.name
  earlier : UsesEarlier definedTables namedTables [] lines

/-- Names of complex attributes differ. -/
theorem nodup_complexOrder (hwell : WellFormed protocol) :
    (protocol.complexOrder.map (·.node.name)).Nodup := by
  rw [Protocol.complexOrder, List.map_reverse, List.nodup_reverse]
  apply List.Nodup.of_map Text.upper
  rw [List.map_map]
  exact nodup_upper_complex hwell

/-- Structs and tables are defined in front of their uses, those of a complex attribute behind
those of all complex attributes below it. -/
theorem definitions_precede_uses {prepared : Prepared} (hprepare : prepare protocol = .ok prepared)
    (code : Option Recovery.RecoveredCode) : ∃ order, ListsComplex protocol order ∧
      TypesInOrder protocol order (MainHeader.build prepared code).lines ∧
      TablesInOrder protocol order (Descriptor.build prepared).lines := by
  obtain ⟨rfl, hwell⟩ := wellFormed_of_prepare hprepare
  refine ⟨protocol.complexOrder, ?_, ?_, ?_⟩
  · constructor
    case perm => exact List.reverse_perm _
    case nodup => exact nodup_complexOrder hwell
    case childrenFirst => exact childrenFirst_complexOrder protocol
  · constructor
    case types =>
      rw [← definedGroups_eq, typedefs_build hwell, Protocol.typedefs, Protocol.records,
        List.map_append, List.map_append, List.map_map, List.map_map]
      refine congrArg₂ _ (List.map_congr_left fun group hgroup => ?_) ?_
      · exact congrArg (fun uses => ("struct", group.typeName protocol.name, uses))
          (uses_group hwell (mem_definedGroups.mp hgroup))
      · exact congrArg (fun uses => [("union", Naming.payloadUnion protocol.name, uses)])
          (uses_union hwell)
    case earlier =>
      rw [typedefs_build hwell]
      exact usesEarlier_typedefs hwell
  · constructor
    case tables =>
      rw [← definedGroups_eq]
      exact attributeTables_build hwell
    case defined => rw [flatMap_definedTables, filterMap_definedTable]
    case nodup =>
      rw [flatMap_definedTables, filterMap_definedTable, attributeTables_build hwell,
        List.map_map]
      exact nodup_tableNames hwell
    case named =>
      rw [← definedGroups_eq]
      exact namedTables_descriptor hwell
    case earlier => exact usesEarlier_descriptor hwell

theorem definitions_precede_uses_meter :
    prepare meter = .ok (Prepared.ofProtocol meter) ∧
    ∃ order, ListsComplex meter order ∧
      TypesInOrder meter order (MainHeader.build (Prepared.ofProtocol meter) none).lines ∧
      TablesInOrder meter order (Descriptor.build (Prepared.ofProtocol meter)).lines :=
  ⟨prepare_meter, definitions_precede_uses prepare_meter none⟩

end Firmware
end CommandSet
