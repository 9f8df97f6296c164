import CommandSet.Proofs.Firmware.CommandTables
import CommandSet.Proofs.Typed.CommandArms

/-!
# Translation of command identifiers

A command is sent under its identifier and handled under its ordinal.  The tables that
translate between the two, in both languages, list the commands in one order and are
inverse to each other, because identifiers are distinct and are written in full.

Main definitions:

- {lit}`valueOf?`: the value of a constant.
- {lit}`TranslatesCommands`: the tables of all files agree on the commands.

Main result:

- Theorem {lit}`translates_commands`: they do for every protocol that code is generated
  from.
-/

namespace CommandSet

open Firmware Typed

/-! ## Lookup -/

/-- The value of the first constant with a name. -/
def valueOf? (constants : List (String × Int)) (name : String) : Option Int :=
  (constants.find? (·.1 == name)).map (·.2)

section Lookup

variable {α β κ : Type} [DecidableEq κ] {key : α → κ} {entries : List α} {arm : α → β}
  {accepts : β → Bool} {k : κ}

/-- Where keys are distinct, each finds its own arm. -/
theorem find?_arm (hkeys : (entries.map key).Nodup)
    (haccepts : ∀ entry ∈ entries, accepts (arm entry) = (key entry == k)) {entry : α}
    (h : entry ∈ entries) (hk : key entry = k) (others : List β) :
    (entries.map arm ++ others).find? accepts = some (arm entry) := by
  obtain ⟨front, back, rfl⟩ := List.append_of_mem h
  rw [List.map_append, List.map_cons, List.nodup_append] at hkeys
  refine List.find?_eq_some_iff_append.mpr
    ⟨by simp [haccepts entry h, hk], front.map arm, back.map arm ++ others, by simp, ?_⟩
  refine List.forall_mem_map.mpr fun other hother => ?_
  have hne := hkeys.2.2 _ (List.mem_map_of_mem hother) _ List.mem_cons_self
  rw [haccepts other (List.mem_append_left _ hother), ← hk, beq_false_of_ne hne, Bool.not_false]

/-- Other keys find what stands behind the table. -/
theorem find?_other (haccepts : ∀ entry ∈ entries, accepts (arm entry) = (key entry == k))
    (hk : k ∉ entries.map key) (others : List β) :
    (entries.map arm ++ others).find? accepts = others.find? accepts := by
  have hnone : (entries.map arm).find? accepts = none := by
    rw [List.find?_eq_none, List.forall_mem_map]
    intro entry hentry
    rw [haccepts entry hentry, beq_iff_eq]
    exact fun heq => hk (heq ▸ List.mem_map_of_mem hentry)
  rw [List.find?_append, hnone, Option.none_or]

end Lookup

/-- Where names are distinct, each has the value it was given. -/
theorem valueOf_map {α : Type} {name : α → String} {value : α → Int} {entries : List α}
    (hnames : (entries.map name).Nodup) {entry : α} (h : entry ∈ entries) :
    valueOf? (entries.map fun entry => (name entry, value entry)) (name entry) =
      some (value entry) := by
  rw [valueOf?, ← List.append_nil (entries.map _), find?_arm hnames (fun _ _ => rfl) h rfl]
  rfl

section Selection

variable {α : Type} {entries : List α} {number : α → Int} {label result : α → String}
  {other : String}

/-- The arm of a switch whose label has the value of a number gives its result. -/
theorem switchResult_of_mem {value? : String → Option Int}
    (hvalue : ∀ entry ∈ entries, value? (label entry) = some (number entry))
    (hnumbers : (entries.map number).Nodup) {entry : α} (h : entry ∈ entries) :
    switchResult? value? (entries.map (fun entry => ⟨some (label entry), result entry⟩) ++
      [⟨none, other⟩]) (number entry) = some (result entry) := by
  rw [switchResult?, find?_arm hnumbers _ h rfl]
  intro entry' hentry'
  simp [hvalue entry' hentry']

theorem switchResult_of_not_mem {value? : String → Option Int}
    (hvalue : ∀ entry ∈ entries, value? (label entry) = some (number entry)) {n : Int}
    (h : n ∉ entries.map number) :
    switchResult? value? (entries.map (fun entry => ⟨some (label entry), result entry⟩) ++
      [⟨none, other⟩]) n = some other := by
  have hlabelled : (entries.map fun entry => (⟨some (label entry), result entry⟩ : SwitchArm)).find?
      (·.label.isNone) = none := by
    simp
  rw [switchResult?, find?_other _ h, List.find?_append, hlabelled]
  · rfl
  · intro entry hentry
    simp [hvalue entry hentry]

/-- The arm of a match whose literal has the value of a number gives its result. -/
theorem selected_of_mem (hvalue : ∀ entry ∈ entries,
      label entry ≠ "_" ∧ literalValue? (label entry).toList = some (number entry))
    (hnumbers : (entries.map number).Nodup) {entry : α} (h : entry ∈ entries) :
    selected? (entries.map (fun entry => (label entry, result entry)) ++ [("_", other)])
      (number entry) = some (result entry) := by
  rw [selected?, find?_arm hnumbers _ h rfl]
  · rfl
  · intro entry' hentry'
    simp [matchesNumber, hvalue entry' hentry']

theorem selected_of_not_mem (hvalue : ∀ entry ∈ entries,
      label entry ≠ "_" ∧ literalValue? (label entry).toList = some (number entry))
    {n : Int} (h : n ∉ entries.map number) :
    selected? (entries.map (fun entry => (label entry, result entry)) ++ [("_", other)]) n =
      some other := by
  rw [selected?, find?_other _ h]
  · simp [matchesNumber]
  · intro entry hentry
    simp [matchesNumber, hvalue entry hentry]

end Selection

/-! ## All tables -/

/-- The tables of commands in the files of a role. -/
structure CommandTables where
  /-- The enumerators of the main header. -/
  names : List String
  /-- The constants of the bridge header. -/
  constants : List (String × Int)
  /-- The table from ordinals to identifiers. -/
  table : List String
  /-- The rows of the descriptor. -/
  rows : List String
  /-- The switch from identifiers to ordinals. -/
  arms : List SwitchArm
  /-- The matches of the Rust bridge. -/
  idArms : List (String × String)
  fromIdArms : List (String × String)

namespace CommandTables

/-- The tables as the files have them. -/
def ofFiles (prepared : Prepared) (role : Role) (code : Option Recovery.RecoveredCode) :
    CommandTables :=
  let protocol := prepared.protocol.name
  { names := commandNames protocol (MainHeader.build prepared code).lines
    constants := commandIds protocol (BridgeHeader.build prepared).lines
    table := nameToId protocol (Firmware.Bridge.build prepared role).lines
    rows := rowIds protocol (Descriptor.build prepared).lines
    arms := idToName protocol (Firmware.Bridge.build prepared role).lines
    idArms := Typed.idArms (Typed.Bridge.build prepared role).lines
    fromIdArms := Typed.fromIdArms (Typed.Bridge.build prepared role).lines }

/-- The tables of a protocol, by its commands. -/
def ofCommands (protocol : Protocol) : CommandTables :=
  let idName := fun cmd : Command => Naming.commandId protocol.name cmd.name
  let ordinal := fun cmd : Command => Naming.commandOrdinal protocol.name cmd.name
  let literal := fun cmd : Command => Text.hexWord cmd.id.toUInt16
  let variant := fun cmd : Command => "CmdEnum::" ++ capitalized cmd.name
  { names := protocol.commands.map ordinal ++ [Naming.commandCount protocol.name]
    constants := protocol.commands.map fun cmd => (idName cmd, cmd.id.toInt)
    table := protocol.commands.map idName
    rows := protocol.commands.map idName
    arms := protocol.commands.map (fun cmd => ⟨some (idName cmd), ordinal cmd⟩) ++
      [⟨none, Naming.commandCount protocol.name⟩]
    idArms := protocol.commands.map fun cmd => (variant cmd, literal cmd)
    fromIdArms :=
      protocol.commands.map (fun cmd =>
        (literal cmd, "Some(CmdEnum::" ++ capitalized cmd.name ++ ")")) ++ [("_", "None")] }

/-- The value of a constant. -/
def value? (tables : CommandTables) : String → Option Int :=
  valueOf? tables.constants

end CommandTables

/-- The tables agree on the commands of a protocol: they list the identifiers in the order of
the commands, and what translates an identifier back is inverse to that. -/
structure TranslatesCommands (protocol : Protocol) (tables : CommandTables) : Prop where
  ids : (protocol.commands.map (·.id.toInt)).Nodup
  names : tables.names =
    protocol.commands.map (fun cmd => Naming.commandOrdinal protocol.name cmd.name) ++
      [Naming.commandCount protocol.name]
  ordinals : (protocol.commands.map fun cmd =>
    Naming.commandOrdinal protocol.name cmd.name).Nodup
  table : tables.table.map tables.value? = protocol.commands.map fun cmd => some cmd.id.toInt
  rows : tables.rows.map tables.value? = protocol.commands.map fun cmd => some cmd.id.toInt
  labels : (tables.arms.filterMap (·.label)).map tables.value? =
    protocol.commands.map fun cmd => some cmd.id.toInt
  /-- The identifier of a command leads to the enumerator in its place. -/
  ordinal : ∀ (k : Nat) (cmd : Command), protocol.commands[k]? = some cmd →
    switchResult? tables.value? tables.arms cmd.id.toInt = tables.names[k]?
  no_ordinal : ∀ n ∉ protocol.commands.map (·.id.toInt),
    switchResult? tables.value? tables.arms n = some (Naming.commandCount protocol.name)
  /-- Every variant has a literal for the identifier of its command. -/
  variants : tables.idArms.map (fun arm => (arm.1, literalValue? arm.2.toList)) =
    protocol.commands.map fun cmd => ("CmdEnum::" ++ capitalized cmd.name, some cmd.id.toInt)
  variants_nodup : (tables.idArms.map (·.1)).Nodup
  literals_nodup : (tables.idArms.map (·.2)).Nodup
  /-- The literal of a variant leads back to the variant. -/
  variant : ∀ arm ∈ tables.idArms,
    (literalValue? arm.2.toList).bind (selected? tables.fromIdArms) = some ("Some(" ++ arm.1 ++ ")")
  no_variant : ∀ n ∉ protocol.commands.map (·.id.toInt),
    selected? tables.fromIdArms n = some "None"

section WellFormed

variable {protocol : Protocol}

theorem nodup_upper_commands (hwell : WellFormed protocol) :
    (protocol.commands.map fun cmd => Text.upper cmd.name).Nodup := by
  have hscopes := hwell.scopes.upper
  rw [Protocol.scopeNames, List.map_append, List.map_map] at hscopes
  exact (List.nodup_append.mp hscopes).1

theorem nodup_capitalized_commands (hwell : WellFormed protocol) :
    (protocol.commands.map fun cmd => capitalized cmd.name).Nodup := by
  have hscopes := hwell.scopes.capitalized
  rw [Protocol.scopeNames, List.map_append, List.map_map] at hscopes
  exact (List.nodup_append.mp hscopes).1

/-- Distinct texts stay distinct behind the same text. -/
theorem nodup_map_append {α : Type} {entries : List α} {word : α → String} (front : String)
    (h : (entries.map word).Nodup) : (entries.map fun entry => front ++ word entry).Nodup := by
  have hmap := h.map fun first second => (String.append_right_inj front).mp
  rwa [List.map_map] at hmap

theorem nodup_ids (hwell : WellFormed protocol) :
    (protocol.commands.map (·.id.toInt)).Nodup := by
  have hmap := hwell.command_ids.map fun first second => Int16.toInt_inj.mp
  rwa [List.map_map] at hmap

/-- The literals of identifiers are read back. -/
theorem literalValue_id (hwell : WellFormed protocol) {cmd : Command}
    (hcmd : cmd ∈ protocol.commands) :
    literalValue? (Text.hexWord cmd.id.toUInt16).toList = some cmd.id.toInt := by
  have hnonneg := hwell.command_ids_nonneg cmd hcmd
  rw [literalValue_hexWord, toNat_toUInt16 hnonneg,
    Int.toNat_of_nonneg (Int16.le_iff_toInt_le.mp hnonneg)]

/-- The constants stand for the identifiers. -/
theorem value_commandId (hwell : WellFormed protocol) {cmd : Command}
    (hcmd : cmd ∈ protocol.commands) :
    (CommandTables.ofCommands protocol).value? (Naming.commandId protocol.name cmd.name) =
      some cmd.id.toInt := by
  have hnames := nodup_map_append ("LCSF_" ++ Text.upper protocol.name ++ "_CMD_ID_")
    (nodup_upper_commands hwell)
  exact valueOf_map hnames hcmd

/-- The files hold the tables of their protocol. -/
theorem ofFiles_eq_ofCommands (hwell : WellFormed protocol) (role : Role)
    (code : Option Recovery.RecoveredCode) :
    CommandTables.ofFiles (Prepared.ofProtocol protocol) role code =
      CommandTables.ofCommands protocol := by
  simp only [CommandTables.ofFiles, CommandTables.ofCommands, CommandTables.mk.injEq]
  exact ⟨commandNames_mainHeader hwell code, commandIds_bridgeHeader hwell,
    nameToId_bridge hwell role, rowIds_descriptor hwell, idToName_bridge hwell role,
    idArms_bridge hwell role, fromIdArms_bridge hwell role⟩

theorem translates_ofCommands (hwell : WellFormed protocol) :
    TranslatesCommands protocol (CommandTables.ofCommands protocol) := by
  have hvalue : ∀ cmd ∈ protocol.commands, (CommandTables.ofCommands protocol).value?
      (Naming.commandId protocol.name cmd.name) = some cmd.id.toInt :=
    fun cmd hcmd => value_commandId hwell hcmd
  have hliteral : ∀ cmd ∈ protocol.commands, Text.hexWord cmd.id.toUInt16 ≠ "_" ∧
      literalValue? (Text.hexWord cmd.id.toUInt16).toList = some cmd.id.toInt := by
    refine fun cmd hcmd => ⟨fun heq => ?_, literalValue_id hwell hcmd⟩
    have hnone := literalValue_id hwell hcmd
    rw [heq] at hnone
    exact nomatch hnone
  have hvalues : (protocol.commands.map fun cmd => Naming.commandId protocol.name cmd.name).map
      (CommandTables.ofCommands protocol).value? =
        protocol.commands.map fun cmd => some cmd.id.toInt := by
    rw [List.map_map]
    exact List.map_congr_left hvalue
  constructor
  case ids => exact nodup_ids hwell
  case names => rfl
  case ordinals => exact nodup_map_append _ (nodup_upper_commands hwell)
  case table => exact hvalues
  case rows => exact hvalues
  case labels =>
    rw [← hvalues]
    congr 1
    simp [CommandTables.ofCommands, List.filterMap_append, List.filterMap_map]
  case ordinal =>
    intro k cmd hcmd
    obtain ⟨hk, rfl⟩ := List.getElem?_eq_some_iff.mp hcmd
    refine (switchResult_of_mem hvalue (nodup_ids hwell) (List.mem_of_getElem? hcmd)).trans ?_
    simp [CommandTables.ofCommands, List.getElem?_append, hk]
  case no_ordinal => exact fun n hn => switchResult_of_not_mem hvalue hn
  case variants =>
    rw [CommandTables.ofCommands, List.map_map]
    exact List.map_congr_left fun cmd hcmd => congrArg (Prod.mk _) (hliteral cmd hcmd).2
  case variants_nodup =>
    rw [CommandTables.ofCommands, List.map_map]
    exact nodup_map_append "CmdEnum::" (nodup_capitalized_commands hwell)
  case literals_nodup =>
    have hread : (protocol.commands.map fun cmd => Text.hexWord cmd.id.toUInt16).map
        (fun literal => literalValue? literal.toList) =
          (protocol.commands.map (·.id.toInt)).map some := by
      rw [List.map_map, List.map_map]
      exact List.map_congr_left fun cmd hcmd => (hliteral cmd hcmd).2
    rw [CommandTables.ofCommands, List.map_map]
    have hvalues := (nodup_ids hwell).map fun _ _ => Option.some.inj
    rw [← hread] at hvalues
    exact hvalues.of_map _
  case variant =>
    refine List.forall_mem_map.mpr fun cmd hcmd => ?_
    rw [(hliteral cmd hcmd).2, Option.bind_some]
    refine (selected_of_mem hliteral (nodup_ids hwell) hcmd).trans ?_
    simp [← String.toList_inj]
  case no_variant => exact fun n hn => selected_of_not_mem hliteral hn

end WellFormed

/-- The tables of every protocol that code is generated from agree on its commands. -/
theorem translates_commands {protocol : Protocol} {prepared : Prepared}
    (hprepare : prepare protocol = .ok prepared) (role : Role)
    (code : Option Recovery.RecoveredCode) :
    TranslatesCommands protocol (CommandTables.ofFiles prepared role code) := by
  obtain ⟨rfl, hwell⟩ := wellFormed_of_prepare hprepare
  rw [ofFiles_eq_ofCommands hwell role code]
  exact translates_ofCommands hwell

theorem translates_commands_meter :
    prepare meter = .ok (Prepared.ofProtocol meter) ∧ ∀ role code,
      TranslatesCommands meter (CommandTables.ofFiles (Prepared.ofProtocol meter) role code) :=
  ⟨prepare_meter, translates_commands prepare_meter⟩

end CommandSet
