import CommandSet.Proofs.Typed.References

/-!
# Lines that refer

Each part of a bridge module is written for groups of attributes, and its lines refer to the
items of these groups and of the groups below them.

Main definition:

- {lit}`Supplies`: the names that the module of a role needs.

Main results:

- Theorems {lit}`resolves_enum`, {lit}`resolves_payload`, {lit}`resolves_descriptor`: where the
  names are supplied, the lines that stand once in a module refer to them.
- Theorems {lit}`resolves_struct`, {lit}`resolves_table`: so do those of the payload struct and
  of the constant of a group.
-/

namespace CommandSet
namespace Typed

/-! ## Parts of a module -/

/-- The names that the bridge module of a role needs. -/
structure Supplies (names : ModuleNames) (protocol : Protocol) (role : Role) : Prop where
  decoders : ∀ group ∈ decodedGroups protocol role,
    (Decoder.name group.stem).toList ∈ names.functions
  encoders : ∀ group ∈ encodedGroups protocol role,
    (Encoder.name group.stem).toList ∈ names.functions
  constants : ∀ group ∈ protocol.groups,
    (descriptorConstant group.stem).toList ∈ names.constants
  structs : ∀ group ∈ protocol.groups, group.payloadType.toList ∈ names.structs
  decoding : ∀ group ∈ decodedGroups protocol role, ∀ att ∈ group.members,
    usesVariableLength att = true → "vle_decode".toList ∈ names.imports
  encoding : ∀ group ∈ encodedGroups protocol role, ∀ att ∈ group.members,
    usesVariableLength att = true → "vle_encode".toList ∈ names.imports

section Parts

variable {names : ModuleNames} {protocol : Protocol} {role : Role}

/-- The lines of the command enumeration. -/
theorem resolves_enum (hwell : WellFormed protocol) :
    ∀ line ∈ CommandVariant.enumLines (protocol.commands.map CommandVariant.ofCommand),
      Resolves names line := by
  have hdeclared {variant : String} (hvariant : Fits names (false, false) variant.toList) :
      Resolves names (variant ++ ",") :=
    Pieces.resolves (.append (.word hvariant) (.fixed rfl)) rfl
  have hid {variant id : String} (hvariant : Fits names (false, false) variant.toList)
      (hid : Fits names (false, true) id.toList) :
      Resolves names ("CmdEnum::" ++ variant ++ " => " ++ id ++ ",") :=
    Pieces.resolves (.append (.append (.append (.append (.fixed rfl) (.word hvariant)) (.fixed rfl))
      (.word hid)) (.fixed rfl)) rfl
  have hfrom {id variant : String} (hid : Fits names (false, false) id.toList)
      (hvariant : Fits names (false, false) variant.toList) :
      Resolves names (id ++ " => Some(CmdEnum::" ++ variant ++ "),") :=
    Pieces.resolves (.append (.append (.append (.word hid) (.fixed rfl)) (.word hvariant))
      (.fixed rfl)) rfl
  have hvariant (cmd : Command) (hcmd : cmd ∈ protocol.commands) {called : Bool} :
      Fits names (called, false) (capitalized cmd.name).toList :=
    fits_variant (hwell.command_names cmd hcmd)
  simp only [CommandVariant.enumLines, List.forall_mem_append, List.forall_mem_map,
    List.forall_mem_cons]
  refine ⟨⟨⟨⟨⟨⟨⟨resolves_comment _, resolves_fixed rfl, resolves_opening rfl,
    List.forall_mem_nil _⟩, fun cmd hcmd => resolves_indent (hdeclared (hvariant cmd hcmd))⟩,
    resolves_closing, resolves_blank, resolves_opening rfl, resolves_indent (resolves_comment _),
    resolves_indent (resolves_opening rfl), resolves_indent (resolves_opening rfl),
    List.forall_mem_nil _⟩,
    fun cmd hcmd => resolves_indent (hid (hvariant cmd hcmd) (fits_hexWord _))⟩,
    resolves_indent resolves_closing, resolves_indent resolves_closing, resolves_blank,
    resolves_indent (resolves_opening rfl), resolves_indent (resolves_opening rfl),
    List.forall_mem_nil _⟩,
    fun cmd hcmd => resolves_indent (hfrom (fits_hexWord _) (hvariant cmd hcmd))⟩,
    resolves_indent (resolves_fixed rfl), resolves_indent resolves_closing,
    resolves_indent resolves_closing, resolves_closing, resolves_blank, List.forall_mem_nil _⟩

/-- The fields of a payload struct. -/
theorem resolves_fields (hsupplies : Supplies names protocol role) (hwell : WellFormed protocol)
    {group : Group} (hgroup : group ∈ protocol.groups) :
    ∀ field ∈ group.members.filterMap (fieldOf group.parent), Resolves names field.line := by
  have hnamed := named_of_mem_groups hwell hgroup
  have hstart {field : String} (hfield : Fits names (false, true) field.toList) :
      Pieces names ("pub " ++ field ++ ": ") _ _ :=
    .append (.append (.fixed rfl) (.word hfield)) (.fixed rfl)
  have hplain {field type : String} (hfield : Fits names (false, true) field.toList)
      (htype : Fits names (false, true) type.toList) (optional : Bool) :
      Resolves names ("pub " ++ field ++ ": " ++
        (if optional then "Option<" ++ type ++ ">" else type) ++ ",") := by
    cases optional with
    | true =>
        exact Pieces.resolves (.append (.append (hstart hfield)
          (.append (.append (.fixed rfl) (.word htype)) (.fixed rfl))) (.fixed rfl)) rfl
    | false =>
        exact Pieces.resolves (.append (.append (hstart hfield) (.word htype)) (.fixed rfl)) rfl
  have hbytes {field : String} (hfield : Fits names (false, true) field.toList)
      (optional : Bool) : Resolves names ("pub " ++ field ++ ": " ++
        (if optional then "Option<" ++ "Vec<u8>" ++ ">" else "Vec<u8>") ++ ",") := by
    cases optional with
    | true =>
        exact Pieces.resolves (.append (.append (hstart hfield)
          (.append (.append (.fixed rfl) (.fixed rfl)) (.fixed rfl))) (.fixed rfl)) rfl
    | false =>
        exact Pieces.resolves (.append (.append (hstart hfield) (.fixed rfl)) (.fixed rfl)) rfl
  intro field hfield
  obtain ⟨att, hatt, hbuild⟩ := List.mem_filterMap.mp hfield
  obtain ⟨storage, hstorage, rfl⟩ := Option.map_eq_some_iff.mp hbuild
  have hname : Fits names (false, true) (snakeCase att.name).toList :=
    fits_field (hnamed.members att hatt)
  cases storage with
  | scalar scalar =>
      refine hplain hname ?_ att.optional
      cases scalar <;> exact fits_fixed rfl
  | bytes => exact hbytes hname att.optional
  | text => exact hplain hname (fits_fixed rfl) att.optional
  | nested =>
      have hbelow : group.below att ∈ protocol.groups :=
        below_mem_flatMap_groups hgroup hatt (isComplex_of_storage hstorage)
      have htype : Fits names (false, true) (group.below att).payloadType.toList :=
        fits_payloadType (named_of_mem_groups hwell hbelow) (hsupplies.structs _ hbelow)
      rw [Group.payloadType_below hnamed.ancestors_ne_nil] at htype
      exact hplain hname htype att.optional

/-- The lines of a payload struct. -/
theorem resolves_struct (hsupplies : Supplies names protocol role) (hwell : WellFormed protocol)
    {group : Group} (hgroup : group ∈ protocol.groups) :
    ∀ line ∈ (PayloadStruct.ofGroup group).lines, Resolves names line := by
  have hhead {type : String} (htype : Fits names (false, true) type.toList) :
      Resolves names (opening ("pub struct " ++ type)) :=
    Pieces.resolves (.append (.append (.fixed rfl) (.word htype)) (.fixed rfl)) rfl
  have htype : Fits names (false, true) group.payloadType.toList :=
    fits_payloadType (named_of_mem_groups hwell hgroup) (hsupplies.structs _ hgroup)
  simp only [PayloadStruct.lines, List.forall_mem_append, List.forall_mem_map, List.forall_mem_cons]
  exact ⟨⟨⟨resolves_fixed rfl, hhead htype, List.forall_mem_nil _⟩,
    fun field hfield => resolves_indent (resolves_fields hsupplies hwell hgroup field hfield)⟩,
    resolves_closing, resolves_blank, List.forall_mem_nil _⟩

/-- The lines of the type of all payloads. -/
theorem resolves_payload (hsupplies : Supplies names protocol role) (hwell : WellFormed protocol) :
    ∀ line ∈ Bridge.payloadLines (protocol.carriers.map fun cmd =>
      (capitalized cmd.name, Naming.typedCommandPayload cmd.name)), Resolves names line := by
  have hvariant {variant type : String} (hvariant : Fits names (true, false) variant.toList)
      (htype : Fits names (false, true) type.toList) :
      Resolves names (variant ++ "(" ++ type ++ "),") :=
    Pieces.resolves (.append (.append (.append (.word hvariant) (.fixed rfl)) (.word htype))
      (.fixed rfl)) rfl
  have hempty : Resolves names (PayloadVariant.empty.name ++ ",") :=
    Pieces.resolves (.append (.fixed rfl) (.fixed rfl)) rfl
  simp only [Bridge.payloadLines, List.forall_mem_append, List.forall_mem_map, List.forall_mem_cons]
  refine ⟨⟨⟨resolves_comment _, resolves_fixed rfl, resolves_opening rfl, resolves_indent hempty,
    List.forall_mem_nil _⟩, fun cmd hcmd => resolves_indent ?_⟩, resolves_closing, resolves_blank,
    List.forall_mem_nil _⟩
  have hgroup := group_mem_groups hcmd
  have htype : Fits names (false, true) cmd.group.payloadType.toList :=
    fits_payloadType (named_of_mem_groups hwell hgroup) (hsupplies.structs _ hgroup)
  rw [Command.payloadType_group] at htype
  exact hvariant (fits_variant (hwell.command_names cmd (List.mem_of_mem_filter hcmd))) htype

/-- The lines of a constant that describes attributes. -/
theorem resolves_table (hsupplies : Supplies names protocol role) (hwell : WellFormed protocol)
    {group : Group} (hgroup : group ∈ protocol.groups) :
    ∀ line ∈ (AttributeTable.ofGroup group).lines, Resolves names line := by
  have hhead {constant : String} (hconstant : Fits names (false, true) constant.toList) :
      Resolves names ("const " ++ constant ++ ": &[LcsfAttDesc] = &[") :=
    Pieces.resolves (.append (.append (.fixed rfl) (.word hconstant)) (.fixed rfl)) rfl
  have hoptional (optional : Bool) :
      Resolves names ("is_optional: " ++ (if optional then "true" else "false") ++ ",") := by
    cases optional <;>
      exact Pieces.resolves (.append (.append (.fixed rfl) (.fixed rfl)) (.fixed rfl)) rfl
  have htype {type : String} (htype : Fits names (false, false) type.toList) :
      Resolves names ("data_type: LcsfDataType::" ++ type ++ ",") :=
    Pieces.resolves (.append (.append (.fixed rfl) (.word htype)) (.fixed rfl)) rfl
  have hid {id : String} (hid : Fits names (false, true) id.toList) :
      Resolves names ("att_id: " ++ id ++ ",") :=
    Pieces.resolves (.append (.append (.fixed rfl) (.word hid)) (.fixed rfl)) rfl
  have hnone : Resolves names ("subatt_desc_arr: " ++ "&[]" ++ ",") :=
    Pieces.resolves (.append (.append (.fixed rfl) (.fixed rfl)) (.fixed rfl)) rfl
  have hsome {constant : String} (hconstant : Fits names (false, true) constant.toList) :
      Resolves names ("subatt_desc_arr: " ++ constant ++ ",") :=
    Pieces.resolves (.append (.append (.fixed rfl) (.word hconstant)) (.fixed rfl)) rfl
  have hnamed := named_of_mem_groups hwell hgroup
  have hconstant {other : Group} (hother : other ∈ protocol.groups) :
      Fits names (false, true) (descriptorConstant other.stem).toList :=
    fits_descriptorConstant (named_of_mem_groups hwell hother) (hsupplies.constants other hother)
  simp only [AttributeTable.lines, List.forall_mem_append, List.forall_mem_cons,
    List.forall_mem_flatMap, AttributeTable.ofGroup, List.forall_mem_map, AttributeRow.lines,
    AttributeRow.ofAttribute]
  refine ⟨⟨⟨hhead (hconstant hgroup), List.forall_mem_nil _⟩, fun att hatt =>
    ⟨resolves_indent (resolves_opening rfl), resolves_indent (hoptional att.optional),
      resolves_indent (htype ?_), resolves_indent (hid (fits_hexWord _)), resolves_indent ?_,
      resolves_indent ?_, List.forall_mem_nil _⟩⟩, resolves_fixed rfl, resolves_blank,
    List.forall_mem_nil _⟩
  · exact fits_keyword att.dataType
  · split
    next hcomplex =>
      have hbelow : group.below att ∈ protocol.groups :=
        below_mem_flatMap_groups hgroup hatt (Bool.and_eq_true_iff.mp hcomplex).1
      have hfits := hconstant hbelow
      rw [Group.stem_below hnamed.ancestors_ne_nil] at hfits
      exact hsome hfits
    next => exact hnone
  · exact resolves_closing_append rfl

/-- The row of a command in the protocol's constant. -/
theorem resolves_row (hsupplies : Supplies names protocol role) (hwell : WellFormed protocol)
    {cmd : Command} (hcmd : cmd ∈ protocol.commands) :
    Resolves names (CommandRow.ofCommand cmd).line := by
  have hnone {id : String} (hid : Fits names (false, true) id.toList) :
      Resolves names (r"LcsfCmdDesc { cmd_id: " ++ id ++ ", att_desc_arr: " ++ "&[]" ++
        r" },") :=
    Pieces.resolves (.append (.append (.append (.append (.fixed rfl) (.word hid)) (.fixed rfl))
      (.fixed rfl)) (.fixed rfl)) rfl
  have hsome {id constant : String} (hid : Fits names (false, true) id.toList)
      (hconstant : Fits names (false, true) constant.toList) :
      Resolves names (r"LcsfCmdDesc { cmd_id: " ++ id ++ ", att_desc_arr: " ++ constant ++
        r" },") :=
    Pieces.resolves (.append (.append (.append (.append (.fixed rfl) (.word hid)) (.fixed rfl))
      (.word hconstant)) (.fixed rfl)) rfl
  have hline : (CommandRow.ofCommand cmd).line = r"LcsfCmdDesc { cmd_id: " ++
      Text.hexWord cmd.id.toUInt16 ++ ", att_desc_arr: " ++ tableText (if cmd.hasAttributes then
        some (descriptorConstant (commandStem cmd.name)) else none) ++ r" }," := rfl
  rw [hline]
  split
  next hcarrier =>
    have hgroup := group_mem_groups (List.mem_filter.mpr ⟨hcmd, hcarrier⟩)
    have hconstant : Fits names (false, true) (descriptorConstant cmd.group.stem).toList :=
      fits_descriptorConstant (named_of_mem_groups hwell hgroup) (hsupplies.constants _ hgroup)
    rw [Command.stem_group] at hconstant
    exact hsome (fits_hexWord _) hconstant
  next => exact hnone (fits_hexWord _)

/-- The lines of the protocol's constant. -/
theorem resolves_descriptor (hsupplies : Supplies names protocol role)
    (hwell : WellFormed protocol) :
    ∀ line ∈ Bridge.descriptorLines protocol.name (protocol.commands.map CommandRow.ofCommand),
      Resolves names line := by
  have hhead {constant : String} (hconstant : Fits names (false, true) constant.toList) :
      Resolves names (opening ("pub const " ++ constant ++ ": LcsfProtDesc = LcsfProtDesc")) :=
    Pieces.resolves (.append (.append (.append (.fixed rfl) (.word hconstant)) (.fixed rfl))
      (.fixed rfl)) rfl
  have hsplit (name : String) :
      "pub const LCSF_" ++ name ++ "_PROT_DESC: LcsfProtDesc = LcsfProtDesc" =
        "pub const " ++ ("LCSF_" ++ name ++ "_PROT_DESC") ++ ": LcsfProtDesc = LcsfProtDesc" := by
    simp only [← String.toList_inj, String.toList_append, List.append_assoc]
    repeat rw [String.toList_ofList]
    rfl
  have hname : Fits names (false, true)
      ("LCSF_" ++ Text.upper protocol.name ++ "_PROT_DESC").toList :=
    fits_upper hwell.protocol_name.isWord (by decide)
  rw [Bridge.descriptorLines, List.forall_mem_append, List.forall_mem_append, List.forall_mem_map,
    List.forall_mem_map, hsplit]
  refine ⟨⟨?front, fun cmd hcmd => resolves_indent (resolves_row hsupplies hwell hcmd)⟩, ?back⟩
  case front =>
    exact List.forall_mem_cons.mpr ⟨resolves_comment _, List.forall_mem_cons.mpr ⟨hhead hname,
      List.forall_mem_singleton.mpr (resolves_indent (resolves_fixed rfl))⟩⟩
  case back =>
    exact List.forall_mem_cons.mpr ⟨resolves_indent (resolves_fixed rfl),
      List.forall_mem_cons.mpr
        ⟨resolves_closing_append rfl, List.forall_mem_singleton.mpr resolves_blank⟩⟩

end Parts

end Typed
end CommandSet
