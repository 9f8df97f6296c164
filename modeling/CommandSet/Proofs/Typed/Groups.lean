import CommandSet.Proofs.Protocol.Groups
import CommandSet.Proofs.Protocol.Roles
import CommandSet.Proofs.Text.Spellings
import CommandSet.Typed.Bridge

/-!
# Groups in the Rust bridge

A payload struct, a descriptor constant, a decoder and an encoder stand for a group of
attributes each.  Their names come from the last two names on the way down to the group, and
a command brings along the functions of all of its groups.

Main definitions:

- {lit}`Group.stem`, {lit}`Group.payloadType`: the names of a group.
- {lit}`Decoder.ofGroup`, {lit}`Encoder.ofGroup`: the functions of a group.
- {lit}`decodedGroups`, {lit}`encodedGroups`: the groups that a role receives and sends.

Main results:

- Theorems {lit}`decoders_eq`, {lit}`encoders_eq`: the functions of a module are those of the
  groups that its role receives and sends.
- Theorems {lit}`structs_eq`, {lit}`tables_eq`: its payload structs and constants are those of
  all groups.
-/

namespace CommandSet

/-! ## Names -/

/-- The stem of the functions and constants of a group. -/
def Group.stem (group : Group) : String :=
  match group.ancestors.reverse with
  | name :: parent :: _ => Typed.nestedStem parent name
  | [name] => Typed.commandStem name
  | [] => ""

/-- The payload struct of a group. -/
def Group.payloadType (group : Group) : String :=
  match group.ancestors.reverse with
  | name :: parent :: _ => Naming.typedNestedPayload parent name
  | [name] => Naming.typedCommandPayload name
  | [] => ""

theorem Group.stem_below {group : Group} (h : group.ancestors ≠ []) (att : Attribute) :
    (group.below att).stem = Typed.nestedStem group.parent att.name := by
  obtain ⟨above, habove⟩ := Group.reverse_ancestors h
  rw [Group.stem, Group.below]
  simp [habove]

theorem Group.payloadType_below {group : Group} (h : group.ancestors ≠ []) (att : Attribute) :
    (group.below att).payloadType = Naming.typedNestedPayload group.parent att.name := by
  obtain ⟨above, habove⟩ := Group.reverse_ancestors h
  rw [Group.payloadType, Group.below]
  simp [habove]

@[simp]
theorem Command.stem_group (cmd : Command) : cmd.group.stem = Typed.commandStem cmd.name :=
  rfl

@[simp]
theorem Command.payloadType_group (cmd : Command) :
    cmd.group.payloadType = Naming.typedCommandPayload cmd.name :=
  rfl

theorem isWord_nestedStem {parent name : String} (hparent : IsName parent) (hname : IsName name) :
    IsWord (Typed.nestedStem parent name) :=
  ((isWord_snakeCase hparent.isWord).append (IsWord.fixed rfl : IsWord "_att_")).append
    (isWord_snakeCase hname.isWord)

namespace Group.Named

variable {group : Group}

/-- The stem of a group is that of its command or of its last two names. -/
theorem stem_cases (h : group.Named) :
    (∃ name, IsName name ∧ group.stem = Typed.commandStem name ∧
      group.payloadType = Naming.typedCommandPayload name) ∨
      ∃ parent name, IsName parent ∧ IsName name ∧ group.stem = Typed.nestedStem parent name ∧
        group.payloadType = Naming.typedNestedPayload parent name := by
  have hnames : ∀ name ∈ group.ancestors.reverse, IsName name := fun name hname =>
    h.ancestors name (List.mem_reverse.mp hname)
  obtain ⟨above, habove⟩ := Group.reverse_ancestors h.ancestors_ne_nil
  rw [habove, List.forall_mem_cons] at hnames
  rw [Group.stem, Group.payloadType, habove]
  cases above with
  | nil => exact .inl ⟨_, hnames.1, rfl, rfl⟩
  | cons parent above =>
      rw [List.forall_mem_cons] at hnames
      exact .inr ⟨_, _, hnames.2.1, hnames.1, rfl, rfl⟩

theorem isWord_stem (h : group.Named) : IsWord group.stem := by
  rcases h.stem_cases with ⟨name, hname, hstem, -⟩ | ⟨parent, name, hparent, hname, hstem, -⟩
  · exact hstem ▸ isWord_snakeCase hname.isWord
  · exact hstem ▸ isWord_nestedStem hparent hname

/-- Stems hold no capital. -/
theorem isUpper_of_mem_stem (h : group.Named) : ∀ c ∈ group.stem.toList, c.isUpper = false := by
  rcases h.stem_cases with ⟨name, hname, hstem, -⟩ | ⟨parent, name, hparent, hname, hstem, -⟩
  · rw [hstem]
    exact isUpper_of_mem_snakeCase hname.isWord
  · rw [hstem, Typed.nestedStem, String.toList_append, String.toList_append,
      List.forall_mem_append, List.forall_mem_append, String.toList_ofList]
    exact ⟨⟨isUpper_of_mem_snakeCase hparent.isWord, by simp⟩,
      isUpper_of_mem_snakeCase hname.isWord⟩

theorem isWord_payloadType (h : group.Named) : IsWord group.payloadType := by
  rcases h.stem_cases with ⟨name, hname, -, htype⟩ | ⟨parent, name, hparent, hname, -, htype⟩
  · exact htype ▸ isWord_typedCommandPayload hname
  · exact htype ▸ isWord_typedNestedPayload hparent hname

/-- Names of payload structs hold no underscore. -/
theorem underscore_not_mem_payloadType (h : group.Named) : '_' ∉ group.payloadType.toList := by
  rcases h.stem_cases with ⟨name, hname, -, htype⟩ | ⟨parent, name, hparent, hname, -, htype⟩
  · rw [htype, Naming.typedCommandPayload, String.toList_append, List.mem_append, not_or,
      String.toList_ofList]
    exact ⟨underscore_not_mem_capitalized hname.isWord, by decide⟩
  · rw [htype, Naming.typedNestedPayload, String.toList_append, String.toList_append,
      String.toList_append, List.mem_append, List.mem_append, List.mem_append, not_or, not_or,
      not_or, String.toList_ofList, String.toList_ofList]
    exact ⟨⟨⟨underscore_not_mem_capitalized hparent.isWord, by decide⟩,
      underscore_not_mem_capitalized hname.isWord⟩, by decide⟩

theorem payloadType_ne_nil (h : group.Named) : group.payloadType.toList ≠ [] := by
  rcases h.stem_cases with ⟨name, -, -, htype⟩ | ⟨parent, name, -, -, -, htype⟩
  · rw [htype, Naming.typedCommandPayload, String.toList_append, String.toList_ofList]
    exact List.append_ne_nil_of_right_ne_nil _ (List.cons_ne_nil _ _)
  · rw [htype, Naming.typedNestedPayload, String.toList_append, String.toList_ofList]
    exact List.append_ne_nil_of_right_ne_nil _ (List.cons_ne_nil _ _)

end Group.Named

namespace Typed

/-! ## Functions -/

/-- The decoder of a group. -/
def Decoder.ofGroup (group : Group) : Decoder :=
  ⟨group.stem, group.payloadType, FieldDecoder.ofAttributes group.parent 0 group.members⟩

/-- The encoder of a group. -/
def Encoder.ofGroup (group : Group) : Encoder :=
  ⟨group.stem, group.payloadType, group.members.length,
    group.members.filterMap (FieldEncoder.ofAttribute group.parent)⟩

/-- The payload struct of a group. -/
def PayloadStruct.ofGroup (group : Group) : PayloadStruct :=
  ⟨group.payloadType, group.members.filterMap (fieldOf group.parent)⟩

/-- The constant that describes a group. -/
def AttributeTable.ofGroup (group : Group) : AttributeTable :=
  ⟨descriptorConstant group.stem, group.members.map (AttributeRow.ofAttribute group.parent)⟩

theorem isComplex_of_storage {att : Attribute} (h : att.dataType.storage = some .nested) :
    att.isComplex = true := by
  unfold Attribute.isComplex
  cases htype : att.dataType <;> rw [htype] at h <;> first | rfl | cases h

/-- The decoder of a field. -/
def FieldDecoder.ofStorage (parent : String) (place : Nat) (att : Attribute) (storage : Storage) :
    FieldDecoder :=
  ⟨place, ElementSlot.ofStorage storage, snakeCase att.name, att.optional,
    DecodeExpr.ofStorage storage parent att.name⟩

theorem FieldDecoder.exists_of_mem {parent : String} {decoder : FieldDecoder}
    {atts : List Attribute} {index : Nat} (h : decoder ∈ ofAttributes parent index atts) :
    ∃ place, ∃ att ∈ atts, ∃ storage, att.dataType.storage = some storage ∧
      decoder = ofStorage parent place att storage := by
  induction atts generalizing index with
  | nil => cases h
  | cons att atts ih =>
      rw [ofAttributes, List.mem_append] at h
      rcases h with h | h
      · split at h
        next storage hstorage =>
          exact ⟨index, att, List.mem_cons_self, storage, hstorage, List.mem_singleton.mp h⟩
        next => cases h
      · obtain ⟨place, other, hother, hdecoder⟩ := ih h
        exact ⟨place, other, List.mem_cons_of_mem _ hother, hdecoder⟩

theorem FieldDecoder.exists_mem {parent : String} {att : Attribute} {storage : Storage}
    (hstorage : att.dataType.storage = some storage) {atts : List Attribute} (h : att ∈ atts)
    (index : Nat) :
    ∃ place, ofStorage parent place att storage ∈ ofAttributes parent index atts := by
  induction atts generalizing index with
  | nil => cases h
  | cons first atts ih =>
      rw [ofAttributes]
      rcases List.mem_cons.mp h with rfl | h
      · rw [hstorage]
        exact ⟨index, List.mem_append_left _ (List.mem_singleton.mpr rfl)⟩
      · obtain ⟨place, hmem⟩ := ih h (index + 1)
        exact ⟨place, List.mem_append_right _ hmem⟩

/-- What is built for each complex attribute of a forest, before what is built below it, is
built for the groups below its positions. -/
theorem forest_eq_groups {α : Type} (build : Group → α)
    (forest : String → List Attribute → List α)
    (hnil : ∀ parent, forest parent [] = [])
    (hcons : ∀ (group : Group) (att : Attribute) (rest : List Attribute), group.ancestors ≠ [] →
      forest group.parent (att :: rest) =
        (if att.hasSubAttributes then build (group.below att) :: forest att.name att.children
        else []) ++ forest group.parent rest)
    (atts : List Attribute) : ∀ (group : Group) (index : Nat), group.ancestors ≠ [] →
      Shaped (Attribute.forest atts) → forest group.parent atts =
        ((Position.ofTrees group index atts).filter (·.node.isComplex)).map
          fun p => build p.below := by
  induction atts using Attribute.forest_induction with
  | nil =>
      intro group index _ _
      exact hnil group.parent
  | cons att rest ihbelow ihrest =>
      intro group index hgroup hshaped
      rcases Attribute.forall_mem_forest_cons.mp hshaped with ⟨hroot, hbelow, hrest⟩
      have hbelowGroup : (group.below att).ancestors ≠ [] := by
        simp [Group.below]
      have ihbelow := ihbelow (group.below att) 0 hbelowGroup hbelow
      rw [Group.parent_below] at ihbelow
      rw [hcons group att rest hgroup, Position.ofTrees_cons, List.filter_cons, List.filter_append,
        hasSubAttributes_eq_isComplex hroot, ihrest group (index + 1) hgroup hrest, ihbelow]
      split
      next hcomplex =>
        rw [List.map_cons, List.map_append, List.cons_append]
        rfl
      next hsimple =>
        have hleaf : att.children = [] := children_eq_nil hroot hsimple
        rw [hleaf]
        rfl

theorem decoders_ofCommand {cmd : Command} (h : Shaped (Attribute.forest cmd.attributes)) :
    Decoder.ofCommand cmd = cmd.groups.map Decoder.ofGroup := by
  have hforest := forest_eq_groups Decoder.ofGroup Decoder.ofForest
    (fun parent => by rw [Decoder.ofForest]) ?_ cmd.attributes cmd.group 0 (List.cons_ne_nil _ _) h
  · rw [Command.groups, List.map_cons, List.map_map]
    exact congrArg (List.cons _) hforest
  · intro group att rest hgroup
    rw [Decoder.ofForest, Decoder.ofGroup, Group.stem_below hgroup, Group.payloadType_below hgroup,
      Group.parent_below]
    cases att
    rw [Decoder.ofTree]
    rfl

theorem encoders_ofCommand {cmd : Command} (h : Shaped (Attribute.forest cmd.attributes)) :
    Encoder.ofCommand cmd = cmd.groups.map Encoder.ofGroup := by
  have hforest := forest_eq_groups Encoder.ofGroup Encoder.ofForest
    (fun parent => by rw [Encoder.ofForest]) ?_ cmd.attributes cmd.group 0 (List.cons_ne_nil _ _) h
  · rw [Command.groups, List.map_cons, List.map_map]
    exact congrArg (List.cons _) hforest
  · intro group att rest hgroup
    rw [Encoder.ofForest, Encoder.ofGroup, Group.stem_below hgroup, Group.payloadType_below hgroup,
      Group.parent_below]
    cases att
    rw [Encoder.ofTree]
    rfl

/-! ## Types and constants -/

/-- The constants of a module. -/
theorem tables_eq {protocol : Protocol} (hwell : WellFormed protocol) (role : Role) :
    (Bridge.build (Prepared.ofProtocol protocol) role).tables =
      (definedGroups protocol).map AttributeTable.ofGroup := by
  refine map_entries_eq hwell (fun p hp => ?_) fun cmd => rfl
  rw [AttributeTable.ofGroup, Position.below, Group.stem_below hp, Group.parent_below]
  rfl

/-- The payload structs of a module. -/
theorem structs_eq {protocol : Protocol} (hwell : WellFormed protocol) (role : Role) :
    (Bridge.build (Prepared.ofProtocol protocol) role).nested ++
      (Bridge.build (Prepared.ofProtocol protocol) role).payloads =
        (definedGroups protocol).map PayloadStruct.ofGroup := by
  refine map_entries_eq hwell (fun p hp => ?_) fun cmd => rfl
  rw [PayloadStruct.ofGroup, Position.below, Group.payloadType_below hp, Group.parent_below]
  rfl

/-- Without complex attributes no struct is nested. -/
theorem nested_eq_nil {protocol : Protocol} {role : Role}
    (h : (Bridge.build (Prepared.ofProtocol protocol) role).nesting = false) :
    (Bridge.build (Prepared.ofProtocol protocol) role).nested = [] := by
  have hnone : (Prepared.ofProtocol protocol).complexChildrenFirst = [] :=
    if_neg (Bool.eq_false_iff.mp h)
  exact congrArg (List.map PayloadStruct.ofEntry) hnone

/-! ## Groups of a role -/

/-- The groups of the commands that a role receives. -/
def decodedGroups (protocol : Protocol) (role : Role) : List Group :=
  (protocol.decoded role).flatMap Command.groups

/-- The groups of the commands that a role sends. -/
def encodedGroups (protocol : Protocol) (role : Role) : List Group :=
  (protocol.encoded role).flatMap Command.groups

section Role

variable {protocol : Protocol} {role : Role} {group : Group}

theorem decodedGroups_other (protocol : Protocol) (role : Role) :
    decodedGroups protocol role.other = encodedGroups protocol role := by
  rw [decodedGroups, Protocol.decoded_other, encodedGroups]

theorem mem_groups_of_mem_decodedGroups (h : group ∈ decodedGroups protocol role) :
    group ∈ protocol.groups := by
  obtain ⟨cmd, hcmd, hgroup⟩ := List.mem_flatMap.mp h
  obtain ⟨hmem, hcmd⟩ := List.mem_filter.mp hcmd
  refine List.mem_flatMap.mpr ⟨cmd, List.mem_filter.mpr ⟨hmem, ?_⟩, hgroup⟩
  exact (Bool.and_eq_true_iff.mp hcmd).2

theorem mem_groups_of_mem_encodedGroups (h : group ∈ encodedGroups protocol role) :
    group ∈ protocol.groups :=
  mem_groups_of_mem_decodedGroups (decodedGroups_other protocol role ▸ h)

/-- What holds the groups of a command holds the groups below them. -/
theorem below_mem_flatMap_groups {cmds : List Command} (h : group ∈ cmds.flatMap Command.groups)
    {att : Attribute} (hatt : att ∈ group.members) (hcomplex : att.isComplex = true) :
    group.below att ∈ cmds.flatMap Command.groups := by
  obtain ⟨cmd, hcmd, hgroup⟩ := List.mem_flatMap.mp h
  exact List.mem_flatMap.mpr ⟨cmd, hcmd, Command.below_mem_groups hgroup hatt hcomplex⟩

theorem decoders_eq (hwell : WellFormed protocol) (role : Role) :
    (Bridge.build (Prepared.ofProtocol protocol) role).decoders =
      (decodedGroups protocol role).map Decoder.ofGroup := by
  rw [decodedGroups, List.map_flatMap]
  refine List.flatMap_congr fun cmd hcmd => decoders_ofCommand ?_
  exact forall_attributes_iff.mp hwell.children cmd (List.mem_of_mem_filter hcmd)

theorem encoders_eq (hwell : WellFormed protocol) (role : Role) :
    (Bridge.build (Prepared.ofProtocol protocol) role).encoders =
      (encodedGroups protocol role).map Encoder.ofGroup := by
  rw [encodedGroups, List.map_flatMap]
  refine List.flatMap_congr fun cmd hcmd => encoders_ofCommand ?_
  exact forall_attributes_iff.mp hwell.children cmd (List.mem_of_mem_filter hcmd)

end Role

end Typed
end CommandSet
