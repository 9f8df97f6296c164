import CommandSet.Proofs.Generation.CommandIds
import CommandSet.Proofs.Text.Joints
import CommandSet.Proofs.Typed.ItemNames
import CommandSet.Proofs.Typed.Matches

/-!
# Items that clash

The names of payload structs, constants and functions are joined from the names of a complex
attribute and of what holds it, or made from the name of a command.  Validation keeps the names
themselves apart, not what is joined from them, so two items of one name come about where a
name holds the text of a joint, or vanishes.

Main definitions:

- {lit}`Owner`: what the items of a group are named after.
- {lit}`TypesMeet`, {lit}`StemsMeet`: owners whose items have one name.
- {lit}`NamesItems`: when the names of a module are distinct.

Main results:

- Theorems {lit}`payloadType_eq_iff`, {lit}`stem_eq_iff`: these are the only ways.
- Theorem {lit}`namesItems_prepared`: when the names in the module of a protocol are distinct.
- Theorem {lit}`not_nodup_items_latch`: a protocol with clashes of all kinds.
-/

namespace CommandSet

/-! ## Owners -/

/-- What the items of a group are named after: its command, or an attribute and what holds it. -/
inductive Owner where
  | command (name : String)
  | nested (parent name : String)
deriving Repr, DecidableEq

namespace Owner

/-- The owner's own name. -/
def name : Owner → String
  | command name => name
  | nested _ name => name

/-- The stem of its functions and constants. -/
def stem : Owner → String
  | command name => Typed.commandStem name
  | nested parent name => Typed.nestedStem parent name

/-- Its payload struct. -/
def payloadType : Owner → String
  | command name => Naming.typedCommandPayload name
  | nested parent name => Naming.typedNestedPayload parent name

end Owner

/-- The owner of a group. -/
def Group.owner (group : Group) : Owner :=
  match group.ancestors.reverse with
  | name :: parent :: _ => .nested parent name
  | [name] => .command name
  | [] => .command ""

theorem Group.name_owner {group : Group} (h : group.ancestors ≠ []) :
    group.owner.name = group.parent := by
  obtain ⟨above, habove⟩ := Group.reverse_ancestors h
  rw [Group.owner, habove]
  cases above <;> rfl

theorem Group.stem_owner {group : Group} (h : group.ancestors ≠ []) :
    group.stem = group.owner.stem := by
  obtain ⟨above, habove⟩ := Group.reverse_ancestors h
  rw [Group.owner, Group.stem, habove]
  cases above <;> rfl

theorem Group.payloadType_owner {group : Group} (h : group.ancestors ≠ []) :
    group.payloadType = group.owner.payloadType := by
  obtain ⟨above, habove⟩ := Group.reverse_ancestors h
  rw [Group.owner, Group.payloadType, habove]
  cases above <;> rfl

namespace Typed

/-! ## Clashes -/

/-- Owners whose payload structs have one name.  The struct of a command meets that of an
attribute whose name vanishes below a parent of its spelling, or ends with the joint that starts
behind the parent; those of two attributes meet where one parent is spelled like the other one
with a joint behind it. -/
def TypesMeet : Owner → Owner → Prop
  | .command cmd, .nested parent name =>
      (capitalized cmd = capitalized parent ∧ capitalized name = "") ∨
        ∃ rest, capitalized cmd = capitalized parent ++ "Att" ++ rest ∧
          capitalized name = rest ++ "Att"
  | .nested parent name, .nested other below =>
      ∃ rest, capitalized other = capitalized parent ++ "Att" ++ rest ∧
        capitalized name = rest ++ "Att" ++ capitalized below
  | _, _ => False

/-- Owners whose constants and functions have one name: a command that is spelled like an
attribute with its parent, and attributes one of whose parents is spelled like the other one
with a joint behind it. -/
def StemsMeet : Owner → Owner → Prop
  | .command cmd, .nested parent name =>
      snakeCase cmd = snakeCase parent ++ "_att_" ++ snakeCase name
  | .nested parent name, .nested other below =>
      ∃ rest, snakeCase other = snakeCase parent ++ "_att" ++ rest ∧
        "_" ++ snakeCase name = rest ++ "_att_" ++ snakeCase below
  | _, _ => False

/-- No two groups have owners of this kind. -/
def Apart (meet : Owner → Owner → Prop) (groups : List Group) : Prop :=
  ∀ first ∈ groups, ∀ second ∈ groups, ¬meet first.owner second.owner

theorem ne_append {text joint rest : String} (hjoint : joint ≠ "") :
    text ≠ text ++ joint ++ rest := by
  intro h
  have hlength := congrArg String.length h
  have hpos : joint.length ≠ 0 := fun hzero => hjoint (String.length_eq_zero_iff.mp hzero)
  simp only [String.length_append] at hlength
  omega

theorem not_typesMeet_self (owner : Owner) : ¬TypesMeet owner owner := by
  cases owner with
  | command name => exact id
  | nested parent name =>
      rintro ⟨rest, hparent, -⟩
      exact ne_append (by decide) hparent

theorem not_stemsMeet_self (owner : Owner) : ¬StemsMeet owner owner := by
  cases owner with
  | command name => exact id
  | nested parent name =>
      rintro ⟨rest, hparent, -⟩
      exact ne_append (by decide) hparent

/-- The struct of a command is that of an attribute where the owners meet. -/
theorem typedCommandPayload_eq_iff {cmd parent name : String} :
    Naming.typedCommandPayload cmd = Naming.typedNestedPayload parent name ↔
      TypesMeet (.command cmd) (.nested parent name) := by
  have hcommand : Naming.typedCommandPayload cmd = capitalized cmd ++ "Att" ++ "" ++ "Payload" := by
    simp [Naming.typedCommandPayload, ← String.toList_inj]
  have hends (rest : String) : "" ≠ rest ++ "Att" ++ capitalized name := by
    rw [Ne, ← String.toList_inj]
    simp
  rw [hcommand, Naming.typedNestedPayload, String.append_left_inj,
    joint_eq_iff String.toList_ofList (by decide), TypesMeet]
  simp only [hends, and_false, exists_false, false_or, String.append_empty, eq_comm (a := "")]

/-- The structs of two attributes are the same where the owners meet, one way or the other. -/
theorem typedNestedPayload_eq_iff {parent name other below : String}
    (hne : capitalized name ≠ capitalized below) :
    Naming.typedNestedPayload parent name = Naming.typedNestedPayload other below ↔
      TypesMeet (.nested parent name) (.nested other below) ∨
        TypesMeet (.nested other below) (.nested parent name) := by
  rw [Naming.typedNestedPayload, Naming.typedNestedPayload, String.append_left_inj,
    joint_eq_iff String.toList_ofList (by decide), or_iff_right fun h => hne h.2]
  exact Iff.rfl

/-- Owners with names of their own have one payload struct where they meet. -/
theorem payloadType_eq_iff {first second : Owner}
    (hne : capitalized first.name ≠ capitalized second.name) :
    first.payloadType = second.payloadType ↔
      TypesMeet first second ∨ TypesMeet second first := by
  cases first with
  | command cmd =>
      cases second with
      | command other =>
          have hnever : ¬capitalized cmd = capitalized other := hne
          simp [Owner.payloadType, Naming.typedCommandPayload, TypesMeet, hnever]
      | nested other below =>
          have hnever : ¬TypesMeet (.nested other below) (.command cmd) := id
          rw [or_iff_left hnever]
          exact typedCommandPayload_eq_iff
  | nested parent name =>
      cases second with
      | command other =>
          have hnever : ¬TypesMeet (.nested parent name) (.command other) := id
          rw [or_iff_right hnever, eq_comm]
          exact typedCommandPayload_eq_iff
      | nested other below => exact typedNestedPayload_eq_iff hne

/-- The stems of two attributes are the same where the owners meet, one way or the other. -/
theorem nestedStem_eq_iff {parent name other below : String}
    (hne : snakeCase name ≠ snakeCase below) :
    nestedStem parent name = nestedStem other below ↔
      StemsMeet (.nested parent name) (.nested other below) ∨
        StemsMeet (.nested other below) (.nested parent name) := by
  have hsplit (parent word : String) :
      parent ++ "_att_" ++ word = parent ++ "_att" ++ ("_" ++ word) := by
    simp [← String.toList_inj]
  have hwords : "_" ++ snakeCase name ≠ "_" ++ snakeCase below := fun h =>
    hne ((String.append_right_inj _).mp h)
  simp only [StemsMeet, nestedStem, hsplit]
  rw [joint_eq_iff String.toList_ofList (by decide), or_iff_right fun h => hwords h.2]

/-- Owners with names of their own have one stem where they meet. -/
theorem stem_eq_iff {first second : Owner} (hne : snakeCase first.name ≠ snakeCase second.name) :
    first.stem = second.stem ↔ StemsMeet first second ∨ StemsMeet second first := by
  cases first with
  | command cmd =>
      cases second with
      | command other =>
          have hnever : ¬snakeCase cmd = snakeCase other := hne
          simp [Owner.stem, commandStem, StemsMeet, hnever]
      | nested other below =>
          have hnever : ¬StemsMeet (.nested other below) (.command cmd) := id
          rw [or_iff_left hnever]
          exact Iff.rfl
  | nested parent name =>
      cases second with
      | command other =>
          have hnever : ¬StemsMeet (.nested parent name) (.command other) := id
          rw [or_iff_right hnever, eq_comm]
          exact Iff.rfl
      | nested other below => exact nestedStem_eq_iff hne

/-! ## Distinct names -/

/-- Items of groups with names of their own are distinct where no owners meet. -/
theorem nodup_map_iff_apart {groups : List Group} {spelling : String → String}
    {item : Owner → String} {meet : Owner → Owner → Prop}
    (hnames : (groups.map fun group => spelling group.owner.name).Nodup)
    (hmeet : ∀ first second : Owner, spelling first.name ≠ spelling second.name →
      (item first = item second ↔ meet first second ∨ meet second first))
    (hself : ∀ owner, ¬meet owner owner) :
    (groups.map fun group => item group.owner).Nodup ↔ Apart meet groups := by
  have hinj := List.inj_on_of_nodup_map hnames
  rw [List.nodup_map_iff_inj_on (List.Nodup.of_map _ hnames)]
  constructor
  · intro hitems first hfirst second hsecond h
    have hne : spelling first.owner.name ≠ spelling second.owner.name := by
      intro heq
      obtain rfl := hinj hfirst hsecond heq
      exact hself _ h
    have hsame := hitems first hfirst second hsecond ((hmeet _ _ hne).mpr (.inl h))
    exact hne (congrArg (fun group : Group => spelling group.owner.name) hsame)
  · intro hapart first hfirst second hsecond hsame
    by_contra hne
    have hspelled : spelling first.owner.name ≠ spelling second.owner.name := fun heq =>
      hne (hinj hfirst hsecond heq)
    rcases (hmeet _ _ hspelled).mp hsame with h | h
    · exact hapart first hfirst second hsecond h
    · exact hapart second hsecond first hfirst h

section Protocol

variable {protocol : Protocol}

theorem map_owner_name (hwell : WellFormed protocol) {groups : List Group}
    (h : ∀ group ∈ groups, group ∈ protocol.groups) (spelling : String → String) :
    (groups.map fun group => spelling group.owner.name) =
      groups.map fun group => spelling group.parent :=
  List.map_congr_left fun group hgroup => congrArg spelling
    (Group.name_owner (named_of_mem_groups hwell (h group hgroup)).ancestors_ne_nil)

theorem decodedGroups_sublist (protocol : Protocol) (role : Role) :
    (decodedGroups protocol role).Sublist protocol.groups := by
  have hcarriers : protocol.decoded role =
      protocol.carriers.filter (·.isReceivable role) := by
    rw [Protocol.decoded, Protocol.carriers, List.filter_filter]
  rw [decodedGroups, hcarriers]
  exact List.Sublist.flatMap List.filter_sublist _

theorem encodedGroups_sublist (protocol : Protocol) (role : Role) :
    (encodedGroups protocol role).Sublist protocol.groups :=
  decodedGroups_other protocol role ▸ decodedGroups_sublist protocol role.other

theorem nodup_payloadTypes_iff (hwell : WellFormed protocol) :
    (protocol.groups.map Group.payloadType).Nodup ↔ Apart TypesMeet protocol.groups := by
  have hnames : (protocol.groups.map fun group => capitalized group.owner.name).Nodup := by
    rw [map_owner_name hwell fun _ h => h]
    exact nodup_spelled_groups hwell.scopes.capitalized
  have hmap : protocol.groups.map Group.payloadType =
      protocol.groups.map fun group => group.owner.payloadType :=
    List.map_congr_left fun group hgroup =>
      Group.payloadType_owner (named_of_mem_groups hwell hgroup).ancestors_ne_nil
  rw [hmap]
  exact nodup_map_iff_apart hnames (fun _ _ => payloadType_eq_iff) not_typesMeet_self

theorem nodup_stems_iff (hwell : WellFormed protocol) {groups : List Group}
    (hgroups : groups.Sublist protocol.groups) :
    (groups.map Group.stem).Nodup ↔ Apart StemsMeet groups := by
  have hnames : (groups.map fun group => snakeCase group.owner.name).Nodup := by
    rw [map_owner_name hwell hgroups.subset]
    exact (nodup_spelled_groups hwell.scopes.snakeCase).sublist (hgroups.map _)
  have hmap : groups.map Group.stem = groups.map fun group => group.owner.stem :=
    List.map_congr_left fun group hgroup =>
      Group.stem_owner (named_of_mem_groups hwell (hgroups.subset hgroup)).ancestors_ne_nil
  rw [hmap]
  exact nodup_map_iff_apart hnames (fun _ _ => stem_eq_iff) not_stemsMeet_self

/-- Stems are told apart by the constants named after them. -/
theorem nodup_descriptorConstants_iff (hwell : WellFormed protocol) :
    (protocol.groups.map fun group => descriptorConstant group.stem).Nodup ↔
      Apart StemsMeet protocol.groups := by
  rw [← nodup_stems_iff hwell (List.Sublist.refl _)]
  constructor
  · intro h
    have hmap := List.map_map (f := Group.stem) (g := descriptorConstant) (l := protocol.groups)
    exact List.Nodup.of_map descriptorConstant (hmap ▸ h)
  · intro h
    have hinj := List.inj_on_of_nodup_map h
    refine (List.Nodup.of_map _ h).map_on fun first hfirst second hsecond heq => ?_
    have hnamed := named_of_mem_groups hwell hfirst
    have hother := named_of_mem_groups hwell hsecond
    exact hinj hfirst hsecond (IsWord.upper_inj hnamed.isWord_stem hother.isWord_stem
      hnamed.isUpper_of_mem_stem hother.isUpper_of_mem_stem ((String.append_left_inj _).mp heq))

theorem nodup_payloadNames_iff (hwell : WellFormed protocol) (role : Role) :
    (itemNames .payload (Bridge.build (Prepared.ofProtocol protocol) role).lines).Nodup ↔
      Apart TypesMeet protocol.groups := by
  rw [payloadNames_bridge hwell, ((definedGroups_perm protocol).map _).nodup_iff]
  exact nodup_payloadTypes_iff hwell

/-- The constants of a protocol are spelled like those of no group. -/
theorem protocolConstant_ne (name stem : String) :
    Bridge.idConstant name ≠ descriptorConstant stem ∧
      protocolDescriptor name ≠ descriptorConstant stem ∧
        Bridge.idConstant name ≠ protocolDescriptor name := by
  -- the endings of the three differ
  refine ⟨fun h => ?_, fun h => ?_, fun h => ?_⟩
  all_goals
    have hends := congrArg (fun text : String => text.toList.reverse.take 7) h
    simp [Bridge.idConstant, descriptorConstant, protocolDescriptor] at hends

theorem nodup_constantNames_iff (hwell : WellFormed protocol) (role : Role) :
    (itemNames .constant (Bridge.build (Prepared.ofProtocol protocol) role).lines).Nodup ↔
      Apart StemsMeet protocol.groups := by
  have hne := protocolConstant_ne protocol.name
  rw [constantNames_bridge hwell, List.nodup_cons, List.nodup_append,
    ((definedGroups_perm protocol).map _).nodup_iff, nodup_descriptorConstants_iff hwell]
  have hid : Bridge.idConstant protocol.name ∉
      ((definedGroups protocol).map fun group => descriptorConstant group.stem) ++
        [protocolDescriptor protocol.name] := by
    rw [List.mem_append, List.mem_map, List.mem_singleton, not_or]
    exact ⟨fun ⟨group, _, heq⟩ => (hne group.stem).1 heq.symm, (hne "").2.2⟩
  have hdescriptor : ∀ name ∈ (definedGroups protocol).map fun group =>
        descriptorConstant group.stem,
      ∀ other ∈ [protocolDescriptor protocol.name], name ≠ other := by
    rw [List.forall_mem_map]
    intro group _ other hother heq
    rw [List.mem_singleton.mp hother] at heq
    exact (hne group.stem).2.1 heq.symm
  constructor
  · rintro ⟨-, h, -⟩
    exact h
  · intro h
    exact ⟨hid, h, List.nodup_singleton _, hdescriptor⟩

/-- Names of functions that stand between fixed texts are told apart by what stands there. -/
theorem nodup_map_between (front back : String) (groups : List Group) :
    (groups.map fun group => front ++ group.stem ++ back).Nodup ↔
      (groups.map Group.stem).Nodup := by
  have hinj : Function.Injective fun stem => front ++ stem ++ back := fun _ _ h =>
    (String.append_right_inj _).mp ((String.append_left_inj _).mp h)
  have hmap : (groups.map fun group => front ++ group.stem ++ back) =
      (groups.map Group.stem).map fun stem => front ++ stem ++ back := by
    rw [List.map_map]
    rfl
  rw [hmap, List.nodup_map_iff hinj]

/-- The functions for payload structs are spelled like none of the others. -/
theorem codecName_ne (front stem : String) {other : String}
    (hother : other ∈ ["decode", "encode", "id", "from_id"]) :
    front ++ stem ++ "_payload" ≠ other := by
  have hends : ∀ name ∈ ["decode", "encode", "id", "from_id"],
      name.toList.reverse.take 2 ≠ ['d', 'a'] := by
    decide
  rintro rfl
  exact hends _ hother (by simp)

theorem nodup_functionNames_iff (hwell : WellFormed protocol) (role : Role) :
    (itemNames .function (Bridge.build (Prepared.ofProtocol protocol) role).lines ++
        methodNames (Bridge.build (Prepared.ofProtocol protocol) role).lines).Nodup ↔
      Apart StemsMeet (decodedGroups protocol role) ∧
        Apart StemsMeet (encodedGroups protocol role) := by
  let decoders := (decodedGroups protocol role).map fun group => Decoder.name group.stem
  let encoders := (encodedGroups protocol role).map fun group => Encoder.name group.stem
  have hdecoders : decoders.Nodup ↔ Apart StemsMeet (decodedGroups protocol role) := by
    rw [← nodup_stems_iff hwell (decodedGroups_sublist protocol role)]
    exact nodup_map_between "decode_" "_payload" _
  have hencoders : encoders.Nodup ↔ Apart StemsMeet (encodedGroups protocol role) := by
    rw [← nodup_stems_iff hwell (encodedGroups_sublist protocol role)]
    exact nodup_map_between "encode_" "_payload" _
  have hapart : ∀ name ∈ decoders, ∀ other ∈ encoders, name ≠ other := by
    simp only [decoders, encoders, List.forall_mem_map]
    intro first _ second _ heq
    simp [Decoder.name, Encoder.name, ← String.toList_inj] at heq
  have hfixed : ∀ name ∈ decoders ++ encoders,
      ∀ other ∈ ["decode", "encode", "id", "from_id"], name ≠ other := by
    simp only [decoders, encoders, List.forall_mem_append, List.forall_mem_map]
    exact ⟨fun group _ other hother => codecName_ne "decode_" group.stem hother,
      fun group _ other hother => codecName_ne "encode_" group.stem hother⟩
  have hnames : itemNames .function (Bridge.build (Prepared.ofProtocol protocol) role).lines ++
      methodNames (Bridge.build (Prepared.ofProtocol protocol) role).lines =
        decoders ++ encoders ++ ["decode", "encode", "id", "from_id"] := by
    rw [functionNames_bridge hwell, methodNames_bridge]
    simp only [decoders, encoders, List.append_assoc, List.cons_append, List.nil_append]
  rw [hnames, List.nodup_append, List.nodup_append, hdecoders, hencoders]
  constructor
  · rintro ⟨⟨hdecoded, hencoded, -⟩, -⟩
    exact ⟨hdecoded, hencoded⟩
  · rintro ⟨hdecoded, hencoded⟩
    exact ⟨⟨hdecoded, hencoded, hapart⟩, by decide, hfixed⟩

end Protocol

/-! ## All names -/

/-- When the names in the module of a role are distinct: those of the command enumeration are;
those of the payload type are unless a command is named like its empty variant; and those of
structs, constants and functions are where the owners of their groups do not meet. -/
structure NamesItems (protocol : Protocol) (role : Role) (bridge : List String) : Prop where
  commands : (commandVariants bridge).Nodup
  payloads : ((payloadVariants bridge).map PayloadVariant.name).Nodup ↔
    ∀ cmd ∈ protocol.carriers, capitalized cmd.name ≠ "Empty"
  structs : (itemNames .payload bridge).Nodup ↔ Apart TypesMeet protocol.groups
  constants : (itemNames .constant bridge).Nodup ↔ Apart StemsMeet protocol.groups
  functions : (itemNames .function bridge ++ methodNames bridge).Nodup ↔
    Apart StemsMeet (decodedGroups protocol role) ∧ Apart StemsMeet (encodedGroups protocol role)

theorem nodup_payloadVariants_iff {protocol : Protocol} (hwell : WellFormed protocol)
    (role : Role) :
    ((payloadVariants (Bridge.build (Prepared.ofProtocol protocol) role).lines).map
      PayloadVariant.name).Nodup ↔
        ∀ cmd ∈ protocol.carriers, capitalized cmd.name ≠ "Empty" := by
  have hcarriers : (protocol.carriers.map fun cmd => capitalized cmd.name).Nodup :=
    (nodup_capitalized_commands hwell).sublist (List.filter_sublist.map _)
  rw [payloadVariants_bridge hwell, List.map_cons, List.map_map, List.nodup_cons]
  constructor
  · rintro ⟨hempty, -⟩ cmd hcmd h
    exact hempty (List.mem_map.mpr ⟨cmd, hcmd, h⟩)
  · intro hempty
    refine ⟨fun hmem => ?_, hcarriers⟩
    obtain ⟨cmd, hcmd, h⟩ := List.mem_map.mp hmem
    exact hempty cmd hcmd h

/-- When the names in the modules of a protocol that code is generated from are distinct. -/
theorem namesItems_prepared {protocol : Protocol} {prepared : Prepared}
    (hprepare : prepare protocol = .ok prepared) (role : Role) :
    NamesItems protocol role (Bridge.build prepared role).lines := by
  obtain ⟨rfl, hwell⟩ := wellFormed_of_prepare hprepare
  constructor
  case commands =>
    rw [commandVariants_bridge hwell]
    exact nodup_capitalized_commands hwell
  case payloads => exact nodup_payloadVariants_iff hwell role
  case structs => exact nodup_payloadNames_iff hwell role
  case constants => exact nodup_constantNames_iff hwell role
  case functions => exact nodup_functionNames_iff hwell role

theorem namesItems_meter :
    prepare meter = .ok (Prepared.ofProtocol meter) ∧ ∀ role,
      NamesItems meter role (Bridge.build (Prepared.ofProtocol meter) role).lines :=
  ⟨prepare_meter, namesItems_prepared prepare_meter⟩

/-! ## A protocol with clashes -/

private def latch : Protocol :=
  ⟨"Latch", 6, [⟨"Empty", 1, .bidirectional, [⟨"by", 1, false, .uint8, [], ""⟩], ""⟩,
    ⟨"Door", 2, .bidirectional,
      [⟨"Att", 1, false, .subAttributes, [⟨"side", 1, false, .uint8, [], ""⟩], ""⟩], ""⟩,
    ⟨"Door_att", 3, .bidirectional, [⟨"side", 1, false, .uint8, [], ""⟩], ""⟩,
    ⟨"Door_att_Att", 4, .bidirectional, [⟨"side", 1, false, .uint8, [], ""⟩], ""⟩]⟩

/-- Owners that meet do not stay apart. -/
theorem not_apart {meet : Owner → Owner → Prop} {groups : List Group} (first second : Owner)
    (hfirst : first ∈ groups.map Group.owner) (hsecond : second ∈ groups.map Group.owner)
    (h : meet first second) : ¬Apart meet groups := by
  obtain ⟨group, hgroup, rfl⟩ := List.mem_map.mp hfirst
  obtain ⟨other, hother, rfl⟩ := List.mem_map.mp hsecond
  exact fun hapart => hapart group hgroup other hother h

/-- A protocol is accepted though a command is named like the empty payload, another one gets
the payload struct of an attribute, and a third one the constant and the functions of that
attribute. -/
theorem not_nodup_items_latch :
    prepare latch = .ok (Prepared.ofProtocol latch) ∧ ∀ role,
      let bridge := (Bridge.build (Prepared.ofProtocol latch) role).lines
      ¬((payloadVariants bridge).map PayloadVariant.name).Nodup ∧
        ¬(itemNames .payload bridge).Nodup ∧ ¬(itemNames .constant bridge).Nodup ∧
          ¬(itemNames .function bridge ++ methodNames bridge).Nodup := by
  have hwell : WellFormed latch := (wellFormed_of_prepare (rfl : prepare latch = _)).2
  have howners : latch.groups.map Group.owner = [.command "Empty", .command "Door",
      .nested "Door" "Att", .command "Door_att", .command "Door_att_Att"] := rfl
  have hdecoded (role : Role) : (decodedGroups latch role).map Group.owner =
      latch.groups.map Group.owner := by
    cases role <;> rfl
  have htypes : ¬Apart TypesMeet latch.groups := by
    refine not_apart (.command "Door_att") (.nested "Door" "Att") ?_ ?_ ?_
    · rw [howners]
      decide
    · rw [howners]
      decide
    · exact .inr ⟨"", by decide, by decide⟩
  have hstems {groups : List Group} (h : groups.map Group.owner = latch.groups.map Group.owner) :
      ¬Apart StemsMeet groups := by
    refine not_apart (.command "Door_att_Att") (.nested "Door" "Att") ?_ ?_ ?_
    · rw [h, howners]
      decide
    · rw [h, howners]
      decide
    · show snakeCase "Door_att_Att" = snakeCase "Door" ++ "_att_" ++ snakeCase "Att"
      decide
  refine ⟨rfl, fun role => ⟨?_, ?_, ?_, ?_⟩⟩
  · rw [nodup_payloadVariants_iff hwell]
    exact fun hempty => hempty _ List.mem_cons_self (by decide)
  · rw [nodup_payloadNames_iff hwell]
    exact htypes
  · rw [nodup_constantNames_iff hwell]
    exact hstems rfl
  · rw [nodup_functionNames_iff hwell]
    exact fun hapart => hstems (hdecoded role) hapart.1

end Typed
end CommandSet
