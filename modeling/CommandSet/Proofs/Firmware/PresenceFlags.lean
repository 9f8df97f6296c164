import CommandSet.Proofs.Firmware.Macros
import CommandSet.Proofs.Firmware.MemberNames
import CommandSet.Proofs.Firmware.PayloadPaths
import CommandSet.Proofs.Protocol.Scopes

/-!
# Presence flags

An optional attribute has one bit in the bitfield of its group.  The main header numbers it by
the sorted scopes, structs and functions by the attributes of a group in their order; both come
to the same width, index and flag.  All lines of a function that name a bitfield are found by the
paths on them.

Main definitions:

- {lit}`presenceLine?`: a line that names a bitfield.
- {lit}`Position.testLine`, {lit}`Position.setLine`, {lit}`Group.clearLines`: what functions do
  with presence bits.
- {lit}`PresenceAgreement`: headers and functions that agree on all presence bits.

Main results:

- Theorem {lit}`bitfields_build`: the bitfields that the structs of a main header declare.
- Theorem {lit}`flags_perm`: the main header defines one flag for every optional attribute.
- Theorems {lit}`presence_stub`, {lit}`presence_decoder`, {lit}`presence_encoder`: the lines of
  functions that name bitfields.
- Theorem {lit}`presence_agreement`: all of them agree.
-/

namespace CommandSet

open Firmware

/-! ## Code on presence bits -/

/-- The presence bitfield of a group, in C. -/
def Group.field (group : Group) : String :=
  (PresenceBit.field group.ancestors).text

/-- The flag of an optional attribute. -/
def Position.flag (protocol : String) (p : Position) : String :=
  Naming.attributeFlag protocol p.group.parent p.node.name

/-- The line that tests whether an attribute is there. -/
def Position.testLine (protocol : String) (p : Position) : String :=
  opening ("if " ++ (PresenceWidth.ofCount p.group.members.length).testExpr p.group.field
    (p.flag protocol) p.index)

/-- The line that notes that an attribute is there. -/
def Position.setLine (protocol : String) (p : Position) : String :=
  (PresenceWidth.ofCount p.group.members.length).setStatement p.group.field (p.flag protocol)
    p.index

/-- The line that clears the bitfield of a group, if the group has optional attributes. -/
def Group.clearLines (group : Group) : List String :=
  if group.members.any (·.optional) then
    [(PresenceWidth.ofCount group.members.length).clearStatement group.field]
  else []

namespace Firmware

/-- The text of a line that names a presence bitfield. -/
def presenceLine? (line : String) : Option String :=
  if (payloadPaths line).any (·.getLast? == some presenceMember) then some (unindented line)
  else none

theorem presence_of_path {text : String} {groups : List String}
    (h : payloadPaths text = [(PresenceBit.field groups).path]) (hflush : Flush text) :
    presenceLine? text = some text := by
  have hlast : (PresenceBit.field groups).path.getLast? = some presenceMember :=
    List.getLast?_concat
  rw [presenceLine?, h, hflush.unindented_eq, if_pos (by simp [hlast])]

theorem presence_eq_none {text : String}
    (h : ∀ path ∈ payloadPaths text, path.getLast? ≠ some presenceMember) :
    presenceLine? text = none := by
  rw [presenceLine?, if_neg]
  rw [List.any_eq_true]
  rintro ⟨path, hpath, hlast⟩
  exact h path hpath (beq_iff_eq.mp hlast)

theorem presence_of_nil {text : String} (h : payloadPaths text = []) : presenceLine? text = none :=
  presence_eq_none (h ▸ List.forall_mem_nil _)

/-- Lines that name no bitfield. -/
theorem filterMap_presence_eq_nil {texts : List String}
    (h : ∀ path ∈ texts.flatMap payloadPaths, path.getLast? ≠ some presenceMember) :
    texts.filterMap presenceLine? = [] := by
  rw [List.filterMap_eq_nil_iff]
  exact fun text htext => presence_eq_none fun path hpath =>
    h path (List.mem_flatMap.mpr ⟨text, htext, hpath⟩)

theorem lineReader_presence : LineReader fun line => (presenceLine? line).toList where
  indented level text := by
    rw [presenceLine?, lineReader_payloadPaths.indented, unindented_of_indent, presenceLine?]
  closing := by rw [presence_of_nil lineReader_payloadPaths.closing]; rfl
  otherwise := by rw [presence_of_nil lineReader_payloadPaths.otherwise]; rfl
  giveUp := by rw [presence_of_nil lineReader_payloadPaths.giveUp]; rfl

/-! ## Attributes -/

section Attributes

variable {protocol : String} {p : Position}

theorem flush_testLine : Flush (p.testLine protocol) := by
  simp [Flush, Position.testLine, opening]

theorem flush_setLine : Flush (p.setLine protocol) := by
  rw [Position.setLine, PresenceWidth.setStatement, PresenceWidth.cellOf]
  split <;> simp [Flush, Group.field, Place.text]

theorem flush_clearStatement (width : PresenceWidth) (place : Place) :
    Flush (width.clearStatement place.text) := by
  cases width <;> simp [Flush, PresenceWidth.clearStatement, Place.text]

/-- Members that store attributes or lead to groups are not named like bitfields. -/
theorem member_ne_presence {name : String} (h : IsWord name) :
    numberMember name ≠ presenceMember ∧ pointerMember name ≠ presenceMember ∧
      sizeMember name ≠ presenceMember ∧ Naming.groupMember name ≠ presenceMember := by
  have hlower : 'A' ∉ (Text.lower name).toList := h.capital_not_mem_lower rfl
  -- the capital that only the name of the bitfield holds
  have hapart {member : String} (hmember : 'A' ∉ member.toList) : member ≠ presenceMember :=
    fun heq => hmember (heq ▸ (by decide : 'A' ∈ presenceMember.toList))
  refine ⟨hapart hlower, hapart ?pointer, hapart ?size, hapart ?group⟩
  case pointer => simpa [pointerMember] using hlower
  case size => simpa [sizeMember] using hlower
  case group => simpa [Naming.groupMember] using hlower

variable (hprotocol : IsName protocol) (hpath : ∀ name ∈ p.path, IsName name)

include hpath

/-- The paths of members that store attributes do not end in bitfields. -/
theorem memberPaths_ne_presence (storage : Storage) :
    ∀ path ∈ p.memberPaths (p.loadMembers storage ++
        (p.decodeMembers storage ++ p.encodeMembers storage)),
      path.getLast? ≠ some presenceMember := by
  obtain ⟨hnumber, hpointer, hsize, -⟩ := member_ne_presence (isName_node hpath).isWord
  rw [Position.memberPaths, List.forall_mem_map]
  intro member hmember
  have hlast : (p.place member).path.getLast? = some member := List.getLast?_concat
  rw [hlast, ne_eq, Option.some_inj]
  rintro rfl
  cases storage <;>
    simp [Position.loadMembers, Position.decodeMembers, Position.encodeMembers, hnumber.symm,
      hpointer.symm, hsize.symm] at hmember

/-- Code that names only members that store attributes names no bitfield. -/
theorem presence_of_memberPaths {texts : List String} {members : List String} {storage : Storage}
    (hsubset : members ⊆ p.loadMembers storage ++
      (p.decodeMembers storage ++ p.encodeMembers storage))
    (h : texts.flatMap payloadPaths = p.memberPaths members) :
    texts.filterMap presenceLine? = [] := by
  refine filterMap_presence_eq_nil fun path hmem => ?_
  rw [h] at hmem
  obtain ⟨member, hmember, rfl⟩ := List.mem_map.mp hmem
  exact memberPaths_ne_presence hpath storage _ (List.mem_map_of_mem (hsubset hmember))

include hprotocol

theorem presence_testLine :
    presenceLine? (opening ("if " ++ (p.bit protocol).testText)) = some (p.testLine protocol) :=
  presence_of_path (payloadPaths_test hprotocol hpath) flush_testLine

/-- What a handler does for an attribute, read line by line. -/
theorem presence_loadTexts (storage : Storage) :
    (p.loadTexts protocol storage).filterMap presenceLine? =
      if p.node.optional then [p.testLine protocol] else [] := by
  have hown := presence_of_memberPaths hpath (List.subset_append_left _ _)
    (flatMap_ownLoads hpath protocol storage)
  have htest := presence_testLine hprotocol hpath
  have hnote := presence_of_nil (payloadPaths_note hpath)
  rw [Position.loadTexts, List.filterMap_append, hown, List.append_nil]
  split <;> simp [htest, hnote]

/-- What an encoder does for an attribute that is present, read line by line. -/
theorem presence_encodeTexts (storage : Storage) :
    (p.encodeTexts protocol storage).filterMap presenceLine? =
      if p.node.optional then [p.testLine protocol] else [] := by
  have hown := presence_of_memberPaths hpath
    (List.subset_append_of_subset_right _ (List.subset_append_right _ _))
    (flatMap_ownEncodes hprotocol hpath storage)
  have htest := presence_testLine hprotocol hpath
  have hheading := presence_of_nil (payloadPaths_heading hpath "Fill attribute " (by decide))
  rw [Position.encodeTexts, List.filterMap_cons_none hheading, List.filterMap_append, hown,
    List.append_nil]
  split <;> simp [htest]

omit hprotocol hpath in
/-- The bitfield of a group is cleared if the group has one. -/
theorem presence_clearGroup {group : Group} (h : ∀ name ∈ group.ancestors, IsName name) :
    ((clearGroup group.ancestors group.members).map Statement.text).filterMap presenceLine? =
      group.clearLines := by
  rw [clearGroup, Group.clearLines]
  split
  next =>
    have hremark : presenceLine? "// Initialize optional attribute flags bitfield" = none :=
      presence_of_nil (payloadPaths_eq_nil (by decide))
    have hpaths := payloadPaths_clear h (PresenceWidth.ofCount group.members.length)
    rw [Statement.text_clearPresence] at hpaths
    have hclear := presence_of_path hpaths (flush_clearStatement _ _)
    simp [hremark, hclear, Group.field]
  next => rfl

/-- What a decoder does for an attribute, read line by line. -/
theorem presence_decodeTexts (storage : Storage) :
    (p.decodeTexts protocol storage).filterMap presenceLine? =
      (if p.node.optional then [p.setLine protocol] else []) ++
        if storage = .nested then p.below.clearLines else [] := by
  have hset : presenceLine? (p.bit protocol).setText = some (p.setLine protocol) :=
    presence_of_path (payloadPaths_set hprotocol hpath) flush_setLine
  have hcarried (slot : Slot) := presence_of_nil (payloadPaths_carried hprotocol hpath slot)
  have hheading :=
    presence_of_nil (payloadPaths_heading hpath "Retrieve data of attribute " (by decide))
  have hown : ((p.ownDecodes protocol storage).map Statement.text).filterMap presenceLine? =
      if storage = .nested then p.below.clearLines else [] := by
    by_cases hnested : storage = .nested
    · subst hnested
      exact @presence_clearGroup p.below hpath
    · have hpaths := flatMap_ownDecodes hprotocol hpath storage
      rw [if_neg hnested, List.append_nil] at hpaths
      rw [if_neg hnested]
      exact presence_of_memberPaths hpath
        (List.subset_append_of_subset_right _ (List.subset_append_left _ _)) hpaths
  rw [Position.decodeTexts, List.filterMap_cons_none hheading, List.filterMap_append, hown]
  congr 1
  split <;> simp [hcarried, hset]

end Attributes

/-! ## Functions -/

section Functions

variable {protocol : Protocol} {cmd : Command} (hwell : WellFormed protocol)
  (hcmd : cmd ∈ protocol.commands)

include hwell hcmd

/-- What is read attribute by attribute, if every attribute is stored. -/
theorem filterMap_stored {texts : Position → Storage → List String}
    {own : Position → List String}
    (h : ∀ p ∈ cmd.positions, ∀ storage, p.node.dataType.storage = some storage →
      (texts p storage).filterMap presenceLine? = own p) :
    (cmd.positions.flatMap fun p =>
      (p.stored texts).flatMap fun line => (presenceLine? line).toList) =
        cmd.positions.flatMap own := by
  refine List.flatMap_congr fun p hp => ?_
  obtain ⟨-, -, storage, hstorage⟩ := stores_position hwell hcmd hp
  rw [← List.filterMap_eq_flatMap_toList, Position.stored_eq hstorage]
  exact h p hp storage hstorage

/-- The lines of a fresh handler that name bitfields: the tests. -/
theorem presence_stub :
    (Handler.stub protocol.name cmd).filterMap presenceLine? =
      (cmd.positions.filter (·.node.optional)).map (Position.testLine protocol.name) := by
  obtain ⟨hframe, hlocals⟩ := payloadPaths_handlerFrame hwell hcmd
  have hnone : (Handler.locals cmd).flatMap (fun l => (presenceLine? l.declaration).toList) = [] :=
    List.flatMap_eq_nil_iff.mpr fun l hl => by rw [presence_of_nil (hlocals l hl)]; rfl
  rw [List.filterMap_eq_flatMap_toList, lineReader_presence.flatMap_stub (hwell.regular hcmd)
    fun line hline => by rw [presence_of_nil (hframe line hline)]; rfl, hnone, List.nil_append,
    ← flatMap_kept]
  exact filterMap_stored hwell hcmd fun p hp storage _ => presence_loadTexts hwell.protocol_name
    (Command.isName_of_mem_path hwell hcmd hp) storage

/-- The lines of a decoder that name bitfields: each is cleared where its group begins, and the
bit of an optional attribute is set. -/
theorem presence_decoder :
    (Decoder.ofCommand protocol.name cmd).lines.filterMap presenceLine? =
      cmd.group.clearLines ++ cmd.positions.flatMap fun p =>
        (if p.node.optional then [p.setLine protocol.name] else []) ++
          if p.node.isComplex then p.below.clearLines else [] := by
  have hframe := payloadPaths_decoderFrame hwell hcmd
  rw [List.filterMap_eq_flatMap_toList, lineReader_presence.flatMap_decoder (hwell.regular hcmd)
    fun line hline => by rw [presence_of_nil (hframe line hline)]; rfl,
    ← List.filterMap_eq_flatMap_toList]
  have hclear := @presence_clearGroup cmd.group
    (List.forall_mem_singleton.mpr (hwell.command_names cmd hcmd))
  refine congr (congrArg _ hclear) (filterMap_stored hwell hcmd fun p hp storage hstorage => ?_)
  have hnested : storage = .nested ↔ p.node.isComplex = true := by
    rw [← Attribute.storage_eq_nested_iff, hstorage, Option.some_inj]
  rw [presence_decodeTexts hwell.protocol_name (Command.isName_of_mem_path hwell hcmd hp) storage]
  simp only [hnested]

/-- The lines of an encoder that name bitfields: the tests. -/
theorem presence_encoder :
    (Encoder.ofCommand protocol.name cmd).lines.filterMap presenceLine? =
      (cmd.positions.filter (·.node.optional)).map (Position.testLine protocol.name) := by
  obtain ⟨hframe, hallocation⟩ := payloadPaths_encoderFrame hwell hcmd
  have habsent := payloadPaths_absent hwell hcmd
  rw [List.filterMap_eq_flatMap_toList, lineReader_presence.flatMap_encoder (hwell.regular hcmd)
    (fun line hline => by rw [presence_of_nil (hframe line hline)]; rfl)
    (fun p hp slot => by rw [presence_of_nil (habsent p hp slot)]; rfl),
    presence_of_nil hallocation, ← flatMap_kept]
  exact filterMap_stored hwell hcmd fun p hp storage _ => presence_encodeTexts hwell.protocol_name
    (Command.isName_of_mem_path hwell hcmd hp) storage

end Functions

/-! ## The main header -/

/-- The flag of an optional attribute. -/
def flagOf (protocol : String) (p : Position) : PresenceFlag :=
  ⟨Naming.attributeFlag protocol p.group.parent p.node.name, p.group.width, p.index⟩

/-- The flags of a group in the main header are those of its optional attributes. -/
theorem flags_ofScope (protocol : String) (group : Group) :
    (ScopeNames.ofScope protocol group.scope).flags =
      (group.own.filter (·.node.optional)).map (flagOf protocol) := by
  dsimp only [ScopeNames.ofScope, Group.scope]
  rw [List.filter_map, List.map_map, List.length_map, Group.length_own]
  refine List.map_congr_left fun p hp => ?_
  obtain rfl := Group.group_of_mem_placed (List.mem_of_mem_filter hp)
  rfl

/-- The main header defines one flag for every optional attribute. -/
theorem flags_perm {protocol : Protocol} (hwell : WellFormed protocol) :
    ((MainHeader.build (Prepared.ofProtocol protocol) none).scopes.flatMap (·.flags)).Perm
      ((protocol.positions.filter (·.node.optional)).map (flagOf protocol.name)) := by
  have hpositions := ((positions_perm_groups hwell.children).filter (·.node.optional)).map
    (flagOf protocol.name)
  rw [List.filter_flatMap, List.map_flatMap] at hpositions
  rw [MainHeader.build, List.flatMap_map]
  refine ((scopes_perm_groups hwell).flatMap_right _).trans (List.Perm.trans ?_ hpositions.symm)
  rw [List.flatMap_map]
  exact List.Perm.of_eq (List.flatMap_congr fun group _ => flags_ofScope protocol.name group)

/-! ## All artifacts -/

/-- The declarations of presence bitfields in a type definition. -/
def Typedef.bitfields (type : Typedef) : List String :=
  type.members.filter fun text => (declaration? text).any (·.name == presenceMember)

/-- The declarations of bitfields in a struct with members that are spelled with words. -/
theorem bitfields_typedef {record : Record} (h : ∀ member ∈ record.members, member.Spelled) :
    record.typedef.bitfields =
      (record.members.filter (·.name == presenceMember)).map Member.declaration := by
  rw [Typedef.bitfields, Record.typedef, List.filter_map]
  congr 1
  refine List.filter_congr fun member hmember => ?_
  have hspelled := h member hmember
  rw [Function.comp_apply, (Member.read_declaration hspelled).1, Option.any_some,
    Member.name_declared hspelled]

/-- The struct of a group declares its bitfield if it has optional attributes, and the union
declares none. -/
theorem bitfields_build {protocol : Protocol} (hwell : WellFormed protocol) :
    (typedefs (typeLines (MainHeader.build (Prepared.ofProtocol protocol) none).lines)).map
        (fun type => (type.name, type.bitfields)) =
      (definedGroups protocol).map (fun group => (group.typeName protocol.name,
        if group.members.any (·.optional) then
          [(PresenceWidth.ofCount group.members.length).declaration]
        else [])) ++ [(Naming.payloadUnion protocol.name, [])] := by
  have hspelled := spelled_members hwell
  rw [typedefs_build hwell, Protocol.typedefs, Protocol.records, List.map_append, List.map_append,
    List.map_map, List.map_map]
  congr 1
  · refine List.map_congr_left fun group hgroup => Prod.ext rfl ?_
    have hgroup := mem_definedGroups.mp hgroup
    have hvalues : (group.members.flatMap (membersOf protocol.name group.parent)).filter
        (·.name == presenceMember) = [] := by
      rw [List.filter_eq_nil_iff]
      intro member hmember heq
      obtain ⟨att, hatt, hmember⟩ := List.mem_flatMap.mp hmember
      have hname := mem_names_membersOf.mp (List.mem_map_of_mem (f := (·.name)) hmember)
      rw [beq_iff_eq.mp heq] at hname
      exact not_isMemberName_presence
        ((named_of_mem_groups hwell hgroup).members att hatt).isWord hname
    refine (bitfields_typedef (hspelled _ (record_mem_records hgroup))).trans ?_
    rw [Group.record, Record.ofGroup, List.filter_append, hvalues, List.append_nil]
    split <;> rfl
  · have hnone : (Record.ofCarriers protocol.name protocol.carriers).members.filter
        (·.name == presenceMember) = [] := by
      rw [List.filter_eq_nil_iff, Record.ofCarriers]
      split
      · exact List.forall_mem_singleton.mpr (by decide)
      · rw [List.forall_mem_map]
        intro cmd hcmd heq
        have hname := hwell.command_names cmd (List.mem_of_mem_filter hcmd)
        exact (member_ne_presence hname.isWord).2.2.2 (beq_iff_eq.mp heq)
    have hunion := bitfields_typedef (hspelled _ (union_mem_records protocol))
    rw [hnone] at hunion
    exact congrArg (fun bitfields => [(Naming.payloadUnion protocol.name, bitfields)]) hunion

/-- Headers, handlers, decoders and encoders give an optional attribute the same bit: that of its
place among the members of its group. -/
structure PresenceAgreement (protocol : Protocol) (prepared : Prepared) : Prop where
  placed : ∀ p ∈ protocol.positions, p.group.members[p.index]? = some p.node
  defined : ((MainHeader.build prepared none).lines.filter isDefine).Perm
    (("#define " ++ includeGuard (Naming.mainHeaderFile protocol.name)) ::
      (protocol.positions.filter (·.node.optional)).map fun p =>
        "#define " ++ Naming.attributeFlag protocol.name p.group.parent p.node.name ++ " " ++
          (PresenceWidth.ofCount p.group.members.length).flagValue p.index)
  declared : (typedefs (typeLines (MainHeader.build prepared none).lines)).map
      (fun type => (type.name, type.bitfields)) =
    (definedGroups protocol).map (fun group => (group.typeName protocol.name,
      if group.members.any (·.optional) then
        [(PresenceWidth.ofCount group.members.length).declaration]
      else [])) ++ [(Naming.payloadUnion protocol.name, [])]
  handlers : ∀ role, ∀ cmd ∈ protocol.received role,
    Handler.stub protocol.name cmd <:+: (MainModule.build prepared role none).lines ∧
      (Handler.stub protocol.name cmd).filterMap presenceLine? =
        (cmd.positions.filter (·.node.optional)).map (Position.testLine protocol.name)
  decoders : ∀ role, ∀ cmd ∈ protocol.decoded role,
    (Decoder.ofCommand protocol.name cmd).lines <:+: (Bridge.build prepared role).lines ∧
      (Decoder.ofCommand protocol.name cmd).lines.filterMap presenceLine? =
        cmd.group.clearLines ++ cmd.positions.flatMap fun p =>
          (if p.node.optional then [p.setLine protocol.name] else []) ++
            if p.node.isComplex then p.below.clearLines else []
  encoders : ∀ role, ∀ cmd ∈ protocol.encoded role,
    (Encoder.ofCommand protocol.name cmd).lines <:+: (Bridge.build prepared role).lines ∧
      (Encoder.ofCommand protocol.name cmd).lines.filterMap presenceLine? =
        (cmd.positions.filter (·.node.optional)).map (Position.testLine protocol.name)

/-- All artifacts of a prepared protocol agree on the presence bits. -/
theorem presence_agreement {protocol : Protocol} {prepared : Prepared}
    (hprepare : prepare protocol = .ok prepared) : PresenceAgreement protocol prepared := by
  obtain ⟨rfl, hwell⟩ := wellFormed_of_prepare hprepare
  let prepared := Prepared.ofProtocol protocol
  have hmem {p : Command → Bool} {cmd : Command} (h : cmd ∈ protocol.commands.filter p) :
      cmd ∈ protocol.commands := List.mem_of_mem_filter h
  constructor
  case placed => exact fun p hp => (group_of_mem_positions hwell.children hp).2
  case defined =>
    rw [filter_isDefine_mainHeader]
    refine List.Perm.cons _ (((flags_perm hwell).map PresenceFlag.line).trans ?_)
    rw [List.map_map]
    exact List.Perm.refl _
  case declared => exact bitfields_build hwell
  case handlers =>
    exact fun role cmd hcmd =>
      ⟨@stub_emitted prepared role cmd hcmd, presence_stub hwell (hmem hcmd)⟩
  case decoders =>
    exact fun role cmd hcmd =>
      ⟨@decoder_emitted prepared role cmd hcmd, presence_decoder hwell (hmem hcmd)⟩
  case encoders =>
    exact fun role cmd hcmd =>
      ⟨@encoder_emitted prepared role cmd hcmd, presence_encoder hwell (hmem hcmd)⟩

theorem presence_agreement_meter :
    prepare meter = .ok (Prepared.ofProtocol meter) ∧
      PresenceAgreement meter (Prepared.ofProtocol meter) :=
  ⟨prepare_meter, presence_agreement prepare_meter⟩

end Firmware
end CommandSet
