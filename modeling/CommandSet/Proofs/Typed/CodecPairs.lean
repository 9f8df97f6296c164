import CommandSet.Proofs.Firmware.Visits
import CommandSet.Proofs.Typed.CodecFunctions

/-!
# Codec functions in pairs

What one role encodes, the other decodes.  For every group of attributes of a command that a
role sends, its module has a function that pushes the elements, and the module of the other
role has one that takes them.  The positions of the elements, the fields, the variants and the
expressions of the two agree.

Main definitions:

- {lit}`Undoes`: an expression that undoes another on values of a type.
- {lit}`Element`: an element that is pushed from the field it is taken into.
- {lit}`Inverse`: two functions of a group that are inverse element by element.
- {lit}`PairUp`: the functions of a sender and a receiver.

Main result:

- Theorem {lit}`codecs_inverse`: the functions of the two roles pair up.
-/

namespace CommandSet

namespace Typed

/-! ## Pairs -/

/-- Expressions that undo each other on values of a type; the functions of the group below an
attribute share a stem. -/
inductive Undoes (stem : String) : DataType → Packing → Unpacking → Prop where
  | byte : Undoes stem .uint8 .byte .byte
  | word : Undoes stem .uint16 .number (.narrowed "u16")
  | doubleWord : Undoes stem .uint32 .number (.narrowed "u32")
  | quadWord : Undoes stem .uint64 .number .number
  | single : Undoes stem .float32 .littleEndian (.littleEndian "f32" 4)
  | double : Undoes stem .float64 .littleEndian (.littleEndian "f64" 8)
  | bytes : Undoes stem .byteArray .bytes .bytes
  | text : Undoes stem .string .text .text
  | scope : Undoes stem .subAttributes (.scope ("encode_" ++ stem ++ "_payload"))
      (.scope ("decode_" ++ stem ++ "_payload"))

/-- The element of a member of a group, as it is pushed and as it is taken. -/
structure Element (group : Group) (index : Nat) (att : Attribute) (push : Push) (take : Take) :
    Prop where
  index : take.index = index
  push_field : push.field = snakeCase att.name
  take_field : take.field = push.field
  push_variant : push.variant = if att.isComplex then "SubAttArray" else "Data"
  take_variant : take.variant = push.variant
  push_optional : push.optional = att.optional
  take_optional : take.optional = att.optional
  value : Undoes (group.below att).stem att.dataType push.value take.value

/-- Functions of a group that are inverse element by element. -/
structure Inverse (group : Group) (encode : EncodeFunction) (decode : DecodeFunction) :
    Prop where
  encode_name : encode.name = "encode_" ++ group.stem ++ "_payload"
  decode_name : decode.name = "decode_" ++ group.stem ++ "_payload"
  encode_type : encode.typeName = group.payloadType
  decode_type : decode.typeName = group.payloadType
  capacity : encode.capacity = group.members.length
  pushes : encode.pushes.length = group.members.length
  takes : decode.takes.length = group.members.length
  elements : ∀ index att, group.members[index]? = some att → ∃ push take,
    encode.pushes[index]? = some push ∧ decode.takes[index]? = some take ∧
      Element group index att push take

/-- The functions of a sender and a receiver are those of some groups, in pairs, and the group
below a complex attribute is one of them. -/
structure PairUp (groups : List Group) (sender receiver : List String) : Prop where
  functions : ∃ pairs : List (EncodeFunction × DecodeFunction),
    encodeFunctions sender = pairs.map (some ·.1) ∧
      decodeFunctions receiver = pairs.map (some ·.2) ∧
        List.Forall₂ (fun group pair => Inverse group pair.1 pair.2) groups pairs
  below : ∀ group ∈ groups, ∀ att ∈ group.members, att.isComplex = true →
    group.below att ∈ groups

section Members

variable {group : Group}

theorem element_of_storage (hgroup : group.ancestors ≠ []) {att : Attribute} {storage : Storage}
    (h : att.dataType.storage = some storage) (index : Nat) :
    Element group index att
      (FieldEncoder.push ⟨snakeCase att.name, ElementSlot.ofStorage storage, att.optional,
        EncodeExpr.ofStorage storage group.parent att.name⟩)
      (FieldDecoder.take ⟨index, ElementSlot.ofStorage storage, snakeCase att.name, att.optional,
        DecodeExpr.ofStorage storage group.parent att.name⟩) := by
  have hcomplex : att.isComplex = (att.dataType == .subAttributes) := rfl
  constructor
  case value =>
    rw [Group.stem_below hgroup]
    cases htype : att.dataType <;> rw [htype] at h <;> cases h <;> constructor
  case push_variant =>
    rw [hcomplex]
    cases htype : att.dataType <;> rw [htype] at h <;> cases h <;> rfl
  case take_variant => cases htype : att.dataType <;> rw [htype] at h <;> cases h <;> rfl
  all_goals rfl

/-- The members of a group are pushed and taken one after the other. -/
theorem elements_of_members (hgroup : group.ancestors ≠ []) {atts : List Attribute}
    (htypes : ∀ att ∈ atts, att.dataType ≠ .unknown) (index : Nat) :
    (atts.filterMap (FieldEncoder.ofAttribute group.parent)).length = atts.length ∧
      (FieldDecoder.ofAttributes group.parent index atts).length = atts.length ∧
      ∀ place att, atts[place]? = some att → ∃ encoder decoder,
        (atts.filterMap (FieldEncoder.ofAttribute group.parent))[place]? = some encoder ∧
          (FieldDecoder.ofAttributes group.parent index atts)[place]? = some decoder ∧
            Element group (index + place) att encoder.push decoder.take := by
  induction atts generalizing index with
  | nil => exact ⟨rfl, rfl, nofun⟩
  | cons att atts ih =>
      rw [List.forall_mem_cons] at htypes
      obtain ⟨hpushes, htakes, helements⟩ := ih htypes.2 (index + 1)
      obtain ⟨storage, hstorage⟩ : ∃ storage, att.dataType.storage = some storage := by
        cases htype : att.dataType <;> first | exact absurd htype htypes.1 | exact ⟨_, rfl⟩
      have hencoder : FieldEncoder.ofAttribute group.parent att =
          some ⟨snakeCase att.name, ElementSlot.ofStorage storage, att.optional,
            EncodeExpr.ofStorage storage group.parent att.name⟩ := by
        rw [FieldEncoder.ofAttribute, hstorage]
        rfl
      rw [List.filterMap_cons_some hencoder, FieldDecoder.ofAttributes, hstorage,
        List.singleton_append]
      refine ⟨congrArg (· + 1) hpushes, congrArg (· + 1) htakes, fun place member hmember => ?_⟩
      cases place with
      | zero =>
          obtain rfl := Option.some.inj hmember
          exact ⟨_, _, rfl, rfl, element_of_storage hgroup hstorage index⟩
      | succ place =>
          have helement := helements place member hmember
          rwa [Nat.add_right_comm] at helement

/-- The functions of a group are inverse. -/
theorem inverse_ofGroup (hgroup : group.ancestors ≠ [])
    (htypes : ∀ att ∈ group.members, att.dataType ≠ .unknown) :
    Inverse group (Encoder.ofGroup group).function (Decoder.ofGroup group).function := by
  obtain ⟨hpushes, htakes, helements⟩ := elements_of_members hgroup htypes 0
  constructor
  case pushes => exact (List.length_map _).trans hpushes
  case takes => exact (List.length_map _).trans htakes
  case elements =>
    intro index att hatt
    obtain ⟨encoder, decoder, hencoder, hdecoder, helement⟩ := helements index att hatt
    rw [Nat.zero_add] at helement
    refine ⟨encoder.push, decoder.take, ?_, ?_, helement⟩
    · exact List.getElem?_map.trans (congrArg (Option.map FieldEncoder.push) hencoder)
    · exact List.getElem?_map.trans (congrArg (Option.map FieldDecoder.take) hdecoder)
  all_goals rfl

end Members

/-! ## Names of functions and fields -/

theorem isLexeme_encoderName {stem : String} (h : IsWord stem) :
    IsLexeme (Encoder.name stem).toList := by
  refine IsWord.isLexeme (((IsWord.fixed rfl : IsWord "encode_").append h).append
    (IsWord.fixed rfl : IsWord "_payload")) ?_
  rw [Encoder.name, String.toList_append, String.toList_append, String.toList_ofList]
  exact List.cons_ne_nil _ _

theorem isLexeme_decoderName {stem : String} (h : IsWord stem) :
    IsLexeme (Decoder.name stem).toList := by
  refine IsWord.isLexeme (((IsWord.fixed rfl : IsWord "decode_").append h).append
    (IsWord.fixed rfl : IsWord "_payload")) ?_
  rw [Decoder.name, String.toList_append, String.toList_append, String.toList_ofList]
  exact List.cons_ne_nil _ _

theorem isLexeme_field {name : String} (h : IsName name) : IsLexeme (snakeCase name).toList :=
  (isWord_snakeCase h.isWord).isLexeme h.snakeCase_ne_nil

section Named

variable {parent : String} {atts : List Attribute}

theorem isLexical_fieldEncoders (hparent : IsName parent) (hnames : ∀ att ∈ atts, IsName att.name) :
    ∀ encoder ∈ atts.filterMap (FieldEncoder.ofAttribute parent), encoder.IsLexical := by
  intro encoder hencoder
  obtain ⟨att, hatt, hbuild⟩ := List.mem_filterMap.mp hencoder
  obtain ⟨storage, -, rfl⟩ := Option.map_eq_some_iff.mp hbuild
  refine ⟨isLexeme_field (hnames att hatt), ?_⟩
  have hname := isLexeme_encoderName (isWord_nestedStem hparent (hnames att hatt))
  cases storage with
  | nested => exact List.forall_mem_singleton.mpr hname
  | scalar scalar => cases scalar <;> exact List.forall_mem_nil _
  | bytes | text => exact List.forall_mem_nil _

theorem isLexical_fieldDecoders (hparent : IsName parent) (hnames : ∀ att ∈ atts, IsName att.name)
    (index : Nat) : ∀ decoder ∈ FieldDecoder.ofAttributes parent index atts, decoder.IsLexical := by
  intro decoder hdecoder
  obtain ⟨place, att, hatt, storage, -, rfl⟩ := FieldDecoder.exists_of_mem hdecoder
  refine ⟨isLexeme_field (hnames att hatt), ?_⟩
  have hname := isLexeme_decoderName (isWord_nestedStem hparent (hnames att hatt))
  cases storage with
  | nested => exact List.forall_mem_singleton.mpr hname
  | scalar scalar => cases scalar <;> exact List.forall_mem_nil _
  | bytes | text => exact List.forall_mem_nil _

theorem isLexeme_payloadType {group : Group} (h : group.Named) :
    IsLexeme group.payloadType.toList :=
  h.isWord_payloadType.isLexeme h.payloadType_ne_nil

theorem isLexical_encoder {group : Group} (h : group.Named) :
    (Encoder.ofGroup group).IsLexical :=
  ⟨isLexeme_encoderName h.isWord_stem, isLexeme_payloadType h,
    isLexical_fieldEncoders h.parent h.members⟩

theorem isLexical_decoder {group : Group} (h : group.Named) :
    (Decoder.ofGroup group).IsLexical :=
  ⟨isLexeme_decoderName h.isWord_stem, isLexeme_payloadType h,
    isLexical_fieldDecoders h.parent h.members 0⟩

end Named

/-! ## The two roles -/

/-- For every protocol that code is generated from, what either role sends has functions in
pairs. -/
theorem codecs_inverse {protocol : Protocol} {prepared : Prepared}
    (hprepare : prepare protocol = .ok prepared) (role : Role) :
    PairUp (encodedGroups protocol role) (Bridge.build prepared role).lines
      (Bridge.build prepared role.other).lines := by
  obtain ⟨rfl, hwell⟩ := wellFormed_of_prepare hprepare
  have hnamed : ∀ group ∈ encodedGroups protocol role, group.Named := fun group hgroup =>
    named_of_mem_groups hwell (mem_groups_of_mem_encodedGroups hgroup)
  constructor
  case functions =>
    refine ⟨(encodedGroups protocol role).map fun group =>
      ((Encoder.ofGroup group).function, (Decoder.ofGroup group).function), ?_, ?_, ?_⟩
    · rw [encodeFunctions_lines, encoders_eq hwell, List.map_map, List.map_map]
      · rfl
      · rw [encoders_eq hwell, List.forall_mem_map]
        exact fun group hgroup => isLexical_encoder (hnamed group hgroup)
    · rw [decodeFunctions_lines, decoders_eq hwell, decodedGroups_other, List.map_map,
        List.map_map]
      · rfl
      · rw [decoders_eq hwell, decodedGroups_other, List.forall_mem_map]
        exact fun group hgroup => isLexical_decoder (hnamed group hgroup)
    · rw [List.forall₂_map_right_iff, List.forall₂_same]
      intro group hgroup
      refine inverse_ofGroup (hnamed group hgroup).ancestors_ne_nil fun att hatt => ?_
      exact hwell.types att (mem_attributes_of_mem_members hwell.children
        (mem_groups_of_mem_encodedGroups hgroup) hatt)
  case below =>
    exact fun group hgroup att hatt hcomplex => below_mem_flatMap_groups hgroup hatt hcomplex

theorem codecs_inverse_meter :
    prepare meter = .ok (Prepared.ofProtocol meter) ∧ ∀ role,
      PairUp (encodedGroups meter role) (Bridge.build (Prepared.ofProtocol meter) role).lines
        (Bridge.build (Prepared.ofProtocol meter) role.other).lines :=
  ⟨prepare_meter, codecs_inverse prepare_meter⟩

end Typed
end CommandSet
