import CommandSet.Proofs.Typed.ResolvedLines

/-!
# Functions that refer

The functions of a bridge module call each other along the groups of a command, and functions on
numbers of variable length for their fields.  What an expression calls stands in its form, or
fills one of the holes there.

Main definitions:

- {lit}`DecodeExpr.numbers`, {lit}`EncodeExpr.numbers`: the functions on numbers that an
  expression calls.

Main results:

- Theorems {lit}`resolves_decoder`, {lit}`resolves_encoder`: the functions of a group.
- Theorem {lit}`resolves_lines`: where the names of a role are supplied, all lines of its module
  refer to them, but those that import.
-/

namespace CommandSet
namespace Typed

/-! ## Expressions of decoders -/

namespace DecodeExpr

/-- The functions on numbers that an expression calls. -/
def numbers : DecodeExpr → List (List Char)
  | narrowed _ | wide => ["vle_decode".toList]
  | _ => []

/-- Numbers of variable length are decoded by their function. -/
theorem numbers_ofStorage {att : Attribute} {storage : Storage}
    (h : att.dataType.storage = some storage) (parent name : String) :
    (ofStorage storage parent name).numbers =
      if usesVariableLength att then ["vle_decode".toList] else [] := by
  rw [usesVariableLength, h]
  cases storage with
  | scalar scalar => cases scalar <;> rfl
  | _ => rfl

/-- How the names in the form of an expression are used. -/
def contexts : DecodeExpr → List (Bool × Bool)
  | narrowed _ => [(false, true), (false, true)]
  | littleEndian _ => [(false, true), (false, true), (false, true)]
  | nested _ => [(true, true), (false, true)]
  | _ => [(false, true)]

/-- The form of the line that sets a field. -/
def setForm (optional : Bool) (expr : DecodeExpr) : List Token :=
  setFront optional ++ (tokens expr.form ++ setBack optional)

theorem suits_setForm (optional : Bool) (expr : DecodeExpr) :
    suits expr.numbers ((false, true) :: expr.contexts) (expr.setForm optional) = true := by
  cases optional <;> cases expr <;> dsimp only [setForm, setFront, setBack, form] <;>
    simp only [Bool.false_eq_true, if_false, if_true] <;> (repeat rw [tokens_ofList]) <;>
    dsimp only [numbers, contexts] <;> (try rw [String.toList_ofList]) <;> rfl

end DecodeExpr

/-! ## Expressions of encoders -/

namespace EncodeExpr

/-- The functions on numbers that an expression calls. -/
def numbers : EncodeExpr → List (List Char)
  | variableLength => ["vle_encode".toList]
  | _ => []

/-- Numbers of variable length are encoded by their function. -/
theorem numbers_ofStorage {att : Attribute} {storage : Storage}
    (h : att.dataType.storage = some storage) (parent name : String) :
    (ofStorage storage parent name).numbers =
      if usesVariableLength att then ["vle_encode".toList] else [] := by
  rw [usesVariableLength, h]
  cases storage with
  | scalar scalar => cases scalar <;> rfl
  | _ => rfl

/-- How the functions that an expression calls by a name of the protocol are used. -/
def contexts : EncodeExpr → List (Bool × Bool)
  | nested _ => [(true, true)]
  | _ => []

/-- The form of the line with the element of a mandatory field. -/
def mandatoryForm (expr : EncodeExpr) : List Token :=
  fillTokens (tokens "payload: LcsfValidAttPayload::@(" ++ (tokens expr.fieldForm ++ tokens "),"))
    [expr.variant.toList]

/-- The form of the line with the element of the value of an optional field. -/
def presentForm (expr : EncodeExpr) : List Token :=
  fillTokens
    (tokens "Some(value) => LcsfValidAttPayload::@(" ++ (tokens expr.valueForm ++ tokens "),"))
    [expr.variant.toList]

theorem suits_mandatoryForm (expr : EncodeExpr) :
    suits expr.numbers (expr.contexts ++ [(false, true)]) expr.mandatoryForm = true := by
  cases expr <;> dsimp only [mandatoryForm, fieldForm, variant] <;>
    (repeat rw [tokens_ofList]) <;> dsimp only [numbers, contexts] <;>
    (repeat rw [String.toList_ofList]) <;> rfl

theorem suits_presentForm (expr : EncodeExpr) :
    suits expr.numbers expr.contexts expr.presentForm = true := by
  cases expr <;> dsimp only [presentForm, valueForm, variant] <;>
    (repeat rw [tokens_ofList]) <;> dsimp only [numbers, contexts] <;>
    (repeat rw [String.toList_ofList]) <;> rfl

end EncodeExpr

/-! ## Fields -/

section Fields

variable {names : ModuleNames}

/-- The form of the line that looks at an element. -/
def ElementSlot.form (optional : Bool) (slot : ElementSlot) : List Token :=
  fillTokens (lookForm optional) [slot.variant.toList]

theorem ElementSlot.suits_form (optional : Bool) (slot : ElementSlot) :
    suits [] [(false, true), (false, true)] (slot.form optional) = true := by
  cases optional <;> cases slot <;> dsimp only [form, lookForm, variant] <;>
    simp only [Bool.false_eq_true, if_false, if_true] <;> (repeat rw [tokens_ofList]) <;>
    (repeat rw [String.toList_ofList]) <;> rfl

theorem fits_binding (slot : ElementSlot) : Fits names (false, true) slot.binding.toList := by
  cases slot <;> exact fits_fixed rfl

/-- The line that looks at an element. -/
theorem resolves_look {slot : ElementSlot} {index : Nat} (optional : Bool) {line : String}
    (hline : tokens line = fillTokens (lookForm optional)
      [slot.variant.toList, slot.binding.toList, (toString index).toList]) :
    Resolves names line := by
  refine resolves_of_tokens ?_ (slot.suits_form optional) (List.forall_mem_nil _) ?_
    (.cons (fits_binding slot) (.cons (fits_toString index) .nil))
  · rw [hline, fillTokens_cons]
    rfl
  · exact (List.forall_mem_cons.mp slot.isLexeme_look).2

/-- The lines of a field decoder. -/
theorem resolves_fieldDecoder {decoder : FieldDecoder} (h : decoder.IsLexical)
    (hfield : Fits names (false, true) decoder.field.toList)
    (hvalue : List.Forall₂ (Fits names) decoder.value.contexts
      (decoder.value.names decoder.slot.binding.toList))
    (hnumbers : ∀ name ∈ decoder.value.numbers, IsNumberName name ∧ name ∈ names.imports) :
    ∀ line ∈ decoder.lines, Resolves names line := by
  have hlexemes : ∀ word ∈ decoder.field.toList :: decoder.value.names decoder.slot.binding.toList,
      IsLexeme word := List.forall_mem_cons.mpr ⟨h.field,
    DecodeExpr.isLexeme_names decoder.slot.isLexeme_binding h.functions⟩
  have hset (optional : Bool) {line : String}
      (hline : tokens line = fillTokens (setFront optional) [decoder.field.toList] ++
        (fillTokens (tokens decoder.value.form)
          (decoder.value.names decoder.slot.binding.toList) ++ setBack optional)) :
      Resolves names line := by
    have hform : (tokens decoder.value.form).count (.mark '@') =
        (decoder.value.names decoder.slot.binding.toList).length := by
      cases decoder.value <;> dsimp only [DecodeExpr.form, DecodeExpr.names] <;>
        rw [tokens_ofList] <;> rfl
    refine resolves_of_tokens ?_ (decoder.value.suits_setForm optional) hnumbers hlexemes
      (.cons hfield hvalue)
    rw [hline, ← fillTokens_between (count_setFront optional) hform]
    rfl
  unfold FieldDecoder.lines
  dsimp only
  split
  next hoptional =>
    simp only [List.forall_mem_cons]
    exact ⟨resolves_look true (tokens_look_optional _ _), hset true (tokens_set_optional h),
      resolves_indent resolves_closing, List.forall_mem_nil _⟩
  next hmandatory =>
    simp only [List.forall_mem_cons]
    exact ⟨resolves_look false (tokens_look_mandatory _ _), resolves_indent (resolves_fixed rfl),
      resolves_indent (resolves_closing_append rfl), hset false (tokens_set_mandatory h),
      List.forall_mem_nil _⟩

/-- The lines of a field encoder. -/
theorem resolves_fieldEncoder {encoder : FieldEncoder} (h : encoder.IsLexical)
    (hfield : Fits names (false, true) encoder.field.toList)
    (hvalue : List.Forall₂ (Fits names) encoder.value.contexts encoder.value.functions)
    (hnumbers : ∀ name ∈ encoder.value.numbers, IsNumberName name ∧ name ∈ names.imports) :
    ∀ line ∈ encoder.lines, Resolves names line := by
  have hhead : Resolves names (opening ("payload: match &payload." ++ encoder.field)) :=
    Pieces.resolves (.append (.append (.fixed rfl) (.word hfield)) (.fixed rfl)) rfl
  have hpresent : Resolves names
      (indent 3 ("Some(value) => " ++ encoder.value.render "value" true ++ ",")) := by
    refine resolves_of_tokens ?_ encoder.value.suits_presentForm hnumbers h.functions hvalue
    rw [tokens_present h, EncodeExpr.presentForm, ← fillTokens_cons]
    refine (@fillTokens_between _ _ [_] encoder.value.functions ?_ ?_ _).symm
    · rw [tokens_ofList]
      rfl
    · cases encoder.value <;> rw [EncodeExpr.valueForm, tokens_ofList] <;> rfl
  have hmandatory : Resolves names (indent 2
      ("payload: " ++ encoder.value.render ("payload." ++ encoder.field) false ++ ",")) := by
    have hlexemes : ∀ word ∈ encoder.value.functions ++ [encoder.field.toList], IsLexeme word :=
      List.forall_mem_append.mpr ⟨h.functions, List.forall_mem_singleton.mpr h.field⟩
    refine resolves_of_tokens ?_ encoder.value.suits_mandatoryForm hnumbers hlexemes
      (List.rel_append hvalue (.cons hfield .nil))
    rw [tokens_mandatory h, EncodeExpr.mandatoryForm, ← fillTokens_cons]
    refine (@fillTokens_between _ _ [_] (_ ++ _) ?_ ?_ _).symm
    · rw [tokens_ofList]
      rfl
    · cases encoder.value <;> rw [EncodeExpr.fieldForm, tokens_ofList] <;> rfl
  unfold FieldEncoder.lines
  split
  · simp only [List.forall_mem_append, List.forall_mem_cons]
    exact ⟨⟨⟨resolves_indent (resolves_fixed rfl), List.forall_mem_nil _⟩, resolves_indent hhead,
      hpresent, resolves_indent (resolves_fixed rfl), resolves_indent (resolves_closing_append rfl),
      List.forall_mem_nil _⟩, resolves_indent (resolves_closing_append rfl), List.forall_mem_nil _⟩
  · simp only [List.forall_mem_append, List.forall_mem_cons]
    exact ⟨⟨⟨resolves_indent (resolves_fixed rfl), List.forall_mem_nil _⟩, hmandatory,
      List.forall_mem_nil _⟩, resolves_indent (resolves_closing_append rfl), List.forall_mem_nil _⟩

end Fields

/-! ## Functions of groups -/

section Storage

variable {names : ModuleNames} {storage : Storage} {parent name : String}

/-- The names in an expression that decodes a stored value. -/
theorem fits_decodeExpr (hbelow : storage = .nested →
      Fits names (true, true) (Decoder.name (nestedStem parent name)).toList) :
    List.Forall₂ (Fits names) (DecodeExpr.ofStorage storage parent name).contexts
      ((DecodeExpr.ofStorage storage parent name).names
        (ElementSlot.ofStorage storage).binding.toList) := by
  have hbinding : List.Forall₂ (Fits names) [(false, true)]
      [(ElementSlot.ofStorage storage).binding.toList] := .cons (fits_binding _) .nil
  have htype (scalar : Scalar) : Fits names (false, true) scalar.typedName.toList := by
    cases scalar <;> exact fits_fixed rfl
  cases storage with
  | scalar scalar =>
      cases scalar with
      | u8 | u64 => exact hbinding
      | u16 | u32 => exact .cons (htype _) hbinding
      | f32 | f64 => exact .cons (htype _) (.cons (fits_binding _) (.cons (fits_toString _) .nil))
  | bytes | text => exact hbinding
  | nested => exact .cons (hbelow rfl) hbinding

/-- The functions in an expression that encodes a stored value. -/
theorem fits_encodeExpr (hbelow : storage = .nested →
      Fits names (true, true) (Encoder.name (nestedStem parent name)).toList) :
    List.Forall₂ (Fits names) (EncodeExpr.ofStorage storage parent name).contexts
      (EncodeExpr.ofStorage storage parent name).functions := by
  cases storage with
  | scalar scalar => cases scalar <;> exact .nil
  | bytes | text => exact .nil
  | nested => exact .cons (hbelow rfl) .nil

end Storage

section Groups

variable {names : ModuleNames} {protocol : Protocol} {role : Role} {group : Group}

/-- The function that decodes a group is a function of the module. -/
theorem fits_decoder (hsupplies : Supplies names protocol role) (hwell : WellFormed protocol)
    (hgroup : group ∈ decodedGroups protocol role) :
    Fits names (true, true) (Decoder.name group.stem).toList :=
  fits_decoderName (named_of_mem_groups hwell (mem_groups_of_mem_decodedGroups hgroup))
    (hsupplies.decoders group hgroup)

/-- The function that encodes a group is a function of the module. -/
theorem fits_encoder (hsupplies : Supplies names protocol role) (hwell : WellFormed protocol)
    (hgroup : group ∈ encodedGroups protocol role) :
    Fits names (true, true) (Encoder.name group.stem).toList :=
  fits_encoderName (named_of_mem_groups hwell (mem_groups_of_mem_encodedGroups hgroup))
    (hsupplies.encoders group hgroup)

/-- The lines that decode the members of a group. -/
theorem resolves_fieldDecoders (hsupplies : Supplies names protocol role)
    (hwell : WellFormed protocol) (hgroup : group ∈ decodedGroups protocol role) :
    ∀ decoder ∈ (Decoder.ofGroup group).fields, ∀ line ∈ decoder.lines, Resolves names line := by
  have hnamed := named_of_mem_groups hwell (mem_groups_of_mem_decodedGroups hgroup)
  intro decoder hdecoder
  have hlexical := isLexical_fieldDecoders hnamed.parent hnamed.members 0 decoder hdecoder
  obtain ⟨place, att, hatt, storage, hstorage, rfl⟩ := FieldDecoder.exists_of_mem hdecoder
  have hbelow : storage = .nested →
      Fits names (true, true) (Decoder.name (nestedStem group.parent att.name)).toList := by
    rintro rfl
    rw [← Group.stem_below hnamed.ancestors_ne_nil]
    exact fits_decoder hsupplies hwell
      (below_mem_flatMap_groups hgroup hatt (isComplex_of_storage hstorage))
  refine resolves_fieldDecoder hlexical (fits_field (hnamed.members att hatt))
    (fits_decodeExpr hbelow) fun name hname => ?_
  rw [FieldDecoder.ofStorage, DecodeExpr.numbers_ofStorage hstorage] at hname
  split at hname
  next huses =>
    obtain rfl := List.mem_singleton.mp hname
    exact ⟨.inl rfl, hsupplies.decoding group hgroup att hatt huses⟩
  next => exact absurd hname List.not_mem_nil

/-- The lines that encode the members of a group. -/
theorem resolves_fieldEncoders (hsupplies : Supplies names protocol role)
    (hwell : WellFormed protocol) (hgroup : group ∈ encodedGroups protocol role) :
    ∀ encoder ∈ (Encoder.ofGroup group).fields, ∀ line ∈ encoder.lines, Resolves names line := by
  have hnamed := named_of_mem_groups hwell (mem_groups_of_mem_encodedGroups hgroup)
  intro encoder hencoder
  have hlexical := isLexical_fieldEncoders hnamed.parent hnamed.members encoder hencoder
  obtain ⟨att, hatt, hbuild⟩ := List.mem_filterMap.mp hencoder
  obtain ⟨storage, hstorage, rfl⟩ := Option.map_eq_some_iff.mp hbuild
  have hbelow : storage = .nested →
      Fits names (true, true) (Encoder.name (nestedStem group.parent att.name)).toList := by
    rintro rfl
    rw [← Group.stem_below hnamed.ancestors_ne_nil]
    exact fits_encoder hsupplies hwell
      (below_mem_flatMap_groups hgroup hatt (isComplex_of_storage hstorage))
  refine resolves_fieldEncoder hlexical (fits_field (hnamed.members att hatt))
    (fits_encodeExpr hbelow) fun name hname => ?_
  rw [EncodeExpr.numbers_ofStorage hstorage] at hname
  split at hname
  next huses =>
    obtain rfl := List.mem_singleton.mp hname
    exact ⟨.inr rfl, hsupplies.encoding group hgroup att hatt huses⟩
  next => exact absurd hname List.not_mem_nil

/-- The lines of a decoder. -/
theorem resolves_decoder (hsupplies : Supplies names protocol role) (hwell : WellFormed protocol)
    (hgroup : group ∈ decodedGroups protocol role) :
    ∀ line ∈ (Decoder.ofGroup group).lines, Resolves names line := by
  have hmem := mem_groups_of_mem_decodedGroups hgroup
  have htype {called : Bool} : Fits names (called, true) group.payloadType.toList :=
    fits_payloadType (named_of_mem_groups hwell hmem) (hsupplies.structs group hmem)
  have hhead {name type : String} (hname : Fits names (true, true) name.toList)
      (htype : Fits names (false, true) type.toList) :
      Resolves names (opening
        ("fn " ++ name ++ "(att_arr: &[LcsfValidAtt]) -> Option<" ++ type ++ ">")) :=
    Pieces.resolves (.append (.append (.append (.append (.append (.fixed rfl) (.word hname))
      (.fixed rfl)) (.word htype)) (.fixed rfl)) (.fixed rfl)) rfl
  have hfirst {type : String} (htype : Fits names (false, true) type.toList) :
      Resolves names ("let mut payload = " ++ type ++ "::default();") :=
    Pieces.resolves (.append (.append (.fixed rfl) (.word htype)) (.fixed rfl)) rfl
  simp only [Decoder.lines, List.forall_mem_append, List.forall_mem_cons, List.forall_mem_flatMap]
  exact ⟨⟨⟨hhead (fits_decoder hsupplies hwell hgroup) htype, resolves_indent (hfirst htype),
    List.forall_mem_nil _⟩, resolves_fieldDecoders hsupplies hwell hgroup⟩,
    resolves_indent (resolves_fixed rfl), resolves_closing, resolves_blank, List.forall_mem_nil _⟩

/-- The lines of an encoder. -/
theorem resolves_encoder (hsupplies : Supplies names protocol role) (hwell : WellFormed protocol)
    (hgroup : group ∈ encodedGroups protocol role) :
    ∀ line ∈ (Encoder.ofGroup group).lines, Resolves names line := by
  have hmem := mem_groups_of_mem_encodedGroups hgroup
  have htype : Fits names (false, true) group.payloadType.toList :=
    fits_payloadType (named_of_mem_groups hwell hmem) (hsupplies.structs group hmem)
  have hhead {name type : String} (hname : Fits names (true, true) name.toList)
      (htype : Fits names (false, true) type.toList) :
      Resolves names (opening
        ("fn " ++ name ++ "(payload: &" ++ type ++ ") -> Vec<LcsfValidAtt>")) :=
    Pieces.resolves (.append (.append (.append (.append (.append (.fixed rfl) (.word hname))
      (.fixed rfl)) (.word htype)) (.fixed rfl)) (.fixed rfl)) rfl
  have hfirst {capacity : String} (hcapacity : Fits names (false, true) capacity.toList) :
      Resolves names ("let mut att_arr = Vec::with_capacity(" ++ capacity ++ ");") :=
    Pieces.resolves (.append (.append (.fixed rfl) (.word hcapacity)) (.fixed rfl)) rfl
  simp only [Encoder.lines, List.forall_mem_append, List.forall_mem_cons, List.forall_mem_flatMap]
  exact ⟨⟨⟨hhead (fits_encoder hsupplies hwell hgroup) htype,
    resolves_indent (hfirst (fits_toString _)), List.forall_mem_nil _⟩,
    resolves_fieldEncoders hsupplies hwell hgroup⟩, resolves_indent (resolves_fixed rfl),
    resolves_closing, resolves_blank, List.forall_mem_nil _⟩

end Groups

/-! ## Functions of commands -/

section Commands

variable {names : ModuleNames} {protocol : Protocol} {role : Role}

/-- The arms of decoding. -/
theorem resolves_decodeArms (hsupplies : Supplies names protocol role)
    (hwell : WellFormed protocol) :
    ∀ arm ∈ decodeArms protocol.commands (protocol.decoded role),
      Resolves names (arm.1.text ++ " => " ++ arm.2.text ++ ",") := by
  have hdecoded {variant function : String}
      (hvariant : ∀ called, Fits names (called, false) variant.toList)
      (hfunction : Fits names (true, true) function.toList) :
      Resolves names ("CmdEnum::" ++ variant ++ " => " ++
        ("CmdPayload::" ++ variant ++ "(" ++ function ++ "(&valid_cmd.att_arr)?)") ++ ",") :=
    Pieces.resolves (.append (.append (.append (.append (.fixed rfl) (.word (hvariant false)))
      (.fixed rfl)) (.append (.append (.append (.append (.fixed rfl) (.word (hvariant true)))
        (.fixed rfl)) (.word hfunction)) (.fixed rfl))) (.fixed rfl)) rfl
  have hrest : Resolves names ("_" ++ " => " ++ "CmdPayload::Empty" ++ ",") :=
    Pieces.resolves
      (.append (.append (.append (.fixed rfl) (.fixed rfl)) (.fixed rfl)) (.fixed rfl)) rfl
  refine List.forall_mem_append.mpr ⟨List.forall_mem_map.mpr fun cmd hcmd => ?_, ?_⟩
  · have hgroup : cmd.group ∈ decodedGroups protocol role :=
      List.mem_flatMap.mpr ⟨cmd, hcmd, List.mem_cons_self⟩
    have hfunction : Fits names (true, true) (Decoder.name cmd.group.stem).toList :=
      fits_decoder hsupplies hwell hgroup
    have harm := hdecoded
      (fun _ => fits_variant (hwell.command_names cmd (List.mem_of_mem_filter hcmd))) hfunction
    exact harm
  · split
    · exact List.forall_mem_singleton.mpr hrest
    · exact List.forall_mem_nil _

/-- The arms of encoding. -/
theorem resolves_encodeArms (hsupplies : Supplies names protocol role) (hwell : WellFormed protocol)
    (attributes : Bool) : ∀ arm ∈ encodeArms attributes (protocol.encoded role),
      Resolves names (arm.line EncodeResult.text) := by
  have hencoded {variant function : String}
      (hvariant : ∀ called, Fits names (called, false) variant.toList)
      (hfunction : Fits names (true, true) function.toList) :
      Resolves names ("(" ++ ("CmdEnum::" ++ variant) ++ ", " ++
        ("CmdPayload::" ++ variant ++ "(cmd_payload)") ++ ")" ++ " => " ++
          (function ++ "(cmd_payload)") ++ ",") :=
    Pieces.resolves (.append (.append (.append (.append (.append (.append (.append (.fixed rfl)
      (.append (.fixed rfl) (.word (hvariant false)))) (.fixed rfl))
      (.append (.append (.fixed rfl) (.word (hvariant true))) (.fixed rfl))) (.fixed rfl))
      (.fixed rfl)) (.append (.word hfunction) (.fixed rfl))) (.fixed rfl)) rfl
  have hempty : Resolves names ("(" ++ "_" ++ ", " ++ "CmdPayload::Empty" ++ ")" ++ " => " ++
      "Vec::new()" ++ ",") :=
    Pieces.resolves (.append (.append (.append (.append (.append (.append (.append (.fixed rfl)
      (.fixed rfl)) (.fixed rfl)) (.fixed rfl)) (.fixed rfl)) (.fixed rfl)) (.fixed rfl))
      (.fixed rfl)) rfl
  have hmismatch : Resolves names ("_" ++ " => " ++ "return None" ++ ",") :=
    Pieces.resolves
      (.append (.append (.append (.fixed rfl) (.fixed rfl)) (.fixed rfl)) (.fixed rfl)) rfl
  refine List.forall_mem_append.mpr ⟨List.forall_mem_append.mpr
    ⟨List.forall_mem_map.mpr fun cmd hcmd => ?_, List.forall_mem_singleton.mpr hempty⟩, ?_⟩
  · have hgroup : cmd.group ∈ encodedGroups protocol role :=
      List.mem_flatMap.mpr ⟨cmd, hcmd, List.mem_cons_self⟩
    have hfunction : Fits names (true, true) (Encoder.name cmd.group.stem).toList :=
      fits_encoder hsupplies hwell hgroup
    have harm := hencoded
      (fun _ => fits_variant (hwell.command_names cmd (List.mem_of_mem_filter hcmd))) hfunction
    exact harm
  · split
    · exact List.forall_mem_singleton.mpr hmismatch
    · exact List.forall_mem_nil _

/-- The lines of the function that decodes a command. -/
theorem resolves_decode (hsupplies : Supplies names protocol role) (hwell : WellFormed protocol) :
    ∀ line ∈ (Bridge.build (Prepared.ofProtocol protocol) role).decodeLines,
      Resolves names line := by
  simp only [Bridge.decodeLines, List.forall_mem_append, List.forall_mem_cons]
  refine ⟨⟨⟨resolves_comment _, resolves_opening rfl, resolves_indent (resolves_fixed rfl),
    List.forall_mem_nil _⟩, ?_⟩, resolves_indent (resolves_fixed rfl), resolves_closing,
    resolves_blank, List.forall_mem_nil _⟩
  split
  · exact List.forall_mem_singleton.mpr (resolves_indent (resolves_fixed rfl))
  · simp only [List.forall_mem_append, List.forall_mem_cons, List.forall_mem_map]
    exact ⟨⟨⟨resolves_indent (resolves_opening rfl), List.forall_mem_nil _⟩,
      fun arm harm => resolves_indent (resolves_decodeArms hsupplies hwell arm harm)⟩,
      resolves_indent (resolves_closing_append rfl), List.forall_mem_nil _⟩

/-- The lines of the function that encodes a command. -/
theorem resolves_encode (hsupplies : Supplies names protocol role) (hwell : WellFormed protocol) :
    ∀ line ∈ (Bridge.build (Prepared.ofProtocol protocol) role).encodeLines,
      Resolves names line := by
  simp only [Bridge.encodeLines, List.forall_mem_append, List.forall_mem_cons, List.forall_mem_map]
  exact ⟨⟨⟨resolves_comment _, resolves_opening rfl, resolves_indent (resolves_opening rfl),
    List.forall_mem_nil _⟩,
    fun arm harm => resolves_indent (resolves_encodeArms hsupplies hwell _ arm harm)⟩,
    resolves_indent (resolves_closing_append rfl), resolves_indent (resolves_fixed rfl),
    resolves_indent (resolves_fixed rfl), resolves_indent (resolves_fixed rfl),
    resolves_indent (resolves_closing_append rfl), resolves_closing, List.forall_mem_nil _⟩

end Commands

/-! ## All lines -/

section Module

variable {names : ModuleNames} {protocol : Protocol} {role : Role}

/-- The lines above the command enumeration, but those that import. -/
theorem resolves_head (hwell : WellFormed protocol) :
    ∀ line ∈ (Bridge.build (Prepared.ofProtocol protocol) role).headLines,
      line ∉ (Bridge.build (Prepared.ofProtocol protocol) role).imports.useLines →
        Resolves names line := by
  have hconstant {constant id : String} (hconstant : Fits names (false, true) constant.toList)
      (hid : Fits names (false, true) id.toList) :
      Resolves names ("pub const " ++ constant ++ ": u16 = " ++ id ++ ";") :=
    Pieces.resolves
    (.append (.append (.append (.append (.fixed rfl) (.word hconstant)) (.fixed rfl))
      (.word hid)) (.fixed rfl)) rfl
  have hname : Fits names (false, true) (Bridge.idConstant protocol.name).toList :=
    fits_upper hwell.protocol_name.isWord (by decide)
  have himports (imports : Imports) : imports.lines = imports.useLines ++ [""] := by
    simp only [Imports.lines, Imports.useLines]
  simp only [Bridge.headLines, moduleBanner, himports, List.forall_mem_append, List.forall_mem_cons]
  exact ⟨⟨⟨fun _ => resolves_comment_append _ _, fun _ => resolves_comment _,
    fun _ => resolves_comment _, fun _ => resolves_blank, List.forall_mem_nil _⟩,
    fun line hline hother => absurd hline hother, fun _ => resolves_blank, List.forall_mem_nil _⟩,
    fun _ => resolves_comment _, fun _ => hconstant hname (fits_hexWord _), fun _ => resolves_blank,
    List.forall_mem_nil _⟩

/-- The lines of the payload structs. -/
theorem resolves_structs (hsupplies : Supplies names protocol role) (hwell : WellFormed protocol) :
    ∀ line ∈ (Bridge.build (Prepared.ofProtocol protocol) role).structLines,
      Resolves names line := by
  let bridge := Bridge.build (Prepared.ofProtocol protocol) role
  have hpayload : ∀ payload ∈ bridge.nested ++ bridge.payloads, ∀ line ∈ payload.lines,
      Resolves names line := by
    rw [structs_eq hwell, List.forall_mem_map]
    exact fun group hgroup => resolves_struct hsupplies hwell (mem_definedGroups.mp hgroup)
  rw [List.forall_mem_append] at hpayload
  rw [Bridge.structLines, List.forall_mem_append]
  constructor
  · split
    · simp only [List.forall_mem_append, List.forall_mem_cons, List.forall_mem_flatMap]
      exact ⟨⟨resolves_comment _, resolves_blank, List.forall_mem_nil _⟩, hpayload.1⟩
    · exact List.forall_mem_nil _
  · split
    · exact List.forall_mem_nil _
    · simp only [List.forall_mem_append, List.forall_mem_cons, List.forall_mem_flatMap]
      exact ⟨⟨resolves_comment _, resolves_blank, List.forall_mem_nil _⟩, hpayload.2⟩

/-- Where the names of a role are supplied, the lines of its module refer to them. -/
theorem resolves_lines (hsupplies : Supplies names protocol role) (hwell : WellFormed protocol) :
    ∀ line ∈ (Bridge.build (Prepared.ofProtocol protocol) role).lines,
      line ∉ (Bridge.build (Prepared.ofProtocol protocol) role).imports.useLines →
        Resolves names line := by
  have htables : ∀ table ∈ (Bridge.build (Prepared.ofProtocol protocol) role).tables,
      ∀ line ∈ table.lines, Resolves names line := by
    rw [tables_eq hwell, List.forall_mem_map]
    exact fun group hgroup => resolves_table hsupplies hwell (mem_definedGroups.mp hgroup)
  have hdecoders : ∀ decoder ∈ (Bridge.build (Prepared.ofProtocol protocol) role).decoders,
      ∀ line ∈ decoder.lines, Resolves names line := by
    rw [decoders_eq hwell, List.forall_mem_map]
    exact fun group hgroup => resolves_decoder hsupplies hwell hgroup
  have hencoders : ∀ encoder ∈ (Bridge.build (Prepared.ofProtocol protocol) role).encoders,
      ∀ line ∈ encoder.lines, Resolves names line := by
    rw [encoders_eq hwell, List.forall_mem_map]
    exact fun group hgroup => resolves_encoder hsupplies hwell hgroup
  simp only [Bridge.lines_eq, Bridge.tableLines, List.forall_mem_append, List.forall_mem_flatMap]
  exact ⟨resolves_head hwell, fun line hline _ => resolves_enum hwell line hline,
    fun line hline _ => resolves_structs hsupplies hwell line hline,
    fun line hline _ => resolves_payload hsupplies hwell line hline,
    ⟨⟨⟨fun table htable line hline _ => htables table htable line hline,
      fun line hline _ => resolves_descriptor hsupplies hwell line hline⟩,
      fun decoder hdecoder line hline _ => hdecoders decoder hdecoder line hline⟩,
      fun encoder hencoder line hline _ => hencoders encoder hencoder line hline⟩,
    fun line hline _ => resolves_decode hsupplies hwell line hline,
    fun line hline _ => resolves_encode hsupplies hwell line hline⟩

end Module

end Typed
end CommandSet
