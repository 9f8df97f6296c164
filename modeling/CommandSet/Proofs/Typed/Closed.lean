import CommandSet.Proofs.Firmware.Visits
import CommandSet.Proofs.Typed.ImportedNames
import CommandSet.Proofs.Typed.PayloadFields
import CommandSet.Proofs.Typed.ResolvedFunctions

/-!
# Closed bridge modules

A bridge module has every function, constant and payload struct that its lines refer to.  What
it takes from elsewhere to work with values it imports, and it imports no more than that: the
functions on numbers of variable length where a function calls them, and the type of texts where
a payload struct has a field of it.

Main definitions:

- {lit}`moduleNames`: the names that a module has.
- {lit}`Closed`: modules that have what they refer to, and import what they use.

Main result:

- Theorem {lit}`closed_prepared`: the modules of all protocols that code is generated from are
  closed.
-/

namespace CommandSet
namespace Typed

/-! ## Names of a module -/

/-- The names that a module has, read off its lines. -/
def moduleNames (bridge : List String) : ModuleNames :=
  ⟨(itemNames .function bridge).map String.toList, (itemNames .constant bridge).map String.toList,
    (itemNames .payload bridge).map String.toList, importedNames bridge⟩

section ModuleNames

variable (bridge : List String)

theorem functions_moduleNames :
    (moduleNames bridge).functions = (itemNames .function bridge).map String.toList :=
  rfl

theorem constants_moduleNames :
    (moduleNames bridge).constants = (itemNames .constant bridge).map String.toList :=
  rfl

theorem structs_moduleNames :
    (moduleNames bridge).structs = (itemNames .payload bridge).map String.toList :=
  rfl

theorem imports_moduleNames : (moduleNames bridge).imports = importedNames bridge :=
  rfl

end ModuleNames

/-- A line that calls a function. -/
def Calls (name : String) (line : String) : Prop :=
  ∃ m ∈ mentions line, m.called = true ∧ m.name = name.toList

/-- A module that has what it refers to, and that imports the functions on numbers and the type
of texts where it uses them. -/
structure Closed (bridge : List String) : Prop where
  resolves : ∀ line ∈ bridge, isImport line = false → Resolves (moduleNames bridge) line
  decoding : "vle_decode".toList ∈ importedNames bridge ↔
    ∃ function ∈ itemBlocks "fn decode_".toList bridge, ∃ line ∈ function.2,
      Calls "vle_decode" line
  encoding : "vle_encode".toList ∈ importedNames bridge ↔
    ∃ function ∈ itemBlocks "fn encode_".toList bridge, ∃ line ∈ function.2,
      Calls "vle_encode" line
  text : "CString".toList ∈ importedNames bridge ↔
    ∃ payload ∈ itemBlocks payloadStart bridge, ∃ line ∈ payload.2,
      fieldType? line = some "CString".toList

section Supplies

variable {protocol : Protocol}

/-- A module has the names that its role needs. -/
theorem supplies_bridge (hwell : WellFormed protocol) (role : Role) :
    Supplies (moduleNames (Bridge.build (Prepared.ofProtocol protocol) role).lines) protocol
      role := by
  constructor
  case decoders =>
    intro group hgroup
    rw [functions_moduleNames, functionNames_bridge hwell]
    refine List.mem_map.mpr ⟨_, List.mem_append_left _ ?_, rfl⟩
    exact List.mem_map.mpr ⟨group, hgroup, rfl⟩
  case encoders =>
    intro group hgroup
    rw [functions_moduleNames, functionNames_bridge hwell]
    refine List.mem_map.mpr ⟨_, List.mem_append_right _ (List.mem_append_left _ ?_), rfl⟩
    exact List.mem_map.mpr ⟨group, hgroup, rfl⟩
  case constants =>
    intro group hgroup
    rw [constants_moduleNames, constantNames_bridge hwell]
    refine List.mem_map.mpr ⟨_, List.mem_cons_of_mem _ (List.mem_append_left _ ?_), rfl⟩
    exact List.mem_map.mpr ⟨group, mem_definedGroups.mpr hgroup, rfl⟩
  case structs =>
    intro group hgroup
    rw [structs_moduleNames, payloadNames_bridge hwell]
    refine List.mem_map.mpr ⟨_, ?_, rfl⟩
    exact List.mem_map.mpr ⟨group, mem_definedGroups.mpr hgroup, rfl⟩
  case decoding =>
    intro group hgroup att hatt huses
    rw [imports_moduleNames]
    exact (decoding_imported_iff hwell role).mpr ⟨group, hgroup, att, hatt, huses⟩
  case encoding =>
    intro group hgroup att hatt huses
    rw [imports_moduleNames]
    exact (encoding_imported_iff hwell role).mpr ⟨group, hgroup, att, hatt, huses⟩

end Supplies

/-! ## Calls -/

theorem mem_mentionsFrom (name : List Char) (front rest : List Token) : ∀ spot,
    ∃ m ∈ mentionsFrom spot (front ++ .name name :: .mark '(' :: rest),
      m.called = true ∧ m.name = name := by
  induction front with
  | nil => exact fun spot => ⟨_, List.mem_cons_self, rfl, rfl⟩
  | cons token front ih =>
      intro spot
      cases token with
      | name text =>
          obtain ⟨m, hm, hcalled⟩ := ih .inside
          exact ⟨m, List.mem_cons_of_mem _ hm, hcalled⟩
      | mark c => exact ih (spot.after c)

/-- A name in front of a parenthesis is called. -/
theorem calls_of_infix {name line : String}
    (h : [.name name.toList, .mark '('] <:+: tokens line) : Calls name line := by
  obtain ⟨front, rest, htokens⟩ := h
  rw [List.append_assoc] at htokens
  rw [Calls, mentions, ← htokens]
  exact mem_mentionsFrom name.toList front rest .start

/-- The form of an expression calls the functions on numbers of the expression. -/
theorem DecodeExpr.infix_form {name : List Char} {expr : DecodeExpr} (h : name ∈ expr.numbers)
    (binding : List Char) :
    [.name name, .mark '('] <:+: fillTokens (tokens expr.form) (expr.names binding) := by
  cases expr with
  | narrowed scalar =>
      obtain rfl := List.mem_singleton.mp h
      rw [form, tokens_ofList, String.toList_ofList]
      exact ⟨[.name scalar.typedName.toList, .mark ':', .mark ':',
        .name ['t', 'r', 'y', '_', 'f', 'r', 'o', 'm'], .mark '('], _, rfl⟩
  | wide =>
      obtain rfl := List.mem_singleton.mp h
      rw [form, tokens_ofList, String.toList_ofList]
      exact ⟨[], _, rfl⟩
  | _ => exact absurd h List.not_mem_nil

theorem EncodeExpr.infix_fieldForm {name : List Char} {expr : EncodeExpr}
    (h : name ∈ expr.numbers) (field : List Char) : [.name name, .mark '('] <:+:
      fillTokens (tokens expr.fieldForm) (expr.functions ++ [field]) := by
  cases expr with
  | variableLength =>
      obtain rfl := List.mem_singleton.mp h
      rw [fieldForm, tokens_ofList, String.toList_ofList]
      exact ⟨[], _, rfl⟩
  | _ => exact absurd h List.not_mem_nil

theorem EncodeExpr.infix_valueForm {name : List Char} {expr : EncodeExpr}
    (h : name ∈ expr.numbers) :
    [.name name, .mark '('] <:+: fillTokens (tokens expr.valueForm) expr.functions := by
  cases expr with
  | variableLength =>
      obtain rfl := List.mem_singleton.mp h
      rw [valueForm, tokens_ofList, String.toList_ofList]
      exact ⟨[], _, rfl⟩
  | _ => exact absurd h List.not_mem_nil

/-- A field decoder calls the functions on numbers of its expression. -/
theorem FieldDecoder.exists_calls {name : String} {decoder : FieldDecoder} (h : decoder.IsLexical)
    (hname : name.toList ∈ decoder.value.numbers) : ∃ line ∈ decoder.lines, Calls name line := by
  have hform := DecodeExpr.infix_form hname decoder.slot.binding.toList
  have hcalls {optional : Bool} {line : String}
      (hline : tokens line = fillTokens (setFront optional) [decoder.field.toList] ++
        (fillTokens (tokens decoder.value.form)
          (decoder.value.names decoder.slot.binding.toList) ++ setBack optional)) :
      Calls name line :=
    calls_of_infix (hline ▸ hform.trans (List.infix_append' _ _ _))
  unfold FieldDecoder.lines
  dsimp only
  split
  · exact ⟨_, List.mem_cons_of_mem _ List.mem_cons_self, hcalls (tokens_set_optional h)⟩
  · exact ⟨_, List.mem_cons_of_mem _ (List.mem_cons_of_mem _ (List.mem_cons_of_mem _
      List.mem_cons_self)), hcalls (tokens_set_mandatory h)⟩

/-- A field encoder calls the functions on numbers of its expression. -/
theorem FieldEncoder.exists_calls {name : String} {encoder : FieldEncoder} (h : encoder.IsLexical)
    (hname : name.toList ∈ encoder.value.numbers) : ∃ line ∈ encoder.lines, Calls name line := by
  unfold FieldEncoder.lines
  split
  · refine ⟨_, List.mem_append_left _ (List.mem_append_right _
      (List.mem_cons_of_mem _ List.mem_cons_self)), calls_of_infix ?_⟩
    rw [tokens_present h]
    exact (EncodeExpr.infix_valueForm hname).trans (List.infix_append' _ _ _)
  · refine ⟨_, List.mem_append_left _ (List.mem_append_right _ List.mem_cons_self),
      calls_of_infix ?_⟩
    rw [tokens_mandatory h]
    exact (EncodeExpr.infix_fieldForm hname _).trans (List.infix_append' _ _ _)

section Groups

variable {group : Group} {att : Attribute}

theorem exists_storage (h : usesVariableLength att = true) :
    ∃ storage, att.dataType.storage = some storage := by
  cases hstorage : att.dataType.storage with
  | some storage => exact ⟨storage, rfl⟩
  | none =>
      rw [usesVariableLength, hstorage] at h
      cases h

/-- The decoder of a group calls the function on numbers for its members. -/
theorem exists_calls_decoder (h : group.Named) (hatt : att ∈ group.members)
    (huses : usesVariableLength att = true) :
    ∃ line ∈ (Decoder.ofGroup group).body, Calls "vle_decode" line := by
  obtain ⟨storage, hstorage⟩ := exists_storage huses
  obtain ⟨place, hmem⟩ := @FieldDecoder.exists_mem group.parent _ _ hstorage _ hatt 0
  have hnumbers := DecodeExpr.numbers_ofStorage hstorage group.parent att.name
  rw [if_pos huses] at hnumbers
  obtain ⟨line, hline, hcalls⟩ := FieldDecoder.exists_calls
    (isLexical_fieldDecoders h.parent h.members 0 _ hmem)
    (hnumbers ▸ List.mem_singleton_self "vle_decode".toList)
  refine ⟨line, List.mem_cons_of_mem _ (List.mem_append_left _ ?_), hcalls⟩
  exact List.mem_flatMap.mpr ⟨_, hmem, hline⟩

/-- The encoder of a group calls the function on numbers for its members. -/
theorem exists_calls_encoder (h : group.Named) (hatt : att ∈ group.members)
    (huses : usesVariableLength att = true) :
    ∃ line ∈ (Encoder.ofGroup group).body, Calls "vle_encode" line := by
  obtain ⟨storage, hstorage⟩ := exists_storage huses
  have hbuild : FieldEncoder.ofAttribute group.parent att =
      some ⟨snakeCase att.name, ElementSlot.ofStorage storage, att.optional,
        EncodeExpr.ofStorage storage group.parent att.name⟩ := by
    rw [FieldEncoder.ofAttribute, hstorage]
    rfl
  have hmem := List.mem_filterMap.mpr ⟨att, hatt, hbuild⟩
  have hnumbers := EncodeExpr.numbers_ofStorage hstorage group.parent att.name
  rw [if_pos huses] at hnumbers
  obtain ⟨line, hline, hcalls⟩ := FieldEncoder.exists_calls
    (isLexical_fieldEncoders h.parent h.members _ hmem)
    (hnumbers ▸ List.mem_singleton_self "vle_encode".toList)
  refine ⟨line, List.mem_cons_of_mem _ (List.mem_append_left _ ?_), hcalls⟩
  exact List.mem_flatMap.mpr ⟨_, hmem, hline⟩

end Groups

/-! ## Closed modules -/

section Protocol

variable {protocol : Protocol} {role : Role}

theorem decoding_calls_iff (hwell : WellFormed protocol) (role : Role) :
    "vle_decode".toList ∈ importedNames (Bridge.build (Prepared.ofProtocol protocol) role).lines ↔
      ∃ function ∈ itemBlocks "fn decode_".toList
        (Bridge.build (Prepared.ofProtocol protocol) role).lines, ∃ line ∈ function.2,
          Calls "vle_decode" line := by
  rw [itemBlocks_decoders, decoders_eq hwell]
  simp only [List.mem_map, exists_exists_and_eq_and]
  constructor
  · intro hmem
    obtain ⟨group, hgroup, att, hatt, huses⟩ := (decoding_imported_iff hwell role).mp hmem
    have hnamed := named_of_mem_groups hwell (mem_groups_of_mem_decodedGroups hgroup)
    exact ⟨group, hgroup, exists_calls_decoder hnamed hatt huses⟩
  · rintro ⟨group, hgroup, line, hline, m, hm, hcalled, hname⟩
    have hsupplies := supplies_bridge hwell role
    have hmem : line ∈ (Decoder.ofGroup group).lines := by
      rw [(Decoder.ofGroup group).isFunction.lines_eq]
      exact List.mem_cons_of_mem _ (List.mem_append_left _ hline)
    have hnumber := (resolves_decoder hsupplies hwell hgroup line hmem m hm).number hcalled
      (.inl hname)
    rwa [hname, imports_moduleNames] at hnumber

theorem encoding_calls_iff (hwell : WellFormed protocol) (role : Role) :
    "vle_encode".toList ∈ importedNames (Bridge.build (Prepared.ofProtocol protocol) role).lines ↔
      ∃ function ∈ itemBlocks "fn encode_".toList
        (Bridge.build (Prepared.ofProtocol protocol) role).lines, ∃ line ∈ function.2,
          Calls "vle_encode" line := by
  rw [itemBlocks_encoders, encoders_eq hwell]
  simp only [List.mem_map, exists_exists_and_eq_and]
  constructor
  · intro hmem
    obtain ⟨group, hgroup, att, hatt, huses⟩ := (encoding_imported_iff hwell role).mp hmem
    have hnamed := named_of_mem_groups hwell (mem_groups_of_mem_encodedGroups hgroup)
    exact ⟨group, hgroup, exists_calls_encoder hnamed hatt huses⟩
  · rintro ⟨group, hgroup, line, hline, m, hm, hcalled, hname⟩
    have hsupplies := supplies_bridge hwell role
    have hmem : line ∈ (Encoder.ofGroup group).lines := by
      rw [(Encoder.ofGroup group).isFunction.lines_eq]
      exact List.mem_cons_of_mem _ (List.mem_append_left _ hline)
    have hnumber := (resolves_encoder hsupplies hwell hgroup line hmem m hm).number hcalled
      (.inr hname)
    rwa [hname, imports_moduleNames] at hnumber

theorem text_fields_iff (hwell : WellFormed protocol) (role : Role) :
    "CString".toList ∈ importedNames (Bridge.build (Prepared.ofProtocol protocol) role).lines ↔
      ∃ payload ∈ itemBlocks payloadStart
        (Bridge.build (Prepared.ofProtocol protocol) role).lines, ∃ line ∈ payload.2,
          fieldType? line = some "CString".toList := by
  rw [text_imported_iff hwell, itemBlocks_bridge hwell]
  simp only [List.mem_map, exists_exists_and_eq_and, mem_definedGroups]
  refine exists_congr fun group => and_congr_right fun hgroup => ?_
  have hnamed := named_of_mem_groups hwell hgroup
  have hfield {att : Attribute} (hatt : att ∈ group.members) (storage : Storage) :=
    @fieldType_field group.parent att storage hnamed.parent (hnamed.members att hatt)
  constructor
  · rintro ⟨att, hatt, huses⟩
    have hbuild : fieldOf group.parent att = some ⟨snakeCase att.name,
        FieldType.ofStorage .text group.parent att.name, att.optional⟩ := by
      rw [fieldOf, beq_iff_eq.mp huses]
      rfl
    refine ⟨_, List.mem_map_of_mem (List.mem_filterMap.mpr ⟨att, hatt, hbuild⟩), ?_⟩
    exact (hfield hatt .text).mpr rfl
  · rintro ⟨line, hline, htype⟩
    obtain ⟨field, hmem, rfl⟩ := List.mem_map.mp hline
    obtain ⟨att, hatt, hbuild⟩ := List.mem_filterMap.mp hmem
    obtain ⟨storage, hstorage, rfl⟩ := Option.map_eq_some_iff.mp hbuild
    refine ⟨att, hatt, ?_⟩
    rw [usesText, hstorage, (hfield hatt storage).mp htype]
    rfl

end Protocol

/-- The modules of every protocol that code is generated from, for either role, have what they
refer to and import what they use. -/
theorem closed_prepared {protocol : Protocol} {prepared : Prepared}
    (hprepare : prepare protocol = .ok prepared) (role : Role) :
    Closed (Bridge.build prepared role).lines := by
  obtain ⟨rfl, hwell⟩ := wellFormed_of_prepare hprepare
  constructor
  case resolves =>
    intro line hline himport
    refine resolves_lines (supplies_bridge hwell role) hwell line hline fun hmem => ?_
    rw [isImport_useLine hmem] at himport
    cases himport
  case decoding => exact decoding_calls_iff hwell role
  case encoding => exact encoding_calls_iff hwell role
  case text => exact text_fields_iff hwell role

theorem closed_meter :
    prepare meter = .ok (Prepared.ofProtocol meter) ∧ ∀ role,
      Closed (Bridge.build (Prepared.ofProtocol meter) role).lines :=
  ⟨prepare_meter, closed_prepared prepare_meter⟩

end Typed
end CommandSet
