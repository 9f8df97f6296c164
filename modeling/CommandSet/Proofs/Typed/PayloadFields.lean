import CommandSet.Proofs.Typed.CodecPairs

/-!
# Fields of Rust payload structs

The payload structs of a bridge module are blocks with one line for each field, which says the
name of its type.  Only the type of bytes is made of two names.

Main definitions:

- {lit}`payloadStart`: how payload structs start.
- {lit}`fieldType?`: the type of the field that a line declares.

Main results:

- Theorem {lit}`itemBlocks_bridge`: the payload structs of a module are those of the groups.
- Theorem {lit}`fieldType_field`: fields for texts are read as such.
-/

namespace CommandSet
namespace Typed

/-! ## Payload structs -/

/-- How payload structs start. -/
def payloadStart : List Char :=
  ['p', 'u', 'b', ' ', 's', 't', 'r', 'u', 'c', 't', ' ']

/-- The first line of a payload struct. -/
def PayloadStruct.head (payload : PayloadStruct) : String :=
  opening ("pub struct " ++ payload.typeName)

/-- The fields of a payload struct. -/
def PayloadStruct.body (payload : PayloadStruct) : List String :=
  payload.fields.map fun field => indent 1 field.line

/-- A payload struct without the line above it. -/
theorem PayloadStruct.isItem (payload : PayloadStruct) :
    IsItem payloadStart payload.head payload.body
      (payload.head :: (payload.body ++ [closing, ""])) := by
  constructor
  case lines_eq => rfl
  case head =>
    simp only [head, opening, String.toList_append]
    repeat rw [String.toList_ofList]
    rfl
  case body => exact List.forall_mem_map.mpr fun field _ => ⟨0, _, rfl⟩

theorem itemBlocks_payloads (payloads : List PayloadStruct) (rest : List String) :
    itemBlocks payloadStart (payloads.flatMap PayloadStruct.lines ++ rest) =
      payloads.map (fun payload => (payload.head, payload.body)) ++
        itemBlocks payloadStart rest := by
  induction payloads with
  | nil => rfl
  | cons payload payloads ih =>
      have hlines : payload.lines = ["#[derive(Debug, Clone, Default, PartialEq)]"] ++
          payload.head :: (payload.body ++ [closing, ""]) := by
        simp only [PayloadStruct.lines, PayloadStruct.head, PayloadStruct.body, List.cons_append,
          List.nil_append]
      have hitem := payload.isItem
      rw [payloadStart] at hitem ih ⊢
      rw [List.flatMap_cons, hlines, List.append_assoc, List.append_assoc, itemBlocks_append,
        itemBlocks_item (by decide) (by decide) hitem, ih]
      · rfl
      · rw [List.forall_mem_singleton, String.toList_ofList]
        rfl

/-- The payload structs stand behind their headings. -/
theorem itemBlocks_structLines (bridge : Bridge) (rest : List String) :
    itemBlocks payloadStart (bridge.structLines ++ rest) =
      ((if bridge.nesting then bridge.nested else []) ++ bridge.payloads).map
        (fun payload => (payload.head, payload.body)) ++ itemBlocks payloadStart rest := by
  have hheading (chars : List Char) (payloads : List PayloadStruct) (rest : List String) :
      itemBlocks payloadStart
        ([String.ofList ('/' :: chars), ""] ++ payloads.flatMap PayloadStruct.lines ++ rest) =
          payloads.map (fun payload => (payload.head, payload.body)) ++
            itemBlocks payloadStart rest := by
    rw [List.append_assoc, itemBlocks_append, itemBlocks_payloads]
    simp only [List.forall_mem_cons]
    repeat rw [String.toList_ofList]
    exact ⟨rfl, rfl, List.forall_mem_nil _⟩
  have hnested (rest : List String) : itemBlocks payloadStart
      ((if bridge.nesting then ["// Attribute with sub-attributes payloads", ""] ++
        bridge.nested.flatMap PayloadStruct.lines else []) ++ rest) =
          (if bridge.nesting then bridge.nested else []).map
            (fun payload => (payload.head, payload.body)) ++ itemBlocks payloadStart rest := by
    split
    · exact hheading _ _ _
    · rfl
  have hpayloads (rest : List String) : itemBlocks payloadStart
      ((if bridge.payloads.isEmpty then [] else ["// Command payloads", ""] ++
        bridge.payloads.flatMap PayloadStruct.lines) ++ rest) =
          bridge.payloads.map (fun payload => (payload.head, payload.body)) ++
            itemBlocks payloadStart rest := by
    split
    next hempty =>
      rw [List.isEmpty_iff.mp hempty]
      rfl
    next => exact hheading _ _ _
  rw [Bridge.structLines, List.append_assoc, hnested, hpayloads, List.map_append, List.append_assoc]

/-- The payload structs are blocks of the module. -/
theorem itemBlocks_structs (bridge : Bridge) :
    itemBlocks payloadStart bridge.lines =
      ((if bridge.nesting then bridge.nested else []) ++ bridge.payloads).map
        fun payload => (payload.head, payload.body) := by
  have hfront := itemBlocks_of_startAs (bridge.startAs_head.append (startAs_enum bridge.commands))
    (by decide : payloadStart.head?.any Char.isLower = true) (by decide)
  have hbehind := itemBlocks_of_startAs ((startAs_payload bridge.variants).append
    (bridge.startAs_tableLines.append (bridge.startAs_decode.append bridge.startAs_encode)))
    (by decide : payloadStart.head?.any Char.isLower = true) (by decide) []
  rw [List.append_nil] at hbehind
  simp only [List.append_assoc] at hfront
  rw [Bridge.lines_eq, hfront, itemBlocks_structLines, hbehind, itemBlocks, List.append_nil]

/-- The payload structs of a module are those of the groups. -/
theorem itemBlocks_bridge {protocol : Protocol} (hwell : WellFormed protocol) (role : Role) :
    itemBlocks payloadStart (Bridge.build (Prepared.ofProtocol protocol) role).lines =
      (definedGroups protocol).map fun group =>
        ((PayloadStruct.ofGroup group).head, (PayloadStruct.ofGroup group).body) := by
  have hnested : (if (Bridge.build (Prepared.ofProtocol protocol) role).nesting then
      (Bridge.build (Prepared.ofProtocol protocol) role).nested else []) =
        (Bridge.build (Prepared.ofProtocol protocol) role).nested := by
    split
    · rfl
    next hnone => rw [nested_eq_nil (Bool.eq_false_iff.mpr hnone)]
  rw [itemBlocks_structs, hnested, structs_eq hwell, List.map_map]
  rfl

/-! ## Fields -/

/-- The name of the type of the field that a line declares, with or without an option around
it. -/
def fieldType? (line : String) : Option (List Char) :=
  match read? (tokens "pub @: @,") (tokens line) with
  | some [_, type] => some type
  | _ =>
      match read? (tokens "pub @: Option<@>,") (tokens line) with
      | some [_, type] => some type
      | _ => none

section Fields

variable {name : String}

/-- The start of the line of a field. -/
theorem filled_fieldStart (name : String) :
    Filled ("pub " ++ name ++ ": ") "pub @: ".toList [name.toList] :=
  .append (.append (.fixed rfl) (.word name)) (.fixed rfl)

/-- The line of a field says the name of its type. -/
theorem fieldType_line {type : String} (hname : IsLexeme name.toList) (htype : IsLexeme type.toList)
    (optional : Bool) : fieldType? (indent 1 ("pub " ++ name ++ ": " ++
      (if optional then "Option<" ++ type ++ ">" else type) ++ ",")) = some type.toList := by
  have hwords : ∀ word ∈ [name.toList, type.toList], IsLexeme word :=
    List.forall_mem_cons.mpr ⟨hname, List.forall_mem_singleton.mpr htype⟩
  cases optional with
  | false =>
      have hread : read? (tokens "pub @: @,") (tokens ("pub " ++ name ++ ": " ++ type ++ ",")) =
          some [name.toList, type.toList] := by
        refine read_of_fill ?_ (by decide) hwords rfl
        exact Filled.toList_eq (.append (.append (filled_fieldStart name) (.word _)) (.fixed rfl))
      rw [fieldType?, tokens_indent, if_neg Bool.false_ne_true, hread]
  | true =>
      have htokens : tokens ("pub " ++ name ++ ": " ++ ("Option<" ++ type ++ ">") ++ ",") =
          fillTokens (tokens "pub @: Option<@>,") [name.toList, type.toList] := by
        refine tokens_of_fill ?_ (by decide) hwords
        exact Filled.toList_eq (.append (.append (filled_fieldStart name)
          (.append (.append (.fixed rfl) (.word _)) (.fixed rfl))) (.fixed rfl))
      rw [fieldType?, tokens_indent, if_pos rfl, htokens, tokens_ofList, tokens_ofList]
      rfl

/-- The line of a field for bytes says no name, as its type is made of two. -/
theorem fieldType_bytes (hname : IsLexeme name.toList) (optional : Bool) :
    fieldType? (indent 1 ("pub " ++ name ++ ": " ++
      (if optional then "Option<" ++ "Vec<u8>" ++ ">" else "Vec<u8>") ++ ",")) = none := by
  cases optional with
  | false =>
      have htokens : tokens ("pub " ++ name ++ ": " ++ "Vec<u8>" ++ ",") =
          fillTokens (tokens "pub @: Vec<u8>,") [name.toList] := by
        refine tokens_of_fill ?_ (by decide) (List.forall_mem_singleton.mpr hname)
        exact Filled.toList_eq
          (.append (.append (filled_fieldStart name) (.fixed rfl)) (.fixed rfl))
      rw [fieldType?, tokens_indent, if_neg Bool.false_ne_true, htokens]
      repeat rw [tokens_ofList]
      rfl
  | true =>
      have htokens : tokens ("pub " ++ name ++ ": " ++ ("Option<" ++ "Vec<u8>" ++ ">") ++ ",") =
          fillTokens (tokens "pub @: Option<Vec<u8>>,") [name.toList] := by
        refine tokens_of_fill ?_ (by decide) (List.forall_mem_singleton.mpr hname)
        exact Filled.toList_eq (.append (.append (filled_fieldStart name)
          (.append (.append (.fixed rfl) (.fixed rfl)) (.fixed rfl))) (.fixed rfl))
      rw [fieldType?, tokens_indent, if_pos rfl, htokens]
      repeat rw [tokens_ofList]
      rfl

/-- Fields for texts, and no others, have the type of texts. -/
theorem fieldType_field {parent : String} {att : Attribute} {storage : Storage}
    (hparent : IsName parent) (hname : IsName att.name) :
    fieldType? (indent 1 (Field.line ⟨snakeCase att.name,
      FieldType.ofStorage storage parent att.name, att.optional⟩)) = some "CString".toList ↔
        storage = .text := by
  have hfield := isLexeme_field hname
  cases storage with
  | scalar scalar =>
      have htype : IsLexeme scalar.typedName.toList := DecodeExpr.isLexeme_typedName scalar
      have hline := fieldType_line hfield htype att.optional
      have hother : scalar.typedName.toList ≠ "CString".toList := by
        cases scalar <;> decide
      refine ⟨fun h => ?_, fun h => by cases h⟩
      exact absurd (Option.some.inj (hline.symm.trans h)) hother
  | bytes =>
      have hline := fieldType_bytes hfield att.optional
      exact ⟨fun h => (by cases hline.symm.trans h), fun h => by cases h⟩
  | text =>
      exact ⟨fun _ => rfl, fun _ => fieldType_line hfield (IsLexeme.fixed rfl) att.optional⟩
  | nested =>
      have htype : IsLexeme (Naming.typedNestedPayload parent att.name).toList :=
        (isWord_typedNestedPayload hparent hname).isLexeme (by simp [Naming.typedNestedPayload])
      have hline := fieldType_line hfield htype att.optional
      have hother : (Naming.typedNestedPayload parent att.name).toList ≠ "CString".toList := by
        intro heq
        have hends := congrArg (fun chars => chars.reverse.head?) heq
        simp [Naming.typedNestedPayload] at hends
      refine ⟨fun h => ?_, fun h => by cases h⟩
      exact absurd (Option.some.inj (hline.symm.trans h)) hother

end Fields

end Typed
end CommandSet
