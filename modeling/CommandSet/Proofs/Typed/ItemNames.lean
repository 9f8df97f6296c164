import CommandSet.Proofs.Text.Between
import CommandSet.Proofs.Typed.CommandArms
import CommandSet.Proofs.Typed.Groups
import CommandSet.Proofs.Typed.Items

/-!
# Names of Rust items

A bridge module declares its constants, enumerations, payload structs and functions on lines of
their own, each behind its keyword.  Their names are read off these lines.

Main definitions:

- {lit}`ItemKind`, {lit}`Item`: items and the lines that declare them.
- {lit}`itemNames`: the names of the items of one kind.
- {lit}`Bridge.items`: the items of a module.

Main results:

- Theorem {lit}`filter_startsItem_lines`: a module declares its items and no others.
- Theorem {lit}`itemNames_lines`: their names are read off the module.
-/

namespace CommandSet
namespace Typed

/-! ## Items -/

/-- The kinds of items. -/
inductive ItemKind where
  | constant
  | enumeration
  | implementation
  | payload
  | function
deriving Repr, DecidableEq

/-- The first letter of the keyword of a kind. -/
def ItemKind.letter : ItemKind → Char
  | constant => 'c'
  | enumeration => 'e'
  | implementation => 'i'
  | payload => 's'
  | function => 'f'

/-- The keyword of a kind behind its first letter. -/
def ItemKind.ending : ItemKind → List Char
  | constant => ['o', 'n', 's', 't', ' ']
  | enumeration => ['n', 'u', 'm', ' ']
  | implementation => ['m', 'p', 'l', ' ']
  | payload => ['t', 'r', 'u', 'c', 't', ' ']
  | function => ['n', ' ']

/-- The keyword of a kind. -/
def ItemKind.keyword (kind : ItemKind) : List Char :=
  kind.letter :: kind.ending

/-- The word before the keywords of items that other modules see. -/
def visibility : List Char :=
  ['p', 'u', 'b', ' ']

/-- An item: whether other modules see it, its kind and name, and what its line says besides. -/
structure Item where
  shown : Bool
  kind : ItemKind
  name : String
  rest : List Char
deriving Repr, DecidableEq

namespace Item

/-- The line that declares an item. -/
def chars (item : Item) : List Char :=
  (if item.shown then visibility else []) ++ (item.kind.keyword ++ (item.name.toList ++ item.rest))

/-- Items whose names are words with an end. -/
structure IsDeclared (item : Item) : Prop where
  name : IsWord item.name
  rest : ∃ stop, item.rest.head? = some stop ∧ ¬IsNameRest stop

end Item

/-! ## Reading names -/

/-- The name behind a keyword. -/
def nameBehind? (keyword text : List Char) : Option String :=
  (text.dropPrefix? keyword).map fun rest =>
    String.ofList (rest.takeWhile fun c => c.isAlphanum || c == '_')

/-- The name of the item of a kind that a line declares, with or without the word that shows it
to other modules. -/
def itemName? (kind : ItemKind) (text : List Char) : Option String :=
  nameBehind? kind.keyword ((text.dropPrefix? visibility).getD text)

/-- The names of the items of a kind. -/
def itemNames (kind : ItemKind) (lines : List String) : List String :=
  lines.filterMap fun line => itemName? kind line.toList

theorem dropPrefix_other {c d : Char} (hne : c ≠ d) (front rest : List Char) :
    (d :: rest).dropPrefix? (c :: front) = none := by
  have hfalse : (d == c) = false := beq_false_of_ne hne.symm
  rw [List.dropPrefix?, hfalse]
  simp

theorem ItemKind.letter_injective {kind other : ItemKind} (h : kind.letter = other.letter) :
    kind = other := by
  cases kind <;> cases other <;> first | rfl | exact absurd h (by decide)

theorem ItemKind.letter_ne (kind : ItemKind) : kind.letter ≠ 'p' := by
  cases kind <;> decide

theorem nameBehind_keyword (kind : ItemKind) {item : Item} (h : item.IsDeclared) :
    nameBehind? kind.keyword (item.kind.keyword ++ (item.name.toList ++ item.rest)) =
      if item.kind = kind then some item.name else none := by
  split
  next hkind =>
    subst hkind
    obtain ⟨stop, hhead, hstop⟩ := h.rest
    obtain ⟨others, hrest⟩ := List.head?_eq_some_iff.mp hhead
    have hchars : ∀ c ∈ item.name.toList, (c.isAlphanum || c == '_') = true := fun c hc =>
      isNameRest_iff.mpr (h.name c hc)
    have hend : ¬(stop.isAlphanum || stop == '_') = true := fun hend =>
      hstop (isNameRest_iff.mp hend)
    rw [nameBehind?, dropPrefix_append, Option.map_some, List.takeWhile_append_of_pos hchars, hrest,
      List.takeWhile_cons_of_neg (p := fun c => c.isAlphanum || c == '_') hend, List.append_nil,
      String.ofList_toList]
  next hkind =>
    have hletter : kind.letter ≠ item.kind.letter := fun heq =>
      hkind (ItemKind.letter_injective heq).symm
    rw [nameBehind?, ItemKind.keyword, ItemKind.keyword, List.cons_append, dropPrefix_other hletter,
      Option.map_none]

/-- The line of an item declares a name of its kind and of no other. -/
theorem itemName_chars (kind : ItemKind) {item : Item} (h : item.IsDeclared) :
    itemName? kind item.chars = if item.kind = kind then some item.name else none := by
  have hitem := nameBehind_keyword kind h
  unfold itemName? Item.chars
  split
  next => rwa [dropPrefix_append, Option.getD_some]
  next =>
    rw [List.nil_append]
    have hown : (item.kind.keyword ++ (item.name.toList ++ item.rest)).dropPrefix? visibility =
        none := by
      rw [ItemKind.keyword, List.cons_append, visibility, dropPrefix_other]
      exact item.kind.letter_ne.symm
    rwa [hown, Option.getD_none]

/-- Only lines that start an item declare names. -/
theorem itemName_of_not_startsItem {line : String} (h : startsItem line = false) (kind : ItemKind) :
    itemName? kind line.toList = none := by
  cases hchars : line.toList with
  | nil => cases kind <;> rfl
  | cons d chars =>
      have hlower : d.isLower = false := by simpa [startsItem, hchars] using h
      have hpub : 'p' ≠ d := by
        rintro rfl
        exact absurd hlower (by decide)
      have hletter : kind.letter ≠ d := by
        rintro rfl
        cases kind <;> exact absurd hlower (by decide)
      rw [itemName?, visibility, dropPrefix_other hpub, Option.getD_none, nameBehind?,
        ItemKind.keyword, dropPrefix_other hletter, Option.map_none]

theorem itemNames_eq_filter (kind : ItemKind) (lines : List String) :
    itemNames kind lines = itemNames kind (lines.filter startsItem) := by
  rw [itemNames, itemNames, List.filterMap_filter]
  refine List.filterMap_congr fun line _ => ?_
  cases hitem : startsItem line with
  | true => rfl
  | false =>
      rw [if_neg Bool.false_ne_true]
      exact itemName_of_not_startsItem hitem kind

/-- The names of items are those of the right kind. -/
theorem itemNames_items (kind : ItemKind) {items : List Item}
    (h : ∀ item ∈ items, item.IsDeclared) :
    itemNames kind (items.map fun item => String.ofList item.chars) =
      (items.filter (·.kind = kind)).map (·.name) := by
  rw [itemNames, List.filterMap_map, ← List.filterMap_eq_map, List.filterMap_filter]
  refine List.filterMap_congr fun item hitem => ?_
  rw [Function.comp_apply, String.toList_ofList, itemName_chars kind (h item hitem)]
  by_cases hkind : item.kind = kind <;> simp [hkind]

/-! ## Items of a module -/

/-- The items of a module. -/
def Bridge.items (bridge : Bridge) : List Item :=
  [⟨true, .constant, idConstant bridge.protocol,
      (": u16 = " ++ Text.hexWord bridge.id ++ ";").toList⟩,
    ⟨true, .enumeration, "CmdEnum", r" {".toList⟩,
    ⟨false, .implementation, "CmdEnum", r" {".toList⟩] ++
    ((if bridge.nesting then bridge.nested else []) ++ bridge.payloads).map
      (fun payload => ⟨true, .payload, payload.typeName, r" {".toList⟩) ++
    [⟨true, .enumeration, "CmdPayload", r" {".toList⟩] ++
    bridge.tables.map
      (fun table => ⟨false, .constant, table.constant, ": &[LcsfAttDesc] = &[".toList⟩) ++
    [⟨true, .constant, "LCSF_" ++ Text.upper bridge.protocol ++ "_PROT_DESC",
      r": LcsfProtDesc = LcsfProtDesc {".toList⟩] ++
    bridge.decoders.map (fun decoder => ⟨false, .function, Decoder.name decoder.stem,
      ("(att_arr: &[LcsfValidAtt]) -> Option<" ++ decoder.typeName ++ r"> {").toList⟩) ++
    bridge.encoders.map (fun encoder => ⟨false, .function, Encoder.name encoder.stem,
      ("(payload: &" ++ encoder.typeName ++ r") -> Vec<LcsfValidAtt> {").toList⟩) ++
    [⟨true, .function, "decode",
        r"(valid_cmd: &LcsfValidCmd) -> Option<(CmdEnum, CmdPayload)> {".toList⟩,
      ⟨true, .function, "encode",
        r"(cmd_name: CmdEnum, payload: &CmdPayload) -> Option<LcsfValidCmd> {".toList⟩]

/-- A module declares its items and no others. -/
theorem filter_startsItem_lines (bridge : Bridge) :
    bridge.lines.filter startsItem =
      bridge.imports.useLines ++ bridge.items.map fun item => String.ofList item.chars := by
  rw [Bridge.lines_eq]
  simp only [List.filter_append, Bridge.filter_startsItem_head, filter_startsItem_enum,
    Bridge.filter_startsItem_structs, filter_startsItem_payload, Bridge.filter_startsItem_tables,
    Bridge.filter_startsItem_decode, Bridge.filter_startsItem_encode, Bridge.items,
    List.map_append, List.map_map, List.map_cons, List.map_nil, List.append_assoc,
    List.cons_append, List.nil_append]
  -- Both sides have the same shape, and their lines are compared one by one.
  refine congrArg _ (congrArg₂ _ ?_ (congrArg₂ _ ?_ (congrArg₂ _ ?_ (congrArg₂ _
    (List.map_congr_left fun _ _ => ?_) (congrArg₂ _ (List.map_congr_left fun _ _ => ?_)
      (congrArg₂ _ ?_ (congrArg₂ _ (List.map_congr_left fun _ _ => ?_) (congrArg₂ _ ?_ (congrArg₂ _
        (List.map_congr_left fun _ _ => ?_) (congrArg₂ _ (List.map_congr_left fun _ _ => ?_)
          (congrArg₂ _ ?_ (congrArg₂ _ ?_ rfl))))))))))))
  all_goals
    rw [← String.toList_inj]
    simp only [Function.comp_apply, Item.chars, opening, Decoder.head, Encoder.head,
      String.toList_append, List.append_assoc, String.toList_ofList]
    repeat rw [String.toList_ofList]
    rfl

/-- The names of the items of a kind are read off a module. -/
theorem itemNames_lines {bridge : Bridge} (h : ∀ item ∈ bridge.items, item.IsDeclared)
    (kind : ItemKind) :
    itemNames kind bridge.lines = (bridge.items.filter (·.kind = kind)).map (·.name) := by
  have himports : itemNames kind bridge.imports.useLines = [] := by
    rw [itemNames, List.filterMap_eq_nil_iff]
    intro line hline
    obtain ⟨rest, rfl⟩ := Imports.exists_of_mem_useLines hline
    have hletter : kind.letter ≠ 'u' := by cases kind <;> decide
    rw [String.toList_append, String.toList_ofList, List.cons_append, itemName?, visibility,
      dropPrefix_other (by decide), Option.getD_none, nameBehind?, ItemKind.keyword,
      dropPrefix_other hletter, Option.map_none]
  rw [itemNames_eq_filter, filter_startsItem_lines, itemNames, List.filterMap_append]
  rw [itemNames] at himports
  rw [himports, List.nil_append]
  exact itemNames_items kind h

/-! ## Functions of the command enumeration -/

/-- The name of the function of an enumeration that a line declares. -/
def methodName? (line : String) : Option String :=
  (between? (indent 1 "") "" line.toList).bind (itemName? .function ·.toList)

/-- The names of the functions that belong to the command enumeration. -/
def methodNames (lines : List String) : List String :=
  (enumFunctions lines).filterMap methodName?

theorem methodName_method (text : String) :
    methodName? (indent 1 text) = itemName? .function text.toList := by
  have hindent : indent 1 text = indent 1 "" ++ text ++ "" := by
    rw [← String.toList_inj]
    simp only [String.toList_append, toList_indent, String.toList_empty, List.append_nil]
  rw [methodName?, hindent, between_append, Option.bind_some]

theorem methodName_indent (level : Nat) (text : String) :
    methodName? (indent (level + 2) text) = none := by
  have hindent : indent (level + 2) text = indent 1 (indent (level + 1) text) := by
    rw [← String.toList_inj]
    simp only [toList_indent]
    rw [← List.append_assoc, List.replicate_append_replicate]
    congr 2
    omega
  rw [hindent, methodName_method]
  exact itemName_of_not_startsItem (startsItem_indent level text) _

/-- The command enumeration has two functions. -/
theorem methodNames_bridge (bridge : Bridge) : methodNames bridge.lines = ["id", "from_id"] := by
  have harms {α : Type} (entries : List α) (text : α → String) :
      (entries.map fun entry => indent 3 (text entry)).filterMap methodName? = [] := by
    rw [List.filterMap_map, List.filterMap_eq_nil_iff]
    exact fun entry _ => methodName_indent 1 (text entry)
  have hdoc : methodName? (indent 1 "/// Wire identifier of the command.") = none := by
    rw [methodName_method]
    exact itemName_of_not_startsItem (startsItem_ofList '/' _) _
  have hclosing : methodName? (indent 1 closing) = none := by
    rw [methodName_method]
    exact itemName_of_not_startsItem (startsItem_ofList '}' _) _
  have hblank : methodName? "" = none := rfl
  have hid : methodName? (indent 1 (opening "pub fn id(self) -> u16")) = some "id" := by
    rw [methodName_method, opening, String.toList_append]
    repeat rw [String.toList_ofList]
    rfl
  have hfromId : methodName? (indent 1 (opening "pub fn from_id(cmd_id: u16) -> Option<Self>")) =
      some "from_id" := by
    rw [methodName_method, opening, String.toList_append]
    repeat rw [String.toList_ofList]
    rfl
  rw [methodNames, enumFunctions_bridge, functionLines, idLines, fromIdLines]
  simp only [List.filterMap_append, harms]
  rw [List.filterMap_cons_none hdoc, List.filterMap_cons_some hid,
    List.filterMap_cons_none (methodName_indent 0 _), List.filterMap_cons_none
      (methodName_indent 0 _), List.filterMap_cons_none hclosing, List.filterMap_cons_none hblank,
    List.filterMap_cons_some hfromId, List.filterMap_cons_none (methodName_indent 0 _),
    List.filterMap_cons_none (methodName_indent 1 _), List.filterMap_cons_none
      (methodName_indent 0 _), List.filterMap_cons_none hclosing]
  rfl

/-! ## Names of a protocol -/

section Protocol

variable {protocol : Protocol}

/-- The struct of a group. -/
def Item.ofPayload (group : Group) : Item :=
  ⟨true, .payload, group.payloadType, r" {".toList⟩

/-- The constant of a group. -/
def Item.ofTable (group : Group) : Item :=
  ⟨false, .constant, descriptorConstant group.stem, ": &[LcsfAttDesc] = &[".toList⟩

/-- The function that decodes a group. -/
def Item.ofDecoder (group : Group) : Item :=
  ⟨false, .function, Decoder.name group.stem,
    ("(att_arr: &[LcsfValidAtt]) -> Option<" ++ group.payloadType ++ r"> {").toList⟩

/-- The function that encodes a group. -/
def Item.ofEncoder (group : Group) : Item :=
  ⟨false, .function, Encoder.name group.stem,
    ("(payload: &" ++ group.payloadType ++ r") -> Vec<LcsfValidAtt> {").toList⟩

/-- The constant for the descriptor of a protocol. -/
def protocolDescriptor (name : String) : String :=
  "LCSF_" ++ Text.upper name ++ "_PROT_DESC"

/-- The items of a module are those of the groups of its protocol, of the groups that its role
receives and sends, and a few fixed ones. -/
theorem items_bridge (hwell : WellFormed protocol) (role : Role) :
    (Bridge.build (Prepared.ofProtocol protocol) role).items =
      [⟨true, .constant, Bridge.idConstant protocol.name,
          (": u16 = " ++ Text.hexWord protocol.id ++ ";").toList⟩,
        ⟨true, .enumeration, "CmdEnum", r" {".toList⟩,
        ⟨false, .implementation, "CmdEnum", r" {".toList⟩] ++
      (definedGroups protocol).map Item.ofPayload ++
      [⟨true, .enumeration, "CmdPayload", r" {".toList⟩] ++
      (definedGroups protocol).map Item.ofTable ++
      [⟨true, .constant, protocolDescriptor protocol.name,
        r": LcsfProtDesc = LcsfProtDesc {".toList⟩] ++
      (decodedGroups protocol role).map Item.ofDecoder ++
      (encodedGroups protocol role).map Item.ofEncoder ++
      [⟨true, .function, "decode",
          r"(valid_cmd: &LcsfValidCmd) -> Option<(CmdEnum, CmdPayload)> {".toList⟩,
        ⟨true, .function, "encode",
          r"(cmd_name: CmdEnum, payload: &CmdPayload) -> Option<LcsfValidCmd> {".toList⟩] := by
  let bridge := Bridge.build (Prepared.ofProtocol protocol) role
  have hstructs : (if bridge.nesting then bridge.nested else []) ++ bridge.payloads =
      (definedGroups protocol).map PayloadStruct.ofGroup := by
    rw [← structs_eq hwell role]
    split
    next => rfl
    next hnone => rw [nested_eq_nil (Bool.eq_false_iff.mpr hnone)]
  rw [Bridge.items, hstructs, tables_eq hwell, decoders_eq hwell, encoders_eq hwell]
  simp only [List.map_map]
  rfl

theorem isWord_descriptorConstant {group : Group} (h : group.Named) :
    IsWord (descriptorConstant group.stem) :=
  h.isWord_stem.upper.append (IsWord.fixed rfl : IsWord "_ATT_DESC")

theorem isWord_decoderName {group : Group} (h : group.Named) :
    IsWord (Decoder.name group.stem) :=
  ((IsWord.fixed rfl : IsWord "decode_").append h.isWord_stem).append
    (IsWord.fixed rfl : IsWord "_payload")

theorem isWord_encoderName {group : Group} (h : group.Named) :
    IsWord (Encoder.name group.stem) :=
  ((IsWord.fixed rfl : IsWord "encode_").append h.isWord_stem).append
    (IsWord.fixed rfl : IsWord "_payload")

theorem isDeclared_items (hwell : WellFormed protocol) (role : Role) :
    ∀ item ∈ (Bridge.build (Prepared.ofProtocol protocol) role).items, item.IsDeclared := by
  have hupper := hwell.protocol_name.isWord.upper
  have hnamed {group : Group} (h : group ∈ protocol.groups) := named_of_mem_groups hwell h
  have hlcsf : IsWord ("LCSF_" ++ Text.upper protocol.name) :=
    (IsWord.fixed rfl : IsWord "LCSF_").append hupper
  have hblank : ¬IsNameRest ' ' := by decide
  have hcolon : ¬IsNameRest ':' := by decide
  have hparenthesis : ¬IsNameRest '(' := by decide
  rw [items_bridge hwell]
  simp only [List.forall_mem_append, List.forall_mem_cons, List.forall_mem_map]
  refine ⟨⟨⟨⟨⟨⟨⟨⟨?_, ?_, ?_, List.forall_mem_nil _⟩, ?_⟩, ?_, List.forall_mem_nil _⟩, ?_⟩, ?_,
    List.forall_mem_nil _⟩, ?_⟩, ?_⟩, ?_, ?_, List.forall_mem_nil _⟩
  · refine ⟨hlcsf.append (IsWord.fixed rfl), _, ?_, hcolon⟩
    rw [String.append_assoc, String.toList_append, String.toList_ofList]
    rfl
  · exact ⟨IsWord.fixed rfl, _, by rw [String.toList_ofList]; rfl, hblank⟩
  · exact ⟨IsWord.fixed rfl, _, by rw [String.toList_ofList]; rfl, hblank⟩
  · exact fun group hgroup => ⟨(hnamed (mem_definedGroups.mp hgroup)).isWord_payloadType, _, by
      rw [Item.ofPayload, String.toList_ofList]; rfl, hblank⟩
  · exact ⟨IsWord.fixed rfl, _, by rw [String.toList_ofList]; rfl, hblank⟩
  · exact fun group hgroup =>
      ⟨isWord_descriptorConstant (hnamed (mem_definedGroups.mp hgroup)), _, by
      rw [Item.ofTable, String.toList_ofList]; rfl, hcolon⟩
  · exact ⟨hlcsf.append (IsWord.fixed rfl), _, by rw [String.toList_ofList]; rfl, hcolon⟩
  · intro group hgroup
    refine ⟨isWord_decoderName (hnamed (mem_groups_of_mem_decodedGroups hgroup)), _, ?_,
      hparenthesis⟩
    rw [Item.ofDecoder, String.append_assoc, String.toList_append, String.toList_ofList]
    rfl
  · intro group hgroup
    refine ⟨isWord_encoderName (hnamed (mem_groups_of_mem_encodedGroups hgroup)), _, ?_,
      hparenthesis⟩
    rw [Item.ofEncoder, String.append_assoc, String.toList_append, String.toList_ofList]
    rfl
  · exact ⟨IsWord.fixed rfl, _, by rw [String.toList_ofList]; rfl, hparenthesis⟩
  · exact ⟨IsWord.fixed rfl, _, by rw [String.toList_ofList]; rfl, hparenthesis⟩

/-- The payload structs of a module are those of the groups. -/
theorem payloadNames_bridge (hwell : WellFormed protocol) (role : Role) :
    itemNames .payload (Bridge.build (Prepared.ofProtocol protocol) role).lines =
      (definedGroups protocol).map Group.payloadType := by
  rw [itemNames_lines (isDeclared_items hwell role), items_bridge hwell]
  simp only [List.filter_append, List.filter_map, List.filter_cons, List.filter_nil,
    List.filter_true, List.filter_false, Function.comp_def, Item.ofPayload, Item.ofTable,
    Item.ofDecoder, Item.ofEncoder, reduceCtorEq, decide_false, decide_true, Bool.false_eq_true,
    if_false, List.map_map, List.map_nil, List.nil_append, List.append_nil]

/-- The constants of a module are those of the groups and two of the protocol. -/
theorem constantNames_bridge (hwell : WellFormed protocol) (role : Role) :
    itemNames .constant (Bridge.build (Prepared.ofProtocol protocol) role).lines =
      Bridge.idConstant protocol.name ::
        ((definedGroups protocol).map (fun group => descriptorConstant group.stem) ++
          [protocolDescriptor protocol.name]) := by
  rw [itemNames_lines (isDeclared_items hwell role), items_bridge hwell]
  simp only [List.filter_append, List.filter_map, List.filter_cons, List.filter_nil,
    List.filter_true, List.filter_false, Function.comp_def, Item.ofPayload, Item.ofTable,
    Item.ofDecoder, Item.ofEncoder, reduceCtorEq, decide_false, decide_true, Bool.false_eq_true,
    if_true, if_false, List.map_append, List.map_map, List.map_cons, List.map_nil,
    List.cons_append, List.nil_append, List.append_nil]

/-- The functions of a module are those of the groups that its role receives and sends, and
two for whole commands. -/
theorem functionNames_bridge (hwell : WellFormed protocol) (role : Role) :
    itemNames .function (Bridge.build (Prepared.ofProtocol protocol) role).lines =
      (decodedGroups protocol role).map (fun group => Decoder.name group.stem) ++
        ((encodedGroups protocol role).map (fun group => Encoder.name group.stem) ++
          ["decode", "encode"]) := by
  rw [itemNames_lines (isDeclared_items hwell role), items_bridge hwell]
  simp only [List.filter_append, List.filter_map, List.filter_cons, List.filter_nil,
    List.filter_true, List.filter_false, Function.comp_def, Item.ofPayload, Item.ofTable,
    Item.ofDecoder, Item.ofEncoder, reduceCtorEq, decide_false, decide_true, Bool.false_eq_true,
    if_true, if_false, List.map_append, List.map_map, List.map_cons, List.map_nil,
    List.nil_append, List.append_assoc]

end Protocol

end Typed
end CommandSet
