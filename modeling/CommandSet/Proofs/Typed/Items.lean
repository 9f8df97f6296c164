import CommandSet.Proofs.Text.Blocks
import CommandSet.Typed.Bridge

/-!
# Items of the Rust bridge

What a bridge module shows to others starts on lines of its own, and so does each of its
functions.  An item is found by its first line, because no line before it starts in the same
way.

Main definitions:

- {lit}`startsItem`: the lines that start an item.
- {lit}`StartAs`, {lit}`Diverge`: how the items among some lines start, and that no line starts
  in two ways.
- {lit}`itemBlocks`: the items whose first lines start in a given way.
- {lit}`Bridge.headLines`, {lit}`Bridge.structLines`, {lit}`Bridge.tableLines`: the parts of a
  module between its enumerations and functions.

Main results:

- Theorem {lit}`blockOf_item`: a block that starts an item is read off the module.
- Theorem {lit}`Bridge.lines_eq`: a module is the sequence of its parts.
-/

namespace CommandSet
namespace Typed

/-! ## Items -/

/-- Whether a line starts an item: with the first letter of a keyword. -/
def startsItem (line : String) : Bool :=
  line.toList.head?.any Char.isLower

theorem startsItem_ofList (c : Char) (chars : List Char) :
    startsItem (String.ofList (c :: chars)) = c.isLower := by
  rw [startsItem, String.toList_ofList]
  rfl

theorem startsItem_append (c : Char) (chars : List Char) (rest : String) :
    startsItem (String.ofList (c :: chars) ++ rest) = c.isLower := by
  rw [startsItem, String.toList_append, String.toList_ofList]
  rfl

@[simp]
theorem startsItem_indent (level : Nat) (text : String) :
    startsItem (indent (level + 1) text) = false := by
  rw [startsItem, toList_indent, Nat.mul_succ, List.replicate_succ]
  rfl

theorem filter_startsItem_indent {α : Type} (entries : List α) (level : Nat) (text : α → String) :
    (entries.map fun entry => indent (level + 1) (text entry)).filter startsItem = [] := by
  simp [List.filter_eq_nil_iff]

/-- The items of a list are those of what it is built from. -/
theorem filter_startsItem_flatMap {α : Type} {entries : List α} {build items : α → List String}
    (h : ∀ entry ∈ entries, (build entry).filter startsItem = items entry) :
    (entries.flatMap build).filter startsItem = entries.flatMap items := by
  rw [List.filter_flatMap]
  exact List.flatMap_congr h

/-- The lines that import something. -/
def Imports.useLines (imports : Imports) : List String :=
  [useLine "lcsf_lib::lcsf_validator::" imports.validator] ++
    (if imports.numbers.isEmpty then [] else [useLine "lcsf_lib::vle::" imports.numbers]) ++
    if imports.text then ["use std::ffi::CString;"] else []

/-- Imports start with their keyword. -/
theorem Imports.exists_of_mem_useLines {imports : Imports} {line : String}
    (h : line ∈ imports.useLines) : ∃ rest, line = "use " ++ rest := by
  have huse (path : String) (items : List String) :
      ∃ rest, useLine path items = "use " ++ rest := by
    unfold useLine
    simp only [String.append_assoc]
    split <;> exact ⟨_, rfl⟩
  simp only [useLines, List.mem_append, List.mem_singleton] at h
  rcases h with (rfl | h) | h
  · exact huse _ _
  · split at h
    · exact absurd h List.not_mem_nil
    · exact List.mem_singleton.mp h ▸ huse _ _
  · split at h
    · refine ⟨"std::ffi::CString;", (List.mem_singleton.mp h).trans ?_⟩
      rw [← String.toList_inj, String.toList_append]
      repeat rw [String.toList_ofList]
      rfl
    · exact absurd h List.not_mem_nil

theorem filter_startsItem_imports (imports : Imports) :
    imports.lines.filter startsItem = imports.useLines := by
  have hblank : [""].filter startsItem = [] := rfl
  have huse : ∀ line ∈ imports.useLines, startsItem line = true := by
    intro line hline
    obtain ⟨rest, rfl⟩ := Imports.exists_of_mem_useLines hline
    exact startsItem_append _ _ _
  have hlines : imports.lines = imports.useLines ++ [""] := by
    simp only [Imports.lines, Imports.useLines]
  rw [hlines, List.filter_append, hblank, List.append_nil, List.filter_eq_self.mpr huse]

theorem filter_startsItem_enum (variants : List CommandVariant) :
    (CommandVariant.enumLines variants).filter startsItem =
      [opening "pub enum CmdEnum", opening "impl CmdEnum"] := by
  simp only [CommandVariant.enumLines, List.filter_append, filter_startsItem_indent,
    List.filter_cons, List.filter_nil, startsItem_indent, opening, closing]
  repeat rw [startsItem_append]
  repeat rw [startsItem_ofList]
  rfl

theorem filter_startsItem_struct (payload : PayloadStruct) :
    payload.lines.filter startsItem = [opening ("pub struct " ++ payload.typeName)] := by
  simp only [PayloadStruct.lines, List.filter_append, filter_startsItem_indent, List.filter_cons,
    List.filter_nil, opening, closing, String.append_assoc]
  repeat rw [startsItem_append]
  repeat rw [startsItem_ofList]
  rfl

theorem filter_startsItem_payload (variants : List (String × String)) :
    (Bridge.payloadLines variants).filter startsItem = [opening "pub enum CmdPayload"] := by
  simp only [Bridge.payloadLines, List.filter_append, filter_startsItem_indent,
    List.filter_cons, List.filter_nil, startsItem_indent, opening, closing]
  repeat rw [startsItem_append]
  repeat rw [startsItem_ofList]
  rfl

theorem filter_startsItem_table (table : AttributeTable) :
    table.lines.filter startsItem = ["const " ++ table.constant ++ ": &[LcsfAttDesc] = &["] := by
  have hrow : ∀ row ∈ table.rows, row.lines.filter startsItem = [] := by
    intro row _
    simp only [AttributeRow.lines, List.filter_cons, List.filter_nil, startsItem_indent]
    rfl
  simp only [AttributeTable.lines, List.filter_append, filter_startsItem_flatMap hrow,
    List.filter_cons, List.filter_nil, String.append_assoc]
  repeat rw [startsItem_append]
  repeat rw [startsItem_ofList]
  simp only [List.flatMap_eq_nil_iff.mpr fun _ _ => rfl]
  rfl

theorem filter_startsItem_descriptor (protocol : String) (rows : List CommandRow) :
    (Bridge.descriptorLines protocol rows).filter startsItem =
      [opening ("pub const LCSF_" ++ Text.upper protocol ++
        "_PROT_DESC: LcsfProtDesc = LcsfProtDesc")] := by
  simp only [Bridge.descriptorLines, List.filter_append, filter_startsItem_indent,
    List.filter_cons, List.filter_nil, startsItem_indent, opening, closing, String.append_assoc]
  repeat rw [startsItem_append]
  repeat rw [startsItem_ofList]
  rfl

/-- The first line of a decoder. -/
def Decoder.head (decoder : Decoder) : String :=
  opening ("fn " ++ name decoder.stem ++ "(att_arr: &[LcsfValidAtt]) -> Option<" ++
    decoder.typeName ++ ">")

/-- The first line of an encoder. -/
def Encoder.head (encoder : Encoder) : String :=
  opening ("fn " ++ name encoder.stem ++ "(payload: &" ++ encoder.typeName ++
    ") -> Vec<LcsfValidAtt>")

theorem filter_startsItem_decoder (decoder : Decoder) :
    decoder.lines.filter startsItem = [decoder.head] := by
  have hfield : ∀ field ∈ decoder.fields, field.lines.filter startsItem = [] := by
    intro field _
    unfold FieldDecoder.lines
    dsimp only
    split <;> simp
  simp only [Decoder.lines, Decoder.head, List.filter_append, filter_startsItem_flatMap hfield,
    List.filter_cons, List.filter_nil, startsItem_indent, opening, closing, String.append_assoc]
  repeat rw [startsItem_append]
  repeat rw [startsItem_ofList]
  simp only [List.flatMap_eq_nil_iff.mpr fun _ _ => rfl]
  rfl

theorem filter_startsItem_encoder (encoder : Encoder) :
    encoder.lines.filter startsItem = [encoder.head] := by
  have hfield : ∀ field ∈ encoder.fields, field.lines.filter startsItem = [] := by
    intro field _
    unfold FieldEncoder.lines
    split <;> simp
  simp only [Encoder.lines, Encoder.head, List.filter_append, filter_startsItem_flatMap hfield,
    List.filter_cons, List.filter_nil, startsItem_indent, opening, closing, String.append_assoc]
  repeat rw [startsItem_append]
  repeat rw [startsItem_ofList]
  simp only [List.flatMap_eq_nil_iff.mpr fun _ _ => rfl]
  rfl

/-! ## Parts of a module -/

namespace Bridge

/-- The lines above the command enumeration. -/
def headLines (bridge : Bridge) : List String :=
  moduleBanner (bridge.protocol ++ " LCSF bridge (role " ++ bridge.role.label ++ ")") ++
    bridge.imports.lines ++
    ["/// Lcsf protocol identifier",
      "pub const " ++ idConstant bridge.protocol ++ ": u16 = " ++ Text.hexWord bridge.id ++ ";",
      ""]

/-- The payload structs with their headings. -/
def structLines (bridge : Bridge) : List String :=
  (if bridge.nesting then
      ["// Attribute with sub-attributes payloads", ""] ++ bridge.nested.flatMap PayloadStruct.lines
    else []) ++
    if bridge.payloads.isEmpty then []
    else ["// Command payloads", ""] ++ bridge.payloads.flatMap PayloadStruct.lines

/-- The lines between the payload type and the function that decodes a command. -/
def tableLines (bridge : Bridge) : List String :=
  bridge.tables.flatMap AttributeTable.lines ++
    descriptorLines bridge.protocol bridge.rows ++ bridge.decoders.flatMap Decoder.lines ++
    bridge.encoders.flatMap Encoder.lines

/-- The parts of a module. -/
theorem lines_eq (bridge : Bridge) :
    bridge.lines = bridge.headLines ++ (CommandVariant.enumLines bridge.commands ++
      (bridge.structLines ++ (payloadLines bridge.variants ++ (bridge.tableLines ++
        (bridge.decodeLines ++ bridge.encodeLines))))) := by
  simp only [lines, headLines, structLines, tableLines, List.append_assoc]

theorem filter_startsItem_head (bridge : Bridge) :
    bridge.headLines.filter startsItem = bridge.imports.useLines ++
      ["pub const " ++ idConstant bridge.protocol ++ ": u16 = " ++ Text.hexWord bridge.id ++
        ";"] := by
  simp only [headLines, moduleBanner, List.filter_append, filter_startsItem_imports,
    List.filter_cons, List.filter_nil, String.append_assoc]
  repeat rw [startsItem_append]
  repeat rw [startsItem_ofList]
  rfl

theorem filter_startsItem_structs (bridge : Bridge) :
    bridge.structLines.filter startsItem =
      ((if bridge.nesting then bridge.nested else []) ++ bridge.payloads).map
        fun payload => opening ("pub struct " ++ payload.typeName) := by
  have hstructs (payloads : List PayloadStruct) :
      (payloads.flatMap PayloadStruct.lines).filter startsItem =
        payloads.map fun payload => opening ("pub struct " ++ payload.typeName) := by
    rw [filter_startsItem_flatMap fun payload _ => filter_startsItem_struct payload]
    exact List.map_eq_flatMap.symm
  have hdoc (c : Char) (chars : List Char) (h : c.isLower = false) :
      [String.ofList (c :: chars), ""].filter startsItem = [] := by
    rw [List.filter_cons, startsItem_ofList, h]
    rfl
  rw [structLines, List.filter_append, List.map_append]
  congr 1
  · split
    · rw [List.filter_append, hdoc _ _ rfl, hstructs, List.nil_append]
    · rfl
  · split
    next hempty =>
      rw [List.isEmpty_iff.mp hempty]
      rfl
    next => rw [List.filter_append, hdoc _ _ rfl, hstructs, List.nil_append]

/-- The items between the payload type and the function that decodes a command. -/
theorem filter_startsItem_tables (bridge : Bridge) :
    bridge.tableLines.filter startsItem =
      bridge.tables.map (fun table => "const " ++ table.constant ++ ": &[LcsfAttDesc] = &[") ++
        opening ("pub const LCSF_" ++ Text.upper bridge.protocol ++
          "_PROT_DESC: LcsfProtDesc = LcsfProtDesc") ::
            (bridge.decoders.map Decoder.head ++ bridge.encoders.map Encoder.head) := by
  simp only [tableLines, List.filter_append, filter_startsItem_descriptor,
    filter_startsItem_flatMap fun table _ => filter_startsItem_table table,
    filter_startsItem_flatMap fun decoder _ => filter_startsItem_decoder decoder,
    filter_startsItem_flatMap fun encoder _ => filter_startsItem_encoder encoder,
    ← List.map_eq_flatMap, List.append_assoc, List.cons_append, List.nil_append]

/-- The function that decodes a command is one item. -/
theorem filter_startsItem_decode (bridge : Bridge) :
    bridge.decodeLines.filter startsItem =
      [opening "pub fn decode(valid_cmd: &LcsfValidCmd) -> Option<(CmdEnum, CmdPayload)>"] := by
  unfold decodeLines
  split <;>
  · simp only [List.filter_append, filter_startsItem_indent, List.filter_cons, List.filter_nil,
      startsItem_indent, opening, closing]
    repeat rw [startsItem_append]
    repeat rw [startsItem_ofList]
    rfl

/-- The function that encodes a command is one item. -/
theorem filter_startsItem_encode (bridge : Bridge) :
    bridge.encodeLines.filter startsItem =
      [opening
        "pub fn encode(cmd_name: CmdEnum, payload: &CmdPayload) -> Option<LcsfValidCmd>"] := by
  simp only [encodeLines, List.filter_append, filter_startsItem_indent, List.filter_cons,
    List.filter_nil, startsItem_indent, opening, closing]
  repeat rw [startsItem_append]
  repeat rw [startsItem_ofList]
  rfl

end Bridge

/-! ## How items start -/

/-- The items among some lines start in the given ways. -/
def StartAs (starts : List String) (lines : List String) : Prop :=
  ∀ line ∈ lines.filter startsItem, ∃ start ∈ starts, start.toList <+: line.toList

/-- Neither of two starts begins with the other. -/
def Diverge (start other : List Char) : Prop :=
  ¬start <+: other ∧ ¬other <+: start

instance (start other : List Char) : Decidable (Diverge start other) :=
  inferInstanceAs (Decidable (_ ∧ _))

section StartAs

variable {starts more lines others : List String}

/-- A comment starts no item. -/
theorem startAs_comment {c : Char} (h : c.isLower = false) (chars : List Char) :
    StartAs [] [String.ofList (c :: chars)] := by
  rw [StartAs, List.filter_cons, startsItem_ofList, h]
  exact List.forall_mem_nil _

/-- Items that start with one text. -/
theorem startAs_of_eq {start : String} (hlines : lines.filter startsItem = others)
    (hstart : ∀ line ∈ others, start.toList <+: line.toList) : StartAs [start] lines := by
  intro line hline
  exact ⟨start, List.mem_singleton_self _, hstart line (hlines ▸ hline)⟩

theorem StartAs.append (h : StartAs starts lines) (hothers : StartAs more others) :
    StartAs (starts ++ more) (lines ++ others) := by
  intro line hline
  rw [List.filter_append, List.mem_append] at hline
  rcases hline with hline | hline
  · obtain ⟨start, hmem, hstart⟩ := h line hline
    exact ⟨start, List.mem_append_left _ hmem, hstart⟩
  · obtain ⟨start, hmem, hstart⟩ := hothers line hline
    exact ⟨start, List.mem_append_right _ hmem, hstart⟩

/-- No item starts in a way that diverges from theirs. -/
theorem StartAs.isPrefixOf_eq_false (h : StartAs starts lines) {start : List Char}
    (hdiverge : ∀ other ∈ starts, Diverge start other.toList) :
    ∀ line ∈ lines.filter startsItem, start.isPrefixOf line.toList = false := by
  intro line hline
  obtain ⟨other, hother, hprefix⟩ := h line hline
  rw [Bool.eq_false_iff, ne_eq, List.isPrefixOf_iff_prefix]
  intro hstart
  rcases List.prefix_or_prefix_of_prefix hstart hprefix with hbefore | hbehind
  · exact (hdiverge other hother).1 hbefore
  · exact (hdiverge other hother).2 hbehind

theorem StartAs.not_mem (h : StartAs starts lines) {start : List Char} {rest : String}
    (hdiverge : ∀ other ∈ starts, Diverge start other.toList) :
    String.ofList start ++ rest ∉ lines.filter startsItem := by
  intro hmem
  have hstart := h.isPrefixOf_eq_false hdiverge _ hmem
  rw [String.toList_append, String.toList_ofList, Bool.eq_false_iff, ne_eq,
    List.isPrefixOf_iff_prefix] at hstart
  exact hstart (List.prefix_append _ _)

end StartAs

theorem toList_prefix_append (start rest : String) : start.toList <+: (start ++ rest).toList := by
  rw [String.toList_append]
  exact List.prefix_append _ _

theorem startAs_enum (variants : List CommandVariant) :
    StartAs ["pub enum CmdEnum", "impl CmdEnum"] (CommandVariant.enumLines variants) := by
  intro line hline
  rw [filter_startsItem_enum, List.mem_pair] at hline
  rcases hline with rfl | rfl
  · exact ⟨_, List.mem_cons_self, toList_prefix_append _ _⟩
  · exact ⟨_, List.mem_cons_of_mem _ (List.mem_singleton_self _), toList_prefix_append _ _⟩

theorem startAs_payload (variants : List (String × String)) :
    StartAs ["pub enum CmdPayload"] (Bridge.payloadLines variants) :=
  startAs_of_eq (filter_startsItem_payload variants)
    (List.forall_mem_singleton.mpr (toList_prefix_append _ _))

theorem startAs_tables (tables : List AttributeTable) :
    StartAs ["const "] (tables.flatMap AttributeTable.lines) := by
  refine startAs_of_eq (filter_startsItem_flatMap fun table _ => filter_startsItem_table table) ?_
  rw [← List.map_eq_flatMap, List.forall_mem_map]
  intro table _
  rw [String.append_assoc]
  exact toList_prefix_append _ _

theorem startAs_descriptor (protocol : String) (rows : List CommandRow) :
    StartAs ["pub const LCSF_"] (Bridge.descriptorLines protocol rows) := by
  refine startAs_of_eq (filter_startsItem_descriptor protocol rows) ?_
  rw [opening, String.append_assoc, String.append_assoc]
  exact List.forall_mem_singleton.mpr (toList_prefix_append _ _)

theorem startAs_decoders (decoders : List Decoder) :
    StartAs ["fn decode_"] (decoders.flatMap Decoder.lines) := by
  have hitems := filter_startsItem_flatMap fun decoder (_ : decoder ∈ decoders) =>
    filter_startsItem_decoder decoder
  refine startAs_of_eq hitems ?_
  rw [← List.map_eq_flatMap, List.forall_mem_map]
  intro decoder _
  simp only [Decoder.head, Decoder.name, opening, String.append_assoc, String.toList_append]
  repeat rw [String.toList_ofList]
  exact ⟨_, rfl⟩

theorem startAs_encoders (encoders : List Encoder) :
    StartAs ["fn encode_"] (encoders.flatMap Encoder.lines) := by
  have hitems := filter_startsItem_flatMap fun encoder (_ : encoder ∈ encoders) =>
    filter_startsItem_encoder encoder
  refine startAs_of_eq hitems ?_
  rw [← List.map_eq_flatMap, List.forall_mem_map]
  intro encoder _
  simp only [Encoder.head, Encoder.name, opening, String.append_assoc, String.toList_append]
  repeat rw [String.toList_ofList]
  exact ⟨_, rfl⟩

namespace Bridge

theorem startAs_head (bridge : Bridge) :
    StartAs ["use ", "pub const "] bridge.headLines := by
  intro line hline
  rw [filter_startsItem_head, List.mem_append, List.mem_singleton] at hline
  rcases hline with himport | rfl
  · obtain ⟨rest, rfl⟩ := Imports.exists_of_mem_useLines himport
    exact ⟨_, List.mem_cons_self, toList_prefix_append _ _⟩
  · refine ⟨_, List.mem_cons_of_mem _ (List.mem_singleton_self _), ?_⟩
    simp only [String.append_assoc]
    exact toList_prefix_append _ _

theorem startAs_structs (bridge : Bridge) : StartAs ["pub struct "] bridge.structLines := by
  refine startAs_of_eq bridge.filter_startsItem_structs
    (List.forall_mem_map.mpr fun payload _ => ?_)
  rw [opening, String.append_assoc]
  exact toList_prefix_append _ _

theorem startAs_tableLines (bridge : Bridge) :
    StartAs ["const ", "pub const LCSF_", "fn decode_", "fn encode_"] bridge.tableLines :=
  (((startAs_tables _).append (startAs_descriptor _ _)).append (startAs_decoders _)).append
    (startAs_encoders _)

theorem startAs_decode (bridge : Bridge) : StartAs ["pub fn decode("] bridge.decodeLines := by
  refine startAs_of_eq bridge.filter_startsItem_decode (List.forall_mem_singleton.mpr ?_)
  simp only [opening, String.toList_append]
  repeat rw [String.toList_ofList]
  exact ⟨_, rfl⟩

theorem startAs_encode (bridge : Bridge) : StartAs ["pub fn encode("] bridge.encodeLines := by
  refine startAs_of_eq bridge.filter_startsItem_encode (List.forall_mem_singleton.mpr ?_)
  simp only [opening, String.toList_append]
  repeat rw [String.toList_ofList]
  exact ⟨_, rfl⟩

end Bridge

/-! ## Blocks -/

/-- The first line and the body of each outermost block whose first line starts in some way. -/
def itemBlocks (start : List Char) : List String → List (String × List String)
  | [] => []
  | line :: rest =>
      if start.isPrefixOf line.toList then
        (line, rest.takeWhile (!closesAt 0 ·)) :: itemBlocks start rest
      else itemBlocks start rest

/-- An item as it is written: its first line, its body, and the two lines behind it. -/
structure IsItem (start : List Char) (head : String) (body lines : List String) : Prop where
  lines_eq : lines = head :: (body ++ [closing, ""])
  head : start.isPrefixOf head.toList = true
  body : ∀ line ∈ body, ∃ level text, line = indent (level + 1) text

section Blocks

variable {start : List Char}

theorem itemBlocks_append {front : List String}
    (h : ∀ line ∈ front, start.isPrefixOf line.toList = false) (rest : List String) :
    itemBlocks start (front ++ rest) = itemBlocks start rest := by
  induction front with
  | nil => rfl
  | cons line front ih =>
      rw [List.forall_mem_cons] at h
      rw [List.cons_append, itemBlocks, h.1, if_neg Bool.false_ne_true, ih h.2]

/-- An item is one block. -/
theorem itemBlocks_item {c : Char} (hblank : c ≠ ' ') (hclosing : c ≠ '}') {head : String}
    {body lines : List String} (h : IsItem (c :: start) head body lines) (rest : List String) :
    itemBlocks (c :: start) (lines ++ rest) = (head, body) :: itemBlocks (c :: start) rest := by
  have hplain : ∀ line ∈ body, (c :: start).isPrefixOf line.toList = false := by
    intro line hline
    obtain ⟨level, text, rfl⟩ := h.body line hline
    exact isPrefixOf_indent hblank start level text
  have hopen : ∀ line ∈ body, (!closesAt 0 line) = true := by
    intro line hline
    obtain ⟨level, text, rfl⟩ := h.body line hline
    rw [closesAt_indent (Nat.succ_pos level), Bool.not_false]
  have hend : ∀ line ∈ [closing, ""], (c :: start).isPrefixOf line.toList = false := by
    have hlist : closing.toList = ['}'] := by decide
    simp [hlist, List.isPrefixOf, hclosing]
  have hclose : closesAt 0 closing = true := by decide
  have htake (behind : List String) :
      (body ++ ([closing, ""] ++ behind)).takeWhile (!closesAt 0 ·) = body := by
    rw [List.takeWhile_append_of_pos hopen, List.cons_append,
      List.takeWhile_cons_of_neg (by simp [hclose]), List.append_nil]
  rw [h.lines_eq, List.cons_append, List.append_assoc, itemBlocks, if_pos h.head, htake,
    itemBlocks_append hplain, itemBlocks_append hend]

/-- The items of a part of a module are its blocks. -/
theorem itemBlocks_flatMap {α : Type} {c : Char} (hblank : c ≠ ' ') (hclosing : c ≠ '}')
    {entries : List α} {head : α → String} {body lines : α → List String}
    (h : ∀ entry ∈ entries, IsItem (c :: start) (head entry) (body entry) (lines entry))
    (rest : List String) :
    itemBlocks (c :: start) (entries.flatMap lines ++ rest) =
      entries.map (fun entry => (head entry, body entry)) ++ itemBlocks (c :: start) rest := by
  induction entries with
  | nil => rfl
  | cons entry entries ih =>
      rw [List.forall_mem_cons] at h
      rw [List.flatMap_cons, List.append_assoc, itemBlocks_item hblank hclosing h.1, ih h.2]
      rfl

/-- Where no item starts in this way, there is no such block. -/
theorem itemBlocks_of_startAs {starts front : List String} (hfront : StartAs starts front)
    (hstart : start.head?.any Char.isLower = true)
    (hdiverge : ∀ other ∈ starts, Diverge start other.toList) (rest : List String) :
    itemBlocks start (front ++ rest) = itemBlocks start rest := by
  refine itemBlocks_append (fun line hline => ?_) rest
  cases hitem : startsItem line with
  | true => exact hfront.isPrefixOf_eq_false hdiverge line (List.mem_filter.mpr ⟨hline, hitem⟩)
  | false =>
      rw [Bool.eq_false_iff, ne_eq, List.isPrefixOf_iff_prefix]
      rintro ⟨chars, hchars⟩
      rw [startsItem, ← hchars] at hitem
      cases start with
      | nil => cases hstart
      | cons c start => exact absurd hstart (Bool.eq_false_iff.mp hitem)

end Blocks

/-- A block that starts an item is read off the lines that contain it. -/
theorem blockOf_item {head ending : String} {front body rest : List String}
    (hitem : startsItem (opening head) = true) (hfront : opening head ∉ front.filter startsItem)
    (hbody : ∀ line ∈ body, closesAt 0 line = false) :
    blockOf 0 head (front ++ opening head :: (body ++ (closing ++ ending) :: rest)) = body := by
  have hother : ∀ line ∈ front, line ≠ indent 0 (opening head) := by
    rintro line hline rfl
    rw [indent_zero] at hline
    exact hfront (List.mem_filter.mpr ⟨hline, hitem⟩)
  have hclosing := closesAt_closing 0 ending
  rw [indent_zero] at hclosing
  have hblock := blockOf_append hother hbody hclosing rest
  rwa [indent_zero] at hblock

end Typed
end CommandSet
