import CommandSet.Proofs.Typed.Codecs
import CommandSet.Proofs.Typed.Items

/-!
# Codec functions of the Rust bridge

All functions of a bridge module that encode a payload struct are read off its lines, and all
that decode one.  They stand in the order of the commands and, within a command, of its groups.

Main definitions:

- {lit}`EncodeFunction`, {lit}`DecodeFunction`: what they say.
- {lit}`encodeFunctions`, {lit}`decodeFunctions`: all of them.

Main results:

- Theorems {lit}`encodeFunctions_lines`, {lit}`decodeFunctions_lines`: the functions of a
  module.
-/

namespace CommandSet
namespace Typed

/-! ## Functions -/

/-- A function that encodes a payload struct. -/
structure EncodeFunction where
  name : String
  typeName : String
  capacity : Nat
  pushes : List Push
deriving Repr, DecidableEq

/-- A function that decodes a payload struct. -/
structure DecodeFunction where
  name : String
  typeName : String
  takes : List Take
deriving Repr, DecidableEq

/-- What the first line and the body of an encoder say. -/
def encodeFunction? : String × List String → Option EncodeFunction
  | (head, first :: rest) => do
      let pushes ← pushesFrom none rest
      match read? (tokens r"fn @(payload: &@) -> Vec<LcsfValidAtt> {") (tokens head),
        read? (tokens "let mut att_arr = Vec::with_capacity(@);") (tokens first) with
      | some [name, type], some [capacity] =>
          some ⟨String.ofList name, String.ofList type, Schema.digitsValue 10 capacity, pushes⟩
      | _, _ => none
  | _ => none

/-- What the first line and the body of a decoder say. -/
def decodeFunction? : String × List String → Option DecodeFunction
  | (head, first :: rest) => do
      let takes ← takes? rest
      match read? (tokens r"fn @(att_arr: &[LcsfValidAtt]) -> Option<@> {") (tokens head),
        read? (tokens "let mut payload = @::default();") (tokens first) with
      | some [name, type], some [built] =>
          if built = type then some ⟨String.ofList name, String.ofList type, takes⟩ else none
      | _, _ => none
  | _ => none

/-- The functions of a module that encode payload structs. -/
def encodeFunctions (lines : List String) : List (Option EncodeFunction) :=
  (itemBlocks "fn encode_".toList lines).map encodeFunction?

/-- The functions of a module that decode payload structs. -/
def decodeFunctions (lines : List String) : List (Option DecodeFunction) :=
  (itemBlocks "fn decode_".toList lines).map decodeFunction?

/-- Encoders with names that are names. -/
structure Encoder.IsLexical (encoder : Encoder) : Prop where
  name : IsLexeme (name encoder.stem).toList
  typeName : IsLexeme encoder.typeName.toList
  fields : ∀ field ∈ encoder.fields, field.IsLexical

/-- Decoders with names that are names. -/
structure Decoder.IsLexical (decoder : Decoder) : Prop where
  name : IsLexeme (name decoder.stem).toList
  typeName : IsLexeme decoder.typeName.toList
  fields : ∀ field ∈ decoder.fields, field.IsLexical

/-- What an encoder says. -/
def Encoder.function (encoder : Encoder) : EncodeFunction :=
  ⟨name encoder.stem, encoder.typeName, encoder.capacity, encoder.fields.map FieldEncoder.push⟩

/-- What a decoder says. -/
def Decoder.function (decoder : Decoder) : DecodeFunction :=
  ⟨name decoder.stem, decoder.typeName, decoder.fields.map FieldDecoder.take⟩

/-! ## Reading functions -/

/-- The body of an encoder. -/
def Encoder.body (encoder : Encoder) : List String :=
  indent 1 ("let mut att_arr = Vec::with_capacity(" ++ toString encoder.capacity ++ ");") ::
    (encoder.fields.flatMap FieldEncoder.lines ++ [indent 1 "att_arr"])

/-- The body of a decoder. -/
def Decoder.body (decoder : Decoder) : List String :=
  indent 1 ("let mut payload = " ++ decoder.typeName ++ "::default();") ::
    (decoder.fields.flatMap FieldDecoder.lines ++ [indent 1 "Some(payload)"])

theorem Encoder.isFunction (encoder : Encoder) :
    IsItem "fn encode_".toList encoder.head encoder.body encoder.lines := by
  constructor
  case lines_eq =>
    simp only [lines, head, body, List.append_assoc, List.cons_append, List.nil_append]
  case head => simp [head, name, opening, List.isPrefixOf]
  case body =>
    rw [body, List.forall_mem_cons, List.forall_mem_append]
    refine ⟨⟨0, _, rfl⟩, ?_, List.forall_mem_singleton.mpr ⟨0, _, rfl⟩⟩
    rw [List.forall_mem_flatMap]
    intro field _
    unfold FieldEncoder.lines
    split
    · simp only [List.forall_mem_append, List.forall_mem_cons]
      exact ⟨⟨⟨⟨0, _, rfl⟩, List.forall_mem_nil _⟩, ⟨1, _, rfl⟩, ⟨2, _, rfl⟩, ⟨2, _, rfl⟩,
        ⟨1, _, rfl⟩, List.forall_mem_nil _⟩, ⟨0, _, rfl⟩, List.forall_mem_nil _⟩
    · simp only [List.forall_mem_append, List.forall_mem_cons]
      exact ⟨⟨⟨⟨0, _, rfl⟩, List.forall_mem_nil _⟩, ⟨1, _, rfl⟩, List.forall_mem_nil _⟩,
        ⟨0, _, rfl⟩, List.forall_mem_nil _⟩

theorem Decoder.isFunction (decoder : Decoder) :
    IsItem "fn decode_".toList decoder.head decoder.body decoder.lines := by
  constructor
  case lines_eq =>
    simp only [lines, head, body, List.append_assoc, List.cons_append, List.nil_append]
  case head => simp [head, name, opening, List.isPrefixOf]
  case body =>
    rw [body, List.forall_mem_cons, List.forall_mem_append]
    refine ⟨⟨0, _, rfl⟩, ?_, List.forall_mem_singleton.mpr ⟨0, _, rfl⟩⟩
    rw [List.forall_mem_flatMap]
    intro field _
    unfold FieldDecoder.lines
    dsimp only
    split
    · simp only [List.forall_mem_cons]
      exact ⟨⟨0, _, rfl⟩, ⟨1, _, rfl⟩, ⟨0, _, rfl⟩, List.forall_mem_nil _⟩
    · simp only [List.forall_mem_cons]
      exact ⟨⟨0, _, rfl⟩, ⟨1, _, rfl⟩, ⟨0, _, rfl⟩, ⟨0, _, rfl⟩, List.forall_mem_nil _⟩

/-- An encoder is read off its lines. -/
theorem encodeFunction_block {encoder : Encoder} (h : encoder.IsLexical) :
    encodeFunction? (encoder.head, encoder.body) = some encoder.function := by
  have hhead : read? (tokens r"fn @(payload: &@) -> Vec<LcsfValidAtt> {") (tokens encoder.head) =
      some [(Encoder.name encoder.stem).toList, encoder.typeName.toList] := by
    refine read_of_fill ?_ (by decide) ?_ rfl
    · exact Filled.toList_eq (.append (.append (.append (.append (.append (.fixed rfl) (.word _))
        (.fixed rfl)) (.word _)) (.fixed rfl)) (.fixed rfl))
    · exact List.forall_mem_cons.mpr ⟨h.name, List.forall_mem_singleton.mpr h.typeName⟩
  have hfirst : read? (tokens "let mut att_arr = Vec::with_capacity(@);") (tokens (indent 1
      ("let mut att_arr = Vec::with_capacity(" ++ toString encoder.capacity ++ ");"))) =
        some [(toString encoder.capacity).toList] := by
    rw [tokens_indent]
    refine read_of_fill ?_ (by decide) (List.forall_mem_singleton.mpr (isLexeme_toString _)) rfl
    exact Filled.toList_eq (.append (.append (.fixed rfl) (.word _)) (.fixed rfl))
  simp only [Encoder.body, encodeFunction?, pushesFrom_lines h.fields, hhead, hfirst,
    Option.bind_eq_bind, Option.bind_some, Schema.digitsValue_toString, String.ofList_toList]
  rfl

/-- A decoder is read off its lines. -/
theorem decodeFunction_block {decoder : Decoder} (h : decoder.IsLexical) :
    decodeFunction? (decoder.head, decoder.body) = some decoder.function := by
  have hhead : read? (tokens r"fn @(att_arr: &[LcsfValidAtt]) -> Option<@> {")
      (tokens decoder.head) =
        some [(Decoder.name decoder.stem).toList, decoder.typeName.toList] := by
    refine read_of_fill ?_ (by decide) ?_ rfl
    · exact Filled.toList_eq (.append (.append (.append (.append (.append (.fixed rfl) (.word _))
        (.fixed rfl)) (.word _)) (.fixed rfl)) (.fixed rfl))
    · exact List.forall_mem_cons.mpr ⟨h.name, List.forall_mem_singleton.mpr h.typeName⟩
  have hfirst : read? (tokens "let mut payload = @::default();") (tokens (indent 1
      ("let mut payload = " ++ decoder.typeName ++ "::default();"))) =
        some [decoder.typeName.toList] := by
    rw [tokens_indent]
    refine read_of_fill ?_ (by decide) (List.forall_mem_singleton.mpr h.typeName) rfl
    exact Filled.toList_eq (.append (.append (.fixed rfl) (.word _)) (.fixed rfl))
  simp only [Decoder.body, decodeFunction?, takes_lines h.fields, hhead, hfirst,
    Option.bind_eq_bind, Option.bind_some, if_true, String.ofList_toList]
  rfl

/-! ## Functions of a module -/

/-- What a module has before the functions for its payload structs. -/
theorem startAs_beforeCodecs (bridge : Bridge) :
    StartAs ["use ", "pub const ", "pub enum CmdEnum", "impl CmdEnum", "pub struct ",
      "pub enum CmdPayload", "const ", "pub const LCSF_"]
        (bridge.headLines ++ (CommandVariant.enumLines bridge.commands ++ (bridge.structLines ++
          (Bridge.payloadLines bridge.variants ++ (bridge.tables.flatMap AttributeTable.lines ++
            Bridge.descriptorLines bridge.protocol bridge.rows))))) :=
  bridge.startAs_head.append ((startAs_enum _).append (bridge.startAs_structs.append
    ((startAs_payload _).append ((startAs_tables _).append (startAs_descriptor _ _)))))

/-- What a module has behind the functions for its payload structs. -/
theorem startAs_behindCodecs (bridge : Bridge) :
    StartAs ["pub fn decode(", "pub fn encode("] (bridge.decodeLines ++ bridge.encodeLines) :=
  bridge.startAs_decode.append bridge.startAs_encode

/-- The functions that encode payload structs are blocks of the module. -/
theorem itemBlocks_encoders (bridge : Bridge) :
    itemBlocks "fn encode_".toList bridge.lines =
      bridge.encoders.map fun encoder => (encoder.head, encoder.body) := by
  have hfront := itemBlocks_of_startAs
    ((startAs_beforeCodecs bridge).append (startAs_decoders bridge.decoders))
    (by decide : "fn encode_".toList.head?.any Char.isLower = true) (by decide)
  have hbehind := itemBlocks_of_startAs (startAs_behindCodecs bridge)
    (by decide : "fn encode_".toList.head?.any Char.isLower = true) (by decide) []
  rw [List.append_nil] at hbehind
  rw [Bridge.lines_eq, Bridge.tableLines]
  simp only [List.append_assoc] at hfront ⊢
  rw [hfront]
  rw [String.toList_ofList] at hbehind ⊢
  rw [itemBlocks_flatMap (by decide) (by decide) fun encoder _ => encoder.isFunction, hbehind,
    itemBlocks, List.append_nil]

/-- The functions that decode payload structs are blocks of the module. -/
theorem itemBlocks_decoders (bridge : Bridge) :
    itemBlocks "fn decode_".toList bridge.lines =
      bridge.decoders.map fun decoder => (decoder.head, decoder.body) := by
  have hfront := itemBlocks_of_startAs (startAs_beforeCodecs bridge)
    (by decide : "fn decode_".toList.head?.any Char.isLower = true) (by decide)
  have hbehind := itemBlocks_of_startAs
    ((startAs_encoders bridge.encoders).append (startAs_behindCodecs bridge))
    (by decide : "fn decode_".toList.head?.any Char.isLower = true) (by decide) []
  rw [List.append_nil] at hbehind
  rw [Bridge.lines_eq, Bridge.tableLines]
  simp only [List.append_assoc] at hfront ⊢
  rw [hfront]
  rw [String.toList_ofList] at hbehind ⊢
  rw [itemBlocks_flatMap (by decide) (by decide) fun decoder _ => decoder.isFunction, hbehind,
    itemBlocks, List.append_nil]

/-- A bridge module with names that are names has the functions that encode it. -/
theorem encodeFunctions_lines {bridge : Bridge}
    (h : ∀ encoder ∈ bridge.encoders, encoder.IsLexical) :
    encodeFunctions bridge.lines = bridge.encoders.map fun encoder => some encoder.function := by
  rw [encodeFunctions, itemBlocks_encoders, List.map_map]
  exact List.map_congr_left fun encoder hencoder => encodeFunction_block (h encoder hencoder)

/-- A bridge module with names that are names has the functions that decode it. -/
theorem decodeFunctions_lines {bridge : Bridge}
    (h : ∀ decoder ∈ bridge.decoders, decoder.IsLexical) :
    decodeFunctions bridge.lines = bridge.decoders.map fun decoder => some decoder.function := by
  rw [decodeFunctions, itemBlocks_decoders, List.map_map]
  exact List.map_congr_left fun decoder hdecoder => decodeFunction_block (h decoder hdecoder)

end Typed
end CommandSet
