import CommandSet.Typed.Payload

/-!
# Decoding and encoding in Rust

Every payload struct has a function that decodes it from an array of validated
attributes and one that encodes it into one.  The decoder reads each attribute at
its position; the encoder pushes the attributes in order, so that positions agree.

Main definitions:

- {lit}`ElementSlot`: what an element of an array carries.
- {lit}`DecodeExpr`, {lit}`FieldDecoder`, {lit}`Decoder`: decoding functions.
- {lit}`EncodeExpr`, {lit}`FieldEncoder`, {lit}`Encoder`: encoding functions.
- {lit}`Decoder.ofCommand`, {lit}`Encoder.ofCommand`: all functions of a command.
-/

namespace CommandSet
namespace Typed

/-- What an element of an attribute array carries. -/
inductive ElementSlot where
  | data
  | subArray
deriving Repr, DecidableEq

namespace ElementSlot

/-- What the element of a stored value carries. -/
def ofStorage : Storage → ElementSlot
  | .nested => subArray
  | _ => data

/-- The variant of an element. -/
def variant : ElementSlot → String
  | data => "Data"
  | subArray => "SubAttArray"

/-- The name that decoding binds to what an element carries. -/
def binding : ElementSlot → String
  | data => "data"
  | subArray => "sub_att_arr"

end ElementSlot

/-! ## Decoding -/

/-- How a value is decoded from what an element carries. -/
inductive DecodeExpr where
  /-- The first byte. -/
  | byte
  /-- A number of variable length that has to fit the type. -/
  | narrowed (scalar : Scalar)
  /-- A number of variable length. -/
  | wide
  /-- A number in little-endian bytes. -/
  | littleEndian (scalar : Scalar)
  /-- All bytes. -/
  | bytes
  /-- The bytes before the first zero. -/
  | text
  /-- A payload struct, by the stem of its functions. -/
  | nested (stem : String)
deriving Repr, DecidableEq

namespace DecodeExpr

/-- How a stored value is decoded. -/
def ofStorage (storage : Storage) (parent name : String) : DecodeExpr :=
  match storage with
  | .scalar .u8 => byte
  | .scalar .u16 => narrowed .u16
  | .scalar .u32 => narrowed .u32
  | .scalar .u64 => wide
  | .scalar .f32 => littleEndian .f32
  | .scalar .f64 => littleEndian .f64
  | .bytes => bytes
  | .text => text
  | .nested => nested (nestedStem parent name)

/-- The expression on what an element carries. -/
def render (binding : String) : DecodeExpr → String
  | byte => "*" ++ binding ++ ".first()?"
  | narrowed scalar => scalar.typedName ++ "::try_from(vle_decode(" ++ binding ++ ")).ok()?"
  | wide => "vle_decode(" ++ binding ++ ")"
  | littleEndian scalar =>
      scalar.typedName ++ "::from_le_bytes(" ++ binding ++ ".get(.." ++
        toString scalar.byteLength ++ ")?.try_into().ok()?)"
  | bytes => binding ++ ".clone()"
  | text =>
      "CString::new(" ++ binding ++
        ".iter().copied().take_while(|&b| b != 0).collect::<Vec<u8>>()).ok()?"
  | nested stem => "decode_" ++ stem ++ "_payload(" ++ binding ++ ")?"

end DecodeExpr

/-- How a field is decoded: from the element at {lit}`index`. -/
structure FieldDecoder where
  index : Nat
  slot : ElementSlot
  field : String
  optional : Bool
  value : DecodeExpr
deriving Repr, DecidableEq

namespace FieldDecoder

/-- The lines that decode a field. -/
def lines (decoder : FieldDecoder) : List String :=
  let pattern :=
    "Some(LcsfValidAttPayload::" ++ decoder.slot.variant ++ "(" ++ decoder.slot.binding ++
      ")) = att_arr.get(" ++ toString decoder.index ++ ").map(|att| &att.payload)"
  let value := decoder.value.render decoder.slot.binding
  if decoder.optional then
    [indent 1 (opening ("if let " ++ pattern)),
      indent 2 ("payload." ++ decoder.field ++ " = Some(" ++ value ++ ");"), indent 1 closing]
  else
    [indent 1 (opening ("let " ++ pattern ++ " else")), indent 2 "return None;",
      indent 1 (closing ++ ";"), indent 1 ("payload." ++ decoder.field ++ " = " ++ value ++ ";")]

/-- How the attributes of a parent are decoded, the first of which stands at
{lit}`index`; attributes of unknown types keep their places. -/
def ofAttributes (parent : String) (index : Nat) : List Attribute → List FieldDecoder
  | [] => []
  | att :: rest =>
      (match att.dataType.storage with
      | some storage =>
          [⟨index, ElementSlot.ofStorage storage, snakeCase att.name, att.optional,
            DecodeExpr.ofStorage storage parent att.name⟩]
      | none => []) ++
        ofAttributes parent (index + 1) rest

end FieldDecoder

/-- The function that decodes a payload struct. -/
structure Decoder where
  stem : String
  typeName : String
  fields : List FieldDecoder
deriving Repr, DecidableEq

namespace Decoder

/-- The name of a decoder. -/
def name (stem : String) : String :=
  "decode_" ++ stem ++ "_payload"

/-- The text of a decoder, with the blank line after it. -/
def lines (decoder : Decoder) : List String :=
  [opening
      ("fn " ++ name decoder.stem ++ "(att_arr: &[LcsfValidAtt]) -> Option<" ++
        decoder.typeName ++ ">"),
    indent 1 ("let mut payload = " ++ decoder.typeName ++ "::default();")] ++
    decoder.fields.flatMap FieldDecoder.lines ++ [indent 1 "Some(payload)", closing, ""]

mutual

/-- The decoders of a complex attribute and of all below it. -/
def ofTree (parent : String) : Attribute → List Decoder
  | att@⟨name, _, _, _, children, _⟩ =>
      if att.hasSubAttributes then
        ⟨nestedStem parent name, Naming.typedNestedPayload parent name,
          FieldDecoder.ofAttributes name 0 children⟩ :: ofForest name children
      else []

/-- The decoders of the complex attributes among siblings. -/
def ofForest (parent : String) : List Attribute → List Decoder
  | [] => []
  | att :: rest => ofTree parent att ++ ofForest parent rest

end

/-- The decoders of a command, its own first. -/
def ofCommand (cmd : Command) : List Decoder :=
  ⟨commandStem cmd.name, Naming.typedCommandPayload cmd.name,
    FieldDecoder.ofAttributes cmd.name 0 cmd.attributes⟩ :: ofForest cmd.name cmd.attributes

end Decoder

/-! ## Encoding -/

/-- How a value is encoded into what an element carries. -/
inductive EncodeExpr where
  /-- One byte. -/
  | byte
  /-- A number of variable length. -/
  | variableLength
  /-- A number in little-endian bytes. -/
  | littleEndian (scalar : Scalar)
  /-- All bytes. -/
  | bytes
  /-- The bytes of a text with their closing zero. -/
  | text
  /-- A payload struct, by the stem of its functions. -/
  | nested (stem : String)
deriving Repr, DecidableEq

namespace EncodeExpr

/-- How a stored value is encoded. -/
def ofStorage (storage : Storage) (parent name : String) : EncodeExpr :=
  match storage with
  | .scalar .u8 => byte
  | .scalar .u16 | .scalar .u32 | .scalar .u64 => variableLength
  | .scalar .f32 => littleEndian .f32
  | .scalar .f64 => littleEndian .f64
  | .bytes => bytes
  | .text => text
  | .nested => nested (nestedStem parent name)

/-- The expression for an element; {lit}`value` names a place, or with
{lit}`borrowed` a reference to one. -/
def render (value : String) (borrowed : Bool) (expr : EncodeExpr) : String :=
  let copied := if borrowed then "*" ++ value else value
  let reference := if borrowed then value else "&" ++ value
  match expr with
  | byte => "LcsfValidAttPayload::Data(vec![" ++ copied ++ "])"
  | variableLength => "LcsfValidAttPayload::Data(vle_encode(u64::from(" ++ copied ++ ")))"
  | littleEndian _ => "LcsfValidAttPayload::Data(" ++ value ++ ".to_le_bytes().to_vec())"
  | bytes => "LcsfValidAttPayload::Data(" ++ value ++ ".clone())"
  | text => "LcsfValidAttPayload::Data(" ++ value ++ ".as_bytes_with_nul().to_vec())"
  | nested stem =>
      "LcsfValidAttPayload::SubAttArray(encode_" ++ stem ++ "_payload(" ++ reference ++ "))"

end EncodeExpr

/-- How the next element is encoded from a field. -/
structure FieldEncoder where
  field : String
  slot : ElementSlot
  optional : Bool
  value : EncodeExpr
deriving Repr, DecidableEq

namespace FieldEncoder

/-- The lines that encode a field. -/
def lines (encoder : FieldEncoder) : List String :=
  [indent 1 r"att_arr.push(LcsfValidAtt {"] ++
    (if encoder.optional then
      [indent 2 (opening ("payload: match &payload." ++ encoder.field)),
        indent 3 ("Some(value) => " ++ encoder.value.render "value" true ++ ","),
        indent 3 "None => LcsfValidAttPayload::Empty,", indent 2 (closing ++ ",")]
    else
      [indent 2
        ("payload: " ++ encoder.value.render ("payload." ++ encoder.field) false ++ ",")]) ++
    [indent 1 (closing ++ ");")]

/-- How an attribute is encoded, not at all if its type is unknown. -/
def ofAttribute (parent : String) (att : Attribute) : Option FieldEncoder :=
  att.dataType.storage.map fun storage =>
    ⟨snakeCase att.name, ElementSlot.ofStorage storage, att.optional,
      EncodeExpr.ofStorage storage parent att.name⟩

end FieldEncoder

/-- The function that encodes a payload struct. -/
structure Encoder where
  stem : String
  typeName : String
  /-- Number of attributes. -/
  capacity : Nat
  fields : List FieldEncoder
deriving Repr, DecidableEq

namespace Encoder

/-- The name of an encoder. -/
def name (stem : String) : String :=
  "encode_" ++ stem ++ "_payload"

/-- The text of an encoder, with the blank line after it. -/
def lines (encoder : Encoder) : List String :=
  [opening
      ("fn " ++ name encoder.stem ++ "(payload: &" ++ encoder.typeName ++
        ") -> Vec<LcsfValidAtt>"),
    indent 1 ("let mut att_arr = Vec::with_capacity(" ++ toString encoder.capacity ++ ");")] ++
    encoder.fields.flatMap FieldEncoder.lines ++ [indent 1 "att_arr", closing, ""]

mutual

/-- The encoders of a complex attribute and of all below it. -/
def ofTree (parent : String) : Attribute → List Encoder
  | att@⟨name, _, _, _, children, _⟩ =>
      if att.hasSubAttributes then
        ⟨nestedStem parent name, Naming.typedNestedPayload parent name, children.length,
          children.filterMap (FieldEncoder.ofAttribute name)⟩ :: ofForest name children
      else []

/-- The encoders of the complex attributes among siblings. -/
def ofForest (parent : String) : List Attribute → List Encoder
  | [] => []
  | att :: rest => ofTree parent att ++ ofForest parent rest

end

/-- The encoders of a command, its own first. -/
def ofCommand (cmd : Command) : List Encoder :=
  ⟨commandStem cmd.name, Naming.typedCommandPayload cmd.name, cmd.attributes.length,
    cmd.attributes.filterMap (FieldEncoder.ofAttribute cmd.name)⟩ ::
    ofForest cmd.name cmd.attributes

end Encoder
end Typed
end CommandSet
