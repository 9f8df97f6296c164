/-!
# Attribute types

The types an attribute may have in a schema, the words they are written with,
and the way their values are stored by generated code.

Main definitions:

- {lit}`DataType`: the types of the schema language.
- {lit}`DataType.keyword`, {lit}`DataType.ofKeyword`: their words.
- {lit}`DataType.storage`: how a value is stored, if the type is known.

Main result:

- Theorem {lit}`DataType.ofKeyword_keyword`: reading a written type gives it back.
-/

namespace CommandSet

/-! ## Stored values -/

/-- Numbers of a fixed width. -/
inductive Scalar where
  | u8
  | u16
  | u32
  | u64
  | f32
  | f64
deriving Repr, DecidableEq

/-- Width of a number in bytes. -/
def Scalar.byteLength : Scalar → Nat
  | .u8 => 1
  | .u16 => 2
  | .u32 | .f32 => 4
  | .u64 | .f64 => 8

/-- Whether a number is in floating point. -/
def Scalar.isFloat : Scalar → Bool
  | .f32 | .f64 => true
  | _ => false

/-- How the value of an attribute is stored. -/
inductive Storage where
  /-- A number of a fixed width. -/
  | scalar (scalar : Scalar)
  /-- Bytes with their count. -/
  | bytes
  /-- Text closed by a zero byte. -/
  | text
  /-- A group of sub-attributes. -/
  | nested
deriving Repr, DecidableEq

/-! ## Types of the schema language -/

/-- The type of an attribute; {lit}`unknown` stands for every word that is no type. -/
inductive DataType where
  | uint8
  | uint16
  | uint32
  | uint64
  | float32
  | float64
  | byteArray
  | string
  | subAttributes
  | unknown
deriving Repr, DecidableEq

namespace DataType

/-- The word of a type in a schema. -/
def keyword : DataType → String
  | uint8 => "uint8"
  | uint16 => "uint16"
  | uint32 => "uint32"
  | uint64 => "uint64"
  | float32 => "float32"
  | float64 => "float64"
  | byteArray => "byte_array"
  | string => "string"
  | subAttributes => "sub_attributes"
  | unknown => "unknown"

/-- The type a word stands for. -/
def ofKeyword (word : String) : DataType :=
  match word with
  | "uint8" => uint8
  | "uint16" => uint16
  | "uint32" => uint32
  | "uint64" => uint64
  | "float32" => float32
  | "float64" => float64
  | "byte_array" => byteArray
  | "string" => string
  | "sub_attributes" => subAttributes
  | _ => unknown

/-- The constant of the validator library for a type. -/
def validatorName : DataType → String
  | uint8 => "LCSF_UINT8"
  | uint16 => "LCSF_UINT16"
  | uint32 => "LCSF_UINT32"
  | uint64 => "LCSF_UINT64"
  | float32 => "LCSF_FLOAT32"
  | float64 => "LCSF_FLOAT64"
  | byteArray => "LCSF_BYTE_ARRAY"
  | string => "LCSF_STRING"
  | subAttributes => "LCSF_SUB_ATTRIBUTES"
  | unknown => "LCSF_UNKNOWN"

/-- How a value of the type is stored; an unknown type stores nothing. -/
def storage : DataType → Option Storage
  | uint8 => some (.scalar .u8)
  | uint16 => some (.scalar .u16)
  | uint32 => some (.scalar .u32)
  | uint64 => some (.scalar .u64)
  | float32 => some (.scalar .f32)
  | float64 => some (.scalar .f64)
  | byteArray => some .bytes
  | string => some .text
  | subAttributes => some .nested
  | unknown => none

/-- Reading a written type gives it back. -/
theorem ofKeyword_keyword (t : DataType) : ofKeyword t.keyword = t := by
  cases t <;> rfl

end DataType
end CommandSet
