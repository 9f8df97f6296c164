/-!
# Presence bitfields

A payload group with optional attributes says in a bitfield which of them are
there.  The bit of an attribute is its position in the group, so the width of the
field follows from the number of attributes: one, two or four bytes, and beyond
thirty-two attributes an array of bytes.

Main definitions:

- {lit}`PresenceWidth.ofCount`: the field for a number of attributes.
- {lit}`PresenceWidth.bit`, {lit}`PresenceWidth.cell?`: where the bit of an
  attribute lies.
- {lit}`PresenceWidth.flagValue`, {lit}`PresenceWidth.testExpr`,
  {lit}`PresenceWidth.setStatement`, {lit}`PresenceWidth.clearStatement`: how
  generated C code handles it.
-/

namespace CommandSet

/-- The member of a payload group that holds its presence bits. -/
def presenceMember : String :=
  "optAttFlagsBitfield"

/-- The shape of a presence bitfield. -/
inductive PresenceWidth where
  | u8
  | u16
  | u32
  /-- An array of {lit}`n` bytes. -/
  | bytes (n : Nat)
deriving Repr, DecidableEq

namespace PresenceWidth

/-! ## Shape -/

/-- The bitfield of a group of {lit}`n` attributes. -/
def ofCount (n : Nat) : PresenceWidth :=
  if n ≤ 8 then u8
  else if n ≤ 16 then u16
  else if n ≤ 32 then u32
  else bytes ((n + 7) / 8)

/-- Length of a bitfield in bytes. -/
def byteLength : PresenceWidth → Nat
  | u8 => 1
  | u16 => 2
  | u32 => 4
  | bytes n => n

/-- The bit of the attribute at {lit}`index`, within its cell. -/
def bit : PresenceWidth → Nat → Nat
  | bytes _, index => index % 8
  | _, index => index

/-- The cell of an array that holds the bit of the attribute at {lit}`index`. -/
def cell? : PresenceWidth → Nat → Option Nat
  | bytes _, index => some (index / 8)
  | _, _ => none

/-! ## Generated code -/

/-- The struct member that declares a bitfield. -/
def declaration : PresenceWidth → String
  | u8 => "uint8_t " ++ presenceMember ++ ";"
  | u16 => "uint16_t " ++ presenceMember ++ ";"
  | u32 => "uint32_t " ++ presenceMember ++ ";"
  | bytes n => "uint8_t " ++ presenceMember ++ "[" ++ toString n ++ "];"

/-- The value of the flag of the attribute at {lit}`index`. -/
def flagValue (width : PresenceWidth) (index : Nat) : String :=
  let one :=
    match width with
    | u32 => "1UL"
    | _ => "1"
  "(" ++ one ++ " << " ++ toString (width.bit index) ++ ")"

/-- The part of {lit}`field` that holds the bit of the attribute at {lit}`index`. -/
def cellOf (width : PresenceWidth) (field : String) (index : Nat) : String :=
  match width.cell? index with
  | some cell => field ++ "[" ++ toString cell ++ "]"
  | none => field

/-- The condition that a flag is set. -/
def testExpr (width : PresenceWidth) (field flag : String) (index : Nat) : String :=
  "((" ++ width.cellOf field index ++ " & " ++ flag ++ ") != 0)"

/-- The statement that sets a flag. -/
def setStatement (width : PresenceWidth) (field flag : String) (index : Nat) : String :=
  width.cellOf field index ++ " |= " ++ flag ++ ";"

/-- The statement that clears all flags of a field. -/
def clearStatement (width : PresenceWidth) (field : String) : String :=
  match width with
  | bytes n => "memset(" ++ field ++ ", 0, " ++ toString n ++ ");"
  | _ => field ++ " = 0;"

/-- Every attribute of a group has a bit in the group's field. -/
theorem le_byteLength_ofCount (n : Nat) : n ≤ 8 * (ofCount n).byteLength := by
  unfold ofCount
  split
  · simp [byteLength]
    omega
  · split
    · simp [byteLength]
      omega
    · split
      · simp [byteLength]
        omega
      · simp [byteLength]
        omega

end PresenceWidth
end CommandSet
