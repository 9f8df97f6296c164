import CommandSet.Firmware.Record

/-!
# Statements on payloads

Handlers, decoders and encoders move values between three kinds of places: members
of the payload union behind {lit}`pCmdPayload`, elements of the validator's
attribute arrays, and local variables.  Their statements are data, so that what a
function reads and writes can be told without reading its text.

Main definitions:

- {lit}`Place`, {lit}`Element`, {lit}`PresenceBit`: the things statements name.
- {lit}`Statement`: the statements.
- {lit}`Statement.lines`, {lit}`Statement.allLines`: their text.
-/

namespace CommandSet
namespace Firmware

/-! ## Places -/

/-- A member of a payload group; the group is named by the chain of names from its
command down. -/
structure Place where
  groups : List String
  member : String
deriving Repr, DecidableEq

/-- A place in C. -/
def Place.text (place : Place) : String :=
  "pCmdPayload->" ++ Naming.memberPath place.groups place.member

/-- An element of nested attribute arrays, by the ordinals that lead to it. -/
structure Element where
  root : String
  ordinals : List String
deriving Repr, DecidableEq

/-- An element in C. -/
def Element.text (element : Element) : String :=
  Naming.elementPath element.root element.ordinals

/-- What an element carries. -/
inductive Slot where
  | data
  | subArray
deriving Repr, DecidableEq

/-- The member of an element for what it carries. -/
def Slot.member : Slot → String
  | .data => "pData"
  | .subArray => "pSubAttArray"

/-- What an element of a stored value carries. -/
def Slot.ofStorage : Storage → Slot
  | .nested => .subArray
  | _ => .data

/-- What an element carries, in C. -/
def Element.slotText (element : Element) (slot : Slot) : String :=
  element.text ++ ".Payload." ++ slot.member

/-- The presence bit of an attribute of a payload group. -/
structure PresenceBit where
  groups : List String
  width : PresenceWidth
  index : Nat
  flag : String
deriving Repr, DecidableEq

namespace PresenceBit

/-- The presence bitfield of a group. -/
def field (groups : List String) : Place :=
  ⟨groups, presenceMember⟩

/-- The condition that a bit is set. -/
def testText (bit : PresenceBit) : String :=
  bit.width.testExpr (field bit.groups).text bit.flag bit.index

/-- The statement that sets a bit. -/
def setText (bit : PresenceBit) : String :=
  bit.width.setStatement (field bit.groups).text bit.flag bit.index

end PresenceBit

/-! ## Statements -/

/-- A statement of a handler, decoder or encoder. -/
inductive Statement where
  /-- A comment. -/
  | remark (text : String)
  /-- Copy a member into a local. -/
  | load (name : String) (source : Place)
  /-- Note in a local that an attribute is there. -/
  | notePresent (name : String)
  /-- Clear the presence bits of a group. -/
  | clearPresence (groups : List String) (width : PresenceWidth)
  /-- Set a presence bit. -/
  | setPresence (bit : PresenceBit)
  /-- Copy a received number into a member. -/
  | takeNumber (scalar : Scalar) (target : Place) (source : Element)
  /-- Take over the length of received bytes. -/
  | takeLength (target : Place) (source : Element)
  /-- Take over the address of received data. -/
  | takePointer (target : Place) (source : Element)
  /-- Give the length of a number to be sent. -/
  | putWidth (target : Element) (scalar : Scalar)
  /-- Give the address of a number to be sent. -/
  | putAddress (target : Element) (source : Place)
  /-- Give the length of bytes to be sent. -/
  | putLength (target : Element) (source : Place)
  /-- Give the length of text to be sent. -/
  | putTextLength (target : Element) (source : Place)
  /-- Give the address of data to be sent. -/
  | putPointer (target : Element) (source : Place)
  /-- Give the number of sub-attributes to be sent. -/
  | putCount (target : Element) (count : String)
  /-- Allocate the array of sub-attributes to be sent. -/
  | allocate (protocol : String) (target : Element) (count : String)
  /-- Give up when an array could not be allocated. -/
  | requireArray (target : Element)
  /-- Mark an element as absent. -/
  | putAbsent (target : Element) (slot : Slot)
  /-- Run statements if a presence bit is set, others if it is not. -/
  | ifPresent (bit : PresenceBit) (body : List Statement) (otherwise : List Statement)
  /-- Run statements if an element carries something. -/
  | ifCarried (source : Element) (slot : Slot) (body : List Statement)
deriving Repr

/-- The call that allocates an array of attributes. -/
def allocateCall (protocol count : String) : String :=
  "LCSF_Bridge_" ++ protocol ++ "AllocateAtt(" ++ count ++ ")"

namespace Statement

mutual

/-- The text of a statement at a nesting level. -/
def lines (level : Nat) : Statement → List String
  | remark text => [indent level ("// " ++ text)]
  | load name source => [indent level (name ++ " = " ++ source.text ++ ";")]
  | notePresent name => [indent level (name ++ " = true;")]
  | clearPresence groups width =>
      [indent level (width.clearStatement (PresenceBit.field groups).text)]
  | setPresence bit => [indent level bit.setText]
  | takeNumber scalar target source =>
      [indent level
        ("memcpy(&(" ++ target.text ++ "), " ++ source.slotText .data ++ ", sizeof(" ++
          scalar.cName ++ "));")]
  | takeLength target source =>
      [indent level (target.text ++ " = " ++ source.text ++ ".PayloadSize;")]
  | takePointer target source =>
      [indent level (target.text ++ " = " ++ source.slotText .data ++ ";")]
  | putWidth target scalar =>
      [indent level (target.text ++ ".PayloadSize = sizeof(" ++ scalar.cName ++ ");")]
  | putAddress target source =>
      [indent level (target.slotText .data ++ " = &(" ++ source.text ++ ");")]
  | putLength target source =>
      [indent level (target.text ++ ".PayloadSize = " ++ source.text ++ ";")]
  | putTextLength target source =>
      [indent level (target.text ++ ".PayloadSize = strlen(" ++ source.text ++ ");")]
  | putPointer target source =>
      [indent level (target.slotText .data ++ " = " ++ source.text ++ ";")]
  | putCount target count =>
      [indent level (target.text ++ ".PayloadSize = " ++ count ++ ";")]
  | allocate protocol target count =>
      [indent level
        (target.slotText .subArray ++ " = " ++ allocateCall protocol count ++ ";")]
  | requireArray target =>
      [indent level (opening ("if (" ++ target.slotText .subArray ++ " == NULL)")),
        indent (level + 1) "return false;", indent level closing]
  | putAbsent target slot => [indent level (target.slotText slot ++ " = NULL;")]
  | ifPresent bit body otherwise =>
      [indent level (opening ("if " ++ bit.testText))] ++ allLines (level + 1) body ++
        (if otherwise.isEmpty then []
        else [indent level (opening (closing ++ " else"))] ++ allLines (level + 1) otherwise) ++
        [indent level closing]
  | ifCarried source slot body =>
      [indent level (opening ("if (" ++ source.slotText slot ++ " != NULL)"))] ++
        allLines (level + 1) body ++ [indent level closing]

/-- The text of statements one after the other. -/
def allLines (level : Nat) : List Statement → List String
  | [] => []
  | statement :: rest => lines level statement ++ allLines level rest

end

end Statement
end Firmware
end CommandSet
