import CommandSet.Firmware.Page
import CommandSet.Forest
import CommandSet.Naming
import CommandSet.Presence

/-!
# Payload structs

Received and sent values lie in nested structs: one per command with attributes,
one per complex attribute, and a union of all commands.  A group with optional
attributes starts with its presence bitfield.

Main definitions:

- {lit}`MemberType`, {lit}`Member`: what a struct declares.
- {lit}`membersOf`: the members of one attribute.
- {lit}`Record`, {lit}`Record.ofGroup`: a struct or union and its text.
-/

namespace CommandSet

/-- The C type of a number. -/
def Scalar.cName : Scalar → String
  | .u8 => "uint8_t"
  | .u16 => "uint16_t"
  | .u32 => "uint32_t"
  | .u64 => "uint64_t"
  | .f32 => "float"
  | .f64 => "double"

namespace Firmware

open Text (lower)

/-! ## Members -/

/-- The type of a struct member. -/
inductive MemberType where
  | number (scalar : Scalar)
  | bytePointer
  | textPointer
  /-- A struct declared under this name. -/
  | record (typeName : String)
  | presence (width : PresenceWidth)
deriving Repr, DecidableEq

/-- A struct member. -/
structure Member where
  type : MemberType
  name : String
deriving Repr, DecidableEq

/-- The declaration of a member. -/
def Member.declaration (member : Member) : String :=
  match member.type with
  | .number scalar => scalar.cName ++ " " ++ member.name ++ ";"
  | .bytePointer => "uint8_t *" ++ member.name ++ ";"
  | .textPointer => "char *" ++ member.name ++ ";"
  | .record typeName => typeName ++ " " ++ member.name ++ ";"
  | .presence width => width.declaration

/-- The member that holds a number. -/
def numberMember (name : String) : String :=
  lower name

/-- The member that points to bytes or text. -/
def pointerMember (name : String) : String :=
  "p_" ++ lower name

/-- The member that counts bytes. -/
def sizeMember (name : String) : String :=
  lower name ++ "Size"

/-- The members that store a value of an attribute. -/
def storedMembers (storage : Storage) (protocol parent name : String) : List Member :=
  match storage with
  | .scalar scalar => [⟨.number scalar, numberMember name⟩]
  | .bytes => [⟨.bytePointer, pointerMember name⟩, ⟨.number .u32, sizeMember name⟩]
  | .text => [⟨.textPointer, pointerMember name⟩]
  | .nested => [⟨.record (Naming.nestedPayload protocol parent name), Naming.groupMember name⟩]

/-- The members of an attribute, none if its type is unknown. -/
def membersOf (protocol parent : String) (att : Attribute) : List Member :=
  match att.dataType.storage with
  | some storage => storedMembers storage protocol parent att.name
  | none => []

/-! ## Structs and unions -/

/-- Whether members lie one after the other or share their place. -/
inductive RecordKind where
  | struct
  | union
deriving Repr, DecidableEq

/-- The word of a kind. -/
def RecordKind.word : RecordKind → String
  | .struct => "struct"
  | .union => "union"

/-- A struct or union under a type name. -/
structure Record where
  kind : RecordKind
  typeName : String
  members : List Member
deriving Repr, DecidableEq

namespace Record

/-- The struct of the attributes under {lit}`parent`. -/
def ofGroup (protocol typeName parent : String) (attributes : List Attribute) : Record :=
  { kind := .struct
    typeName := typeName
    members :=
      (if attributes.any (·.optional) then
        [⟨.presence (PresenceWidth.ofCount attributes.length), presenceMember⟩]
      else []) ++
        attributes.flatMap (membersOf protocol parent) }

/-- The struct of a command. -/
def ofCommand (protocol : String) (cmd : Command) : Record :=
  ofGroup protocol (Naming.commandPayload protocol cmd.name) cmd.name cmd.attributes

/-- The struct of a complex attribute. -/
def ofEntry (protocol : String) (entry : Entry) : Record :=
  ofGroup protocol (Naming.nestedPayload protocol entry.parent entry.node.name) entry.node.name
    entry.node.children

/-- The union of the structs of all commands with attributes. -/
def ofCarriers (protocol : String) (carriers : List Command) : Record :=
  { kind := .union
    typeName := Naming.payloadUnion protocol
    members :=
      if carriers.isEmpty then [⟨.number .u8, "noPayload"⟩]
      else
        carriers.map fun cmd =>
          ⟨.record (Naming.commandPayload protocol cmd.name), Naming.groupMember cmd.name⟩ }

/-- The definition of a struct or union, with the blank line after it. -/
def lines (record : Record) : List String :=
  [opening ("typedef " ++ record.kind.word ++ " " ++ Naming.structTag record.typeName)] ++
    record.members.map (fun member => indent 1 member.declaration) ++
    [closing ++ " " ++ record.typeName ++ ";", ""]

end Record
end Firmware
end CommandSet
