import CommandSet.Firmware.Codec
import CommandSet.Firmware.Handler
import CommandSet.Proofs.Protocol.Positions

/-!
# Visits of attributes

Handlers, decoders and encoders visit the attributes of a command one after the other, each
before those below it.  What they do at an attribute is said here in terms of its position,
and a common induction follows their way through a regular forest.

Main definitions:

- {lit}`Attribute.Regular`: attributes whose type is known and agrees with their shape.
- {lit}`Position.bit`: the presence bit of an attribute.
- {lit}`Position.locals`, {lit}`Position.loads`, {lit}`Position.decodes`,
  {lit}`Position.encodes`: what a handler declares and what a handler, a decoder and an
  encoder do with the value of an attribute.

Main results:

- Theorem {lit}`Attribute.visit_induction`: induction along the visits of a forest.
- Theorems {lit}`declare_eq`, {lit}`load_eq`, {lit}`decode_eq`, {lit}`encode_eq`: the locals
  and statements of a visit.
-/

namespace CommandSet

/-! ## Regular attributes -/

/-- An attribute of a known type, with sub-attributes exactly when the type asks for them. -/
structure Attribute.Regular (att : Attribute) : Prop where
  known : att.dataType ≠ .unknown
  children : att.children ≠ [] ↔ att.dataType = .subAttributes

namespace Attribute

/-- A regular attribute stores a group if it is complex, else a value and nothing below. -/
theorem Regular.storage {att : Attribute} (h : att.Regular) :
    (att.isComplex = true ∧ att.dataType.storage = some .nested) ∨
      (att.isComplex = false ∧ att.children = [] ∧
        ∃ storage, att.dataType.storage = some storage ∧ storage ≠ .nested) := by
  by_cases hcomplex : att.isComplex = true
  · left
    have htype : att.dataType = .subAttributes := by simpa [isComplex] using hcomplex
    exact ⟨hcomplex, by rw [htype, DataType.storage]⟩
  · right
    have htype : att.dataType ≠ .subAttributes := by simpa [isComplex] using hcomplex
    refine ⟨by simpa using hcomplex, children_eq_nil h.children hcomplex, ?_⟩
    have hknown := h.known
    cases hdata : att.dataType <;> simp_all [DataType.storage]

/-- Exactly the complex attributes store a group. -/
theorem storage_eq_nested_iff {att : Attribute} :
    att.dataType.storage = some .nested ↔ att.isComplex = true := by
  cases htype : att.dataType <;> simp [DataType.storage, isComplex, htype]

/-- What a regular attribute stores; nothing lies below it unless it stores a group. -/
theorem Regular.stores {att : Attribute} (h : att.Regular) :
    ∃ storage, att.dataType.storage = some storage ∧ (storage = .nested ∨ att.children = []) := by
  rcases h.storage with ⟨-, hstorage⟩ | ⟨-, hleaf, storage, hstorage, -⟩
  · exact ⟨.nested, hstorage, .inl rfl⟩
  · exact ⟨storage, hstorage, .inr hleaf⟩

/-- Induction along the visits of a regular forest: at an attribute that stores a value the
visit goes on with the rest, at a complex one it first goes through the group below. -/
@[elab_as_elim]
theorem visit_induction {motive : Group → Nat → List Attribute → Prop}
    (nil : ∀ group index, motive group index [])
    (value : ∀ group index att rest storage, att.dataType.storage = some storage →
      storage ≠ .nested → att.isComplex = false → att.children = [] →
      motive group (index + 1) rest → motive group index (att :: rest))
    (complex : ∀ group index att rest, att.dataType.storage = some .nested →
      att.isComplex = true → motive (group.below att) 0 att.children →
      motive group (index + 1) rest → motive group index (att :: rest))
    (group : Group) (index : Nat) (atts : List Attribute)
    (h : ∀ att ∈ forest atts, att.Regular) : motive group index atts := by
  induction atts using forest_induction generalizing group index with
  | nil => exact nil group index
  | cons att rest ihbelow ihrest =>
      rcases forall_mem_forest_cons.mp h with ⟨hatt, hbelow, hrest⟩
      rcases hatt.storage with ⟨hcomplex, hstorage⟩ | ⟨hsimple, hleaf, storage, hstorage, hvalue⟩
      · exact complex group index att rest hstorage hcomplex (ihbelow _ 0 hbelow)
          (ihrest group (index + 1) hrest)
      · exact value group index att rest storage hstorage hvalue hsimple hleaf
          (ihrest group (index + 1) hrest)

end Attribute

/-- The attributes of well-formed protocols are regular. -/
theorem WellFormed.regular {protocol : Protocol} (h : WellFormed protocol) {cmd : Command}
    (hcmd : cmd ∈ protocol.commands) : ∀ att ∈ Attribute.forest cmd.attributes, att.Regular := by
  intro att hatt
  have hmem : att ∈ protocol.attributes := List.mem_flatMap.mpr ⟨cmd, hcmd, hatt⟩
  exact ⟨h.types att hmem, h.children att hmem⟩

/-- A command with an optional group two levels deep. -/
def meter : Protocol :=
  ⟨"Meter", 7, [⟨"Read", 1, .bidirectional,
    [⟨"raw", 1, false, .byteArray, [], ""⟩,
      ⟨"target", 2, true, .subAttributes,
        [⟨"unit", 1, false, .uint16, [], "in which to read"⟩,
          ⟨"range", 2, true, .subAttributes, [⟨"low", 9, false, .float32, [], ""⟩], ""⟩,
          ⟨"label", 3, true, .string, [], ""⟩], ""⟩], ""⟩,
    ⟨"Reset", 2, .bidirectional, [], "to zero"⟩]⟩

theorem prepare_meter : prepare meter = .ok (Prepared.ofProtocol meter) :=
  rfl

/-! ## What is done at a position -/

/-- The presence bitfield of a group. -/
def Group.width (group : Group) : PresenceWidth :=
  PresenceWidth.ofCount group.members.length

namespace Position

open Firmware

/-- A member in the payload group of a position. -/
def place (p : Position) (member : String) : Place :=
  ⟨p.group.ancestors, member⟩

/-- The presence bit of an attribute. -/
def bit (protocol : String) (p : Position) : PresenceBit :=
  ⟨p.group.ancestors, p.group.width, p.index,
    Naming.attributeFlag protocol p.group.parent p.node.name⟩

/-- The element of an attribute in the arrays under a root. -/
def element (protocol root : String) (p : Position) : Element :=
  ⟨root, Naming.ordinals protocol p.group.ancestors p.node.name⟩

/-- The stem of the locals of an attribute. -/
def stem (p : Position) : String :=
  Naming.localStem p.group.ancestors p.node.name

/-- The locals that hold the value of an attribute. -/
def locals (p : Position) : Storage → List Local
  | .scalar scalar => [⟨.number scalar, numberLocal p.stem⟩]
  | .bytes => [⟨.bytePointer, pointerLocal p.stem⟩, ⟨.number .u32, sizeLocal p.stem⟩]
  | .text => [⟨.textPointer, pointerLocal p.stem⟩]
  | .nested => declareAll p.below.ancestors p.node.children

/-- What a handler does with the value of an attribute. -/
def loads (protocol : String) (p : Position) : Storage → List Statement
  | .scalar _ => [.load (numberLocal p.stem) (p.place (numberMember p.node.name))]
  | .bytes =>
      [.load (pointerLocal p.stem) (p.place (pointerMember p.node.name)),
        .load (sizeLocal p.stem) (p.place (sizeMember p.node.name))]
  | .text => [.load (pointerLocal p.stem) (p.place (pointerMember p.node.name))]
  | .nested => loadAll protocol p.below.ancestors p.below.width 0 p.node.children

/-- What a decoder does with the value of an attribute. -/
def decodes (protocol : String) (p : Position) : Storage → List Statement
  | .scalar scalar =>
      [.takeNumber scalar (p.place (numberMember p.node.name))
        (p.element protocol Naming.receiveRoot)]
  | .bytes =>
      [.takeLength (p.place (sizeMember p.node.name)) (p.element protocol Naming.receiveRoot),
        .takePointer (p.place (pointerMember p.node.name)) (p.element protocol Naming.receiveRoot)]
  | .text =>
      [.takePointer (p.place (pointerMember p.node.name)) (p.element protocol Naming.receiveRoot)]
  | .nested => decodeGroup protocol p.below.ancestors p.node.children

/-- What an encoder does with the value of an attribute. -/
def encodes (protocol : String) (p : Position) : Storage → List Statement
  | .scalar scalar =>
      [.putWidth (p.element protocol Naming.transmitRoot) scalar,
        .putAddress (p.element protocol Naming.transmitRoot) (p.place (numberMember p.node.name))]
  | .bytes =>
      [.putLength (p.element protocol Naming.transmitRoot) (p.place (sizeMember p.node.name)),
        .putPointer (p.element protocol Naming.transmitRoot)
          (p.place (pointerMember p.node.name))]
  | .text =>
      [.putTextLength (p.element protocol Naming.transmitRoot)
          (p.place (pointerMember p.node.name)),
        .putPointer (p.element protocol Naming.transmitRoot)
          (p.place (pointerMember p.node.name))]
  | .nested =>
      [.putCount (p.element protocol Naming.transmitRoot)
          (Naming.subAttributeCount protocol p.node.name),
        .allocate protocol (p.element protocol Naming.transmitRoot)
          (Naming.subAttributeCount protocol p.node.name),
        .requireArray (p.element protocol Naming.transmitRoot)] ++
        encodeGroup protocol p.below.ancestors p.node.children

end Position

namespace Firmware

variable {protocol : String} {p : Position} {storage : Storage}

/-- An optional attribute has a local for its presence. -/
theorem declare_eq (h : p.node.dataType.storage = some storage) :
    declare p.group.ancestors p.node =
      (if p.node.optional then [⟨.flag, presentLocal p.stem⟩] else []) ++ p.locals storage := by
  obtain ⟨group, index, name, id, optional, dataType, children, description⟩ := p
  rw [declare, h]
  cases storage <;> rfl

/-- A handler loads an optional attribute under its presence test. -/
theorem load_eq (h : p.node.dataType.storage = some storage) :
    load protocol p.group.ancestors p.group.width p.index p.node =
      if p.node.optional then
        [.ifPresent (p.bit protocol)
          (.notePresent (presentLocal p.stem) :: p.loads protocol storage) []]
      else p.loads protocol storage := by
  obtain ⟨group, index, name, id, optional, dataType, children, description⟩ := p
  rw [load, h]
  cases storage <;> rfl

/-- A decoder sets the presence bit of an optional attribute if its element carries something. -/
theorem decode_eq (h : p.node.dataType.storage = some storage) :
    decode protocol p.group.ancestors p.group.width p.index p.node =
      .remark ("Retrieve data of attribute " ++ p.node.name) ::
        if p.node.optional then
          [.ifCarried (p.element protocol Naming.receiveRoot) (Slot.ofStorage storage)
            (.setPresence (p.bit protocol) :: p.decodes protocol storage)]
        else p.decodes protocol storage := by
  obtain ⟨group, index, name, id, optional, dataType, children, description⟩ := p
  rw [decode, h]
  cases storage <;> rfl

/-- An encoder marks an optional attribute as absent unless its presence bit is set. -/
theorem encode_eq (h : p.node.dataType.storage = some storage) :
    encode protocol p.group.ancestors p.group.width p.index p.node =
      .remark ("Fill attribute " ++ p.node.name) ::
        if p.node.optional then
          [.ifPresent (p.bit protocol) (p.encodes protocol storage)
            [.putAbsent (p.element protocol Naming.transmitRoot) (Slot.ofStorage storage)]]
        else p.encodes protocol storage := by
  obtain ⟨group, index, name, id, optional, dataType, children, description⟩ := p
  rw [encode, h]
  cases storage <;> rfl

end Firmware
end CommandSet
