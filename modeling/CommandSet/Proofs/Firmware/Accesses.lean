import CommandSet.Proofs.Firmware.DeclaredPaths
import CommandSet.Proofs.Firmware.Transfers

/-!
# Accesses to the payload

Handlers, decoders and encoders reach into the payload union by paths of members.  A path leads
through the main header if every type and every member on it is declared there once, and a value
is then moved at the type of the last member.  The types of groups are named by joining names,
which validation does not compare, so two groups can share a type.

Main definitions:

- {lit}`DeclaredAs`: a path that leads to a member of a type.
- {lit}`HandlerAccesses`, {lit}`DecoderAccesses`, {lit}`EncoderAccesses`: functions whose accesses
  are declared with the types they are used at.
- {lit}`AccessesDeclared`: protocols all of whose functions are such.

Main results:

- Theorem {lit}`exists_access`: every member of every struct lies on a path of a handler.
- Theorem {lit}`accesses_declared_iff`: when the accesses of a protocol are declared.
- Theorem {lit}`not_accesses_declared_twin`: a protocol with two structs of one name.
-/

namespace CommandSet
namespace Firmware

/-! ## Typed accesses -/

/-- A path leads to a member of a type that is no array. -/
def DeclaredAs (types : List Typedef) (root : String) (path : List String) (base : String)
    (pointer : Bool) : Prop :=
  ∃ name, resolve types root path = some ⟨base, pointer, name, ""⟩

/-- The element whose size an assignment gives by that of a type. -/
def sized? (sides : String × String) : Option (String × String) := do
  let type ← between? "sizeof(" ");" sides.2.toList
  let element ← between? "" ".PayloadSize" sides.1.toList
  some (element, type)

/-- The element to which an assignment gives an address. -/
def addressed? (sides : String × String) : Option (String × String) := do
  let place ← between? "&(" ");" sides.2.toList
  let element ← between? "" ".Payload.pData" sides.1.toList
  some (element, place)

variable (types : List Typedef) (root : String) (lines : List String)

/-- All paths lead to members, and the locals are assigned in their order from members of their
types. -/
structure HandlerAccesses : Prop where
  resolved : ∀ path ∈ lines.flatMap payloadPaths, (resolve types root path).isSome
  typed : List.Forall₂
    (fun l sides => l.name = sides.1 ∧
      ∀ path ∈ payloadPaths sides.2, DeclaredAs types root path l.base l.pointer)
    (lines.filterMap local?) (lines.filterMap sides?)

/-- All paths lead to members, and numbers are copied at the types of their members. -/
structure DecoderAccesses : Prop where
  resolved : ∀ path ∈ lines.flatMap payloadPaths, (resolve types root path).isSome
  typed : ∀ copy ∈ lines.filterMap copied?,
    ∀ path ∈ payloadPaths copy.2, DeclaredAs types root path copy.1 false

/-- All paths lead to members, and each element that is given the size of a type is given the
address of a member of that type. -/
structure EncoderAccesses : Prop where
  resolved : ∀ path ∈ lines.flatMap payloadPaths, (resolve types root path).isSome
  typed : List.Forall₂
    (fun size address => size.1 = address.1 ∧
      ∀ path ∈ payloadPaths address.2, DeclaredAs types root path size.2 false)
    (lines.filterMap fun line => (sides? line).bind sized?)
    (lines.filterMap fun line => (sides? line).bind addressed?)

/-- The accesses of all functions of a protocol are declared by its main header. -/
def AccessesDeclared (prepared : Prepared) : Prop :=
  let protocol := prepared.protocol
  let types := typedefs (typeLines (MainHeader.build prepared none).lines)
  let root := Naming.payloadUnion protocol.name
  ∀ role,
    (∀ cmd ∈ protocol.received role,
      HandlerAccesses types root (Handler.stub protocol.name cmd)) ∧
    (∀ cmd ∈ protocol.decoded role,
      DecoderAccesses types root (Decoder.ofCommand protocol.name cmd).lines) ∧
    ∀ cmd ∈ protocol.encoded role,
      EncoderAccesses types root (Encoder.ofCommand protocol.name cmd).lines

/-! ## Sizes and addresses -/

theorem sized_of_ne {target value : String} (h : ¬"sizeof(".toList <+: value.toList) :
    sized? (target, value) = none := by
  rw [sized?, between_eq_none _ h]
  rfl

theorem addressed_of_ne {target value : String} (h : ¬"&(".toList <+: value.toList) :
    addressed? (target, value) = none := by
  rw [addressed?, between_eq_none _ h]
  rfl

theorem sized_size (element type : String) :
    sized? (element ++ ".PayloadSize", "sizeof(" ++ type ++ ");") = some (element, type) := by
  have helement := between_append "" element ".PayloadSize"
  rw [String.empty_append] at helement
  rw [sized?, between_append, Option.bind_eq_bind, Option.bind_some, helement]
  rfl

theorem addressed_address (element : Element) (place : String) :
    addressed? (element.slotText .data, "&(" ++ place ++ ");") = some (element.text, place) := by
  have helement := between_append "" element.text ".Payload.pData"
  have hslot : element.slotText .data = element.text ++ ".Payload.pData" := by
    rw [Element.slotText, String.append_assoc]
    rfl
  rw [String.empty_append, ← hslot] at helement
  rw [addressed?, between_append, Option.bind_eq_bind, Option.bind_some, helement]
  rfl

/-! ## Attributes -/

end Firmware

namespace Position

open Firmware

/-- The element of a number and the name of its type. -/
def sizes (protocol : String) (p : Position) : Storage → List (String × String)
  | .scalar scalar => [((p.element protocol Naming.transmitRoot).text, scalar.cName)]
  | _ => []

/-- The element of a number and its place. -/
def addresses (protocol : String) (p : Position) : Storage → List (String × String)
  | .scalar _ =>
      [((p.element protocol Naming.transmitRoot).text, (p.place (numberMember p.node.name)).text)]
  | _ => []

end Position

namespace Firmware

theorem not_prefix_of_head {front text : List Char} {c d : Char} (hfront : front.head? = some c)
    (htext : text.head? = some d) (hne : c ≠ d) : ¬front <+: text := by
  obtain ⟨_, rfl⟩ := List.head?_eq_some_iff.mp hfront
  obtain ⟨_, rfl⟩ := List.head?_eq_some_iff.mp htext
  exact fun h => hne (List.cons_prefix_cons.mp h).1

/-- Neither a size nor an address starts otherwise. -/
theorem unsized_of_head (target : String) {value : String} {c : Char}
    (hhead : value.toList.head? = some c) (hc : 's' ≠ c ∧ '&' ≠ c) :
    sized? (target, value) = none ∧ addressed? (target, value) = none :=
  ⟨sized_of_ne (not_prefix_of_head (c := 's') rfl hhead hc.1),
    addressed_of_ne (not_prefix_of_head (c := '&') rfl hhead hc.2)⟩

theorem unsized_call (protocol count target : String) :
    sized? (target, allocateCall protocol count ++ ";") = none ∧
      addressed? (target, allocateCall protocol count ++ ";") = none :=
  unsized_of_head target (c := 'L') (by unfold allocateCall; simp) (by decide)

/-- The sizes and the addresses of an attribute are those of its number. -/
theorem read_encodeSides (protocol : String) (p : Position) (storage : Storage) :
    (p.encodeSides protocol storage).filterMap sized? = p.sizes protocol storage ∧
      (p.encodeSides protocol storage).filterMap addressed? = p.addresses protocol storage := by
  have hplace (target member : String) :
      sized? (target, (p.place member).text ++ ";") = none ∧
        addressed? (target, (p.place member).text ++ ";") = none :=
    unsized_of_head target (c := 'p') (by simp [Place.text]) (by decide)
  cases storage with
  | scalar scalar =>
      have hwidth : addressed? ((p.element protocol Naming.transmitRoot).text ++ ".PayloadSize",
          "sizeof(" ++ scalar.cName ++ ");") = none :=
        addressed_of_ne (not_prefix_of_head (c := '&') (d := 's') rfl (by simp) (by decide))
      have haddress : sized? ((p.element protocol Naming.transmitRoot).slotText .data,
          "&(" ++ (p.place (numberMember p.node.name)).text ++ ");") = none :=
        sized_of_ne (not_prefix_of_head (c := 's') (d := '&') rfl (by simp) (by decide))
      simp [Position.encodeSides, Position.sizes, Position.addresses, sized_size, hwidth,
        addressed_address, haddress]
  | bytes => simp [Position.encodeSides, Position.sizes, Position.addresses, hplace]
  | text =>
      have hlength : sized? ((p.element protocol Naming.transmitRoot).text ++ ".PayloadSize",
            "strlen(" ++ (p.place (pointerMember p.node.name)).text ++ ");") = none ∧
          addressed? ((p.element protocol Naming.transmitRoot).text ++ ".PayloadSize",
            "strlen(" ++ (p.place (pointerMember p.node.name)).text ++ ");") = none :=
        ⟨sized_of_ne (by simp [List.cons_prefix_cons]),
          addressed_of_ne (not_prefix_of_head (c := '&') (d := 's') rfl (by simp) (by decide))⟩
      simp [Position.encodeSides, Position.sizes, Position.addresses, hplace, hlength]
  | nested =>
      have hcount (target : String) := unsized_of_head target (c := 'L')
        (by simp [Naming.subAttributeCount] :
          (Naming.subAttributeCount protocol p.node.name ++ ";").toList.head? = _) (by decide)
      have hcall (target : String) := unsized_call protocol
        (Naming.subAttributeCount protocol p.node.name) target
      simp [Position.encodeSides, Position.sizes, Position.addresses, hcount, hcall]

/-- Lists that agree piece by piece agree. -/
theorem forall₂_flatMap {α β γ : Type} {R : β → γ → Prop} {items : List α} {first : α → List β}
    {second : α → List γ} (h : ∀ a ∈ items, List.Forall₂ R (first a) (second a)) :
    List.Forall₂ R (items.flatMap first) (items.flatMap second) := by
  induction items with
  | nil => exact .nil
  | cons a items ih =>
      rw [List.forall_mem_cons] at h
      exact List.rel_append h.1 (ih h.2)

/-! ## Accesses of attributes -/

section Distinct

variable {protocol : Protocol} (hwell : WellFormed protocol)
  (hdistinct : Distinct protocol.typedefs)

include hwell hdistinct

/-- Every member of an attribute lies where its path leads. -/
theorem resolve_stored {p : Position} (hp : p ∈ protocol.positions) {storage : Storage}
    (hstorage : p.node.dataType.storage = some storage) {member : Member}
    (hmember : member ∈ storedMembers storage protocol.name p.group.parent p.node.name) :
    resolve protocol.typedefs (Naming.payloadUnion protocol.name) (p.place member.name).path =
      some member.declared := by
  obtain ⟨hgroup, hnode⟩ := group_of_mem_positions hwell.children hp
  refine resolve_place hwell hdistinct hgroup (List.mem_append_right _ ?_)
  refine List.mem_flatMap.mpr ⟨p.node, List.mem_of_getElem? hnode, ?_⟩
  rwa [membersOf, hstorage]

/-- So does the bitfield of a group with optional attributes. -/
theorem resolve_presence {group : Group} (hgroup : group ∈ protocol.groups)
    (hoptional : group.members.any (·.optional) = true) :
    resolve protocol.typedefs (Naming.payloadUnion protocol.name)
        (PresenceBit.field group.ancestors).path =
      some (Member.declared ⟨.presence group.width, presenceMember⟩) := by
  have hmember : ⟨.presence group.width, presenceMember⟩ ∈
      (group.record protocol.name).members := by
    refine List.mem_append_left _ ?_
    rw [if_pos hoptional]
    exact List.mem_singleton_self _
  exact resolve_place hwell hdistinct hgroup hmember

/-- All paths of an attribute lead to members. -/
theorem resolve_paths {p : Position} (hp : p ∈ protocol.positions) {storage : Storage}
    (hstorage : p.node.dataType.storage = some storage) :
    ∀ path ∈ p.loadPaths storage ++ (p.decodePaths storage ++ p.encodePaths storage),
      (resolve protocol.typedefs (Naming.payloadUnion protocol.name) path).isSome := by
  obtain ⟨hgroup, hnode⟩ := group_of_mem_positions hwell.children hp
  have hpresence : ∀ path ∈ p.presencePaths,
      (resolve protocol.typedefs (Naming.payloadUnion protocol.name) path).isSome := by
    rw [Position.presencePaths]
    split
    next hoptional =>
      rw [List.forall_mem_singleton, resolve_presence hwell hdistinct hgroup
        (List.any_eq_true.mpr ⟨p.node, List.mem_of_getElem? hnode, hoptional⟩)]
      rfl
    next => exact List.forall_mem_nil _
  have hbelow : ∀ path ∈ if storage = .nested then p.belowPaths else [],
      (resolve protocol.typedefs (Naming.payloadUnion protocol.name) path).isSome := by
    split
    next hnested =>
      subst hnested
      have hcomplex := below_mem_groups hp (Attribute.storage_eq_nested_iff.mp hstorage)
      rw [Position.belowPaths]
      split
      next hoptional =>
        rw [List.forall_mem_singleton, resolve_presence hwell hdistinct hcomplex hoptional]
        rfl
      next => exact List.forall_mem_nil _
    next => exact List.forall_mem_nil _
  have hmembers : ∀ names : List String, (∀ name ∈ names, ∃ member ∈ storedMembers storage
      protocol.name p.group.parent p.node.name, member.name = name) →
        ∀ path ∈ p.memberPaths names,
          (resolve protocol.typedefs (Naming.payloadUnion protocol.name) path).isSome := by
    intro names hnames
    rw [Position.memberPaths, List.forall_mem_map]
    intro name hname
    obtain ⟨member, hmember, rfl⟩ := hnames name hname
    rw [resolve_stored hwell hdistinct hp hstorage hmember]
    rfl
  simp only [Position.loadPaths, Position.decodePaths, Position.encodePaths,
    List.forall_mem_append]
  refine ⟨⟨hpresence, hmembers _ ?load⟩, ⟨hpresence, hmembers _ ?decode, hbelow⟩, hpresence,
    hmembers _ ?encode⟩
  case load => cases storage <;> simp [Position.loadMembers, storedMembers]
  case decode => cases storage <;> simp [Position.decodeMembers, storedMembers]
  case encode => cases storage <;> simp [Position.encodeMembers, storedMembers]

/-- A member that stores an attribute is declared where its place leads. -/
theorem declaredAs_stored {p : Position} (hp : p ∈ protocol.positions) {storage : Storage}
    (hstorage : p.node.dataType.storage = some storage) (hpath : ∀ name ∈ p.path, IsName name)
    {member : Member}
    (hmember : member ∈ storedMembers storage protocol.name p.group.parent p.node.name)
    {base : String} {pointer : Bool}
    (hdeclared : member.declared = ⟨base, pointer, member.name, ""⟩) (ending : String)
    (hending : EndsPath ending) : ∀ path ∈ payloadPaths ((p.place member.name).text ++ ending),
      DeclaredAs protocol.typedefs (Naming.payloadUnion protocol.name) path base pointer := by
  have hgroup := (group_of_mem_positions hwell.children hp).1
  have hspelled : member.Spelled := spelled_membersOf hwell.protocol_name
    (named_of_mem_groups hwell hgroup).parent (isName_node hpath) member (by
      rwa [membersOf, hstorage])
  rw [payloadPaths_place "" ending (spelled_place hpath hspelled.name)
    (String.empty_append).symm (by decide) hending, List.forall_mem_singleton]
  exact ⟨member.name, hdeclared ▸ resolve_stored hwell hdistinct hp hstorage hmember⟩

/-- The locals of an attribute are assigned from members of their types. -/
theorem typed_locals {p : Position} (hp : p ∈ protocol.positions) {storage : Storage}
    (hstorage : p.node.dataType.storage = some storage) (hpath : ∀ name ∈ p.path, IsName name) :
    List.Forall₂
      (fun l sides => l.name = sides.1 ∧ ∀ path ∈ payloadPaths sides.2,
        DeclaredAs protocol.typedefs (Naming.payloadUnion protocol.name) path l.base l.pointer)
      (p.ownLocals.map Local.declared) (p.loadSides storage) := by
  have hnote : ∀ path ∈ payloadPaths "true;",
      DeclaredAs protocol.typedefs (Naming.payloadUnion protocol.name) path "bool" false := by
    rw [payloadPaths_eq_nil (by decide)]
    exact List.forall_mem_nil _
  have hstored {member : Member}
      (hmember : member ∈ storedMembers storage protocol.name p.group.parent p.node.name)
      {base : String} {pointer : Bool}
      (hdeclared : member.declared = ⟨base, pointer, member.name, ""⟩) :=
    declaredAs_stored hwell hdistinct hp hstorage hpath hmember hdeclared ";" (by decide)
  rw [Position.ownLocals, Position.loadSides, List.map_append, hstorage]
  refine List.rel_append ?_ ?_
  · split
    · exact .cons ⟨rfl, hnote⟩ .nil
    · exact .nil
  · cases storage with
    | scalar scalar =>
        exact .cons ⟨rfl, hstored (List.mem_singleton_self _) rfl⟩ .nil
    | bytes =>
        exact .cons ⟨rfl, hstored List.mem_cons_self rfl⟩
          (.cons ⟨rfl, hstored (List.mem_cons_of_mem _ (List.mem_singleton_self _)) rfl⟩ .nil)
    | text => exact .cons ⟨rfl, hstored (List.mem_singleton_self _) rfl⟩ .nil
    | nested => exact .nil

/-- Numbers are copied, and given with their sizes, at the types of their members. -/
theorem typed_numbers {p : Position} (hp : p ∈ protocol.positions) {storage : Storage}
    (hstorage : p.node.dataType.storage = some storage) (hpath : ∀ name ∈ p.path, IsName name) :
    (∀ copy ∈ p.copies storage, ∀ path ∈ payloadPaths copy.2,
      DeclaredAs protocol.typedefs (Naming.payloadUnion protocol.name) path copy.1 false) ∧
    List.Forall₂
      (fun size address => size.1 = address.1 ∧ ∀ path ∈ payloadPaths address.2,
        DeclaredAs protocol.typedefs (Naming.payloadUnion protocol.name) path size.2 false)
      (p.sizes protocol.name storage) (p.addresses protocol.name storage) := by
  cases storage with
  | scalar scalar =>
      have hdeclared := declaredAs_stored hwell hdistinct hp hstorage hpath
        (List.mem_singleton_self _) (rfl : Member.declared _ = ⟨_, _, _, ""⟩) "" (by decide)
      rw [String.append_empty] at hdeclared
      exact ⟨List.forall_mem_singleton.mpr hdeclared, .cons ⟨rfl, hdeclared⟩ .nil⟩
  | _ => exact ⟨List.forall_mem_nil _, .nil⟩

/-! ## Accesses of functions -/

variable {cmd : Command} (hcmd : cmd ∈ protocol.commands)

include hcmd

omit hdistinct in
/-- The locals of a handler, position by position. -/
theorem locals_eq_flatMap :
    Handler.locals cmd = cmd.positions.flatMap Position.ownLocals :=
  declareAll_eq_flatMap cmd.group 0 cmd.attributes (hwell.regular hcmd)

omit hdistinct in
/-- The sizes and addresses in an encoder are those of its numbers. -/
theorem read_sizes :
    ((Encoder.ofCommand protocol.name cmd).lines.filterMap
        fun line => (sides? line).bind sized?) =
        cmd.positions.flatMap (·.stored (Position.sizes protocol.name)) ∧
      ((Encoder.ofCommand protocol.name cmd).lines.filterMap
        fun line => (sides? line).bind addressed?) =
        cmd.positions.flatMap (·.stored (Position.addresses protocol.name)) := by
  have hcall := unsized_call protocol.name (Naming.attributeCount protocol.name cmd.name)
    "*pAttArrayPtr"
  rw [read_encoder hwell hcmd fun target => sized_of_ne (by decide),
    read_encoder hwell hcmd fun target => addressed_of_ne (by decide), hcall.1, hcall.2]
  constructor
  all_goals
    refine List.flatMap_congr fun p hp => ?_
    obtain ⟨-, -, storage, hstorage⟩ := stores_position hwell hcmd hp
    rw [Position.stored_eq hstorage, Position.stored_eq hstorage]
  · exact (read_encodeSides protocol.name p storage).1
  · exact (read_encodeSides protocol.name p storage).2

/-- The paths of all attributes lead to members. -/
theorem resolve_stored_paths {paths : Position → Storage → List (List String)}
    (h : ∀ p storage, ∀ path ∈ paths p storage,
      path ∈ p.loadPaths storage ++ (p.decodePaths storage ++ p.encodePaths storage)) :
    ∀ path ∈ cmd.positions.flatMap (·.stored paths),
      (resolve protocol.typedefs (Naming.payloadUnion protocol.name) path).isSome := by
  intro path hpath
  obtain ⟨p, hp, hpath⟩ := List.mem_flatMap.mp hpath
  obtain ⟨hposition, -, storage, hstorage⟩ := stores_position hwell hcmd hp
  rw [Position.stored_eq hstorage] at hpath
  exact resolve_paths hwell hdistinct hposition hstorage path (h p storage path hpath)

theorem handlerAccesses_stub : HandlerAccesses protocol.typedefs
    (Naming.payloadUnion protocol.name) (Handler.stub protocol.name cmd) where
  resolved := by
    rw [payloadPaths_stub hwell hcmd]
    exact resolve_stored_paths hwell hdistinct hcmd fun p storage path h =>
      List.mem_append_left _ h
  typed := by
    rw [(read_stub hwell hcmd).1, (read_stub hwell hcmd).2, locals_eq_flatMap hwell hcmd,
      List.map_flatMap]
    refine forall₂_flatMap fun p hp => ?_
    obtain ⟨hposition, hnames, storage, hstorage⟩ := stores_position hwell hcmd hp
    rw [Position.stored_eq hstorage]
    exact typed_locals hwell hdistinct hposition hstorage hnames

theorem decoderAccesses_decoder : DecoderAccesses protocol.typedefs
    (Naming.payloadUnion protocol.name) (Decoder.ofCommand protocol.name cmd).lines where
  resolved := by
    rw [payloadPaths_decoder hwell hcmd, List.forall_mem_append]
    refine ⟨?_, resolve_stored_paths hwell hdistinct hcmd fun p storage path h =>
      List.mem_append_right _ (List.mem_append_left _ h)⟩
    split
    next hoptional =>
      have hcarrier : cmd ∈ protocol.carriers := by
        refine List.mem_filter.mpr ⟨hcmd, ?_⟩
        cases hatts : cmd.attributes with
        | nil => simp [hatts] at hoptional
        | cons => simp [Command.hasAttributes, hatts]
      have hfield := resolve_presence hwell hdistinct (group_mem_groups hcarrier) hoptional
      rw [List.forall_mem_singleton]
      exact Option.isSome_iff_exists.mpr ⟨_, hfield⟩
    next => exact List.forall_mem_nil _
  typed := by
    rw [read_decoder hwell hcmd]
    intro copy hcopy
    obtain ⟨p, hp, hcopy⟩ := List.mem_flatMap.mp hcopy
    obtain ⟨hposition, hnames, storage, hstorage⟩ := stores_position hwell hcmd hp
    rw [Position.stored_eq hstorage] at hcopy
    exact (typed_numbers hwell hdistinct hposition hstorage hnames).1 copy hcopy

theorem encoderAccesses_encoder : EncoderAccesses protocol.typedefs
    (Naming.payloadUnion protocol.name) (Encoder.ofCommand protocol.name cmd).lines where
  resolved := by
    rw [payloadPaths_encoder hwell hcmd]
    exact resolve_stored_paths hwell hdistinct hcmd fun p storage path h =>
      List.mem_append_right _ (List.mem_append_right _ h)
  typed := by
    rw [(read_sizes hwell hcmd).1, (read_sizes hwell hcmd).2]
    refine forall₂_flatMap fun p hp => ?_
    obtain ⟨hposition, hnames, storage, hstorage⟩ := stores_position hwell hcmd hp
    rw [Position.stored_eq hstorage, Position.stored_eq hstorage]
    exact (typed_numbers hwell hdistinct hposition hstorage hnames).2

omit hcmd in
/-- All accesses are declared where types and members are told apart. -/
theorem accessesDeclared_of_distinct : AccessesDeclared (Prepared.ofProtocol protocol) := by
  rw [AccessesDeclared, typedefs_build hwell]
  have hmem {p : Command → Bool} {cmd : Command} (h : cmd ∈ protocol.commands.filter p) :
      cmd ∈ protocol.commands := List.mem_of_mem_filter h
  exact fun role => ⟨fun cmd hcmd => handlerAccesses_stub hwell hdistinct (hmem hcmd),
    fun cmd hcmd => decoderAccesses_decoder hwell hdistinct (hmem hcmd),
    fun cmd hcmd => encoderAccesses_encoder hwell hdistinct (hmem hcmd)⟩

end Distinct

/-! ## Members on paths -/

theorem sizeOf_lt_of_mem_children {att child : Attribute} (h : child ∈ att.children) :
    sizeOf child < sizeOf att := by
  obtain ⟨name, id, optional, dataType, children, description⟩ := att
  have hlt : sizeOf child < sizeOf children := List.sizeOf_lt_of_mem h
  rw [Attribute.mk.sizeOf_spec]
  omega

/-- A command of a known direction is received by one of the roles. -/
theorem exists_isReceivable {cmd : Command} (h : cmd.direction ≠ .unknown) :
    ∃ role, cmd.isReceivable role = true := by
  cases hdirection : cmd.direction with
  | bidirectional => exact ⟨.a, by rw [Command.isReceivable, hdirection]⟩
  | aToB => exact ⟨.b, by rw [Command.isReceivable, hdirection]; rfl⟩
  | bToA => exact ⟨.a, by rw [Command.isReceivable, hdirection]; rfl⟩
  | unknown => exact absurd hdirection h

/-- Whatever is stored has a member. -/
theorem exists_membersOf {att : Attribute} {storage : Storage} (protocol parent : String)
    (h : att.dataType.storage = some storage) :
    ∃ member, member ∈ membersOf protocol parent att := by
  rw [membersOf, h]
  cases storage <;> exact ⟨_, List.mem_cons_self⟩

section Handlers

variable {protocol : Protocol} (hwell : WellFormed protocol)

include hwell

/-- Every member that stores an attribute lies on a path of the handler, by induction on the tree
below the attribute. -/
theorem exists_stored_access {cmd : Command} (hcmd : cmd ∈ protocol.commands) :
    ∀ p ∈ cmd.positions, ∀ member ∈ membersOf protocol.name p.group.parent p.node,
      ∃ rest, p.group.ancestors.map Naming.groupMember ++ member.name :: rest ∈
        (Handler.stub protocol.name cmd).flatMap payloadPaths := by
  intro p hp
  induction hsize : sizeOf p.node using Nat.strongRecOn generalizing p with
  | ind size ih =>
      intro member hmember
      obtain ⟨hposition, -, storage, hstorage⟩ := stores_position hwell hcmd hp
      by_cases hnested : storage = .nested
      · subst hnested
        have hgroup := below_mem_groups hposition (Attribute.storage_eq_nested_iff.mp hstorage)
        have hbelow : p.below.own ≠ [] := fun hnil =>
          members_ne_nil hwell.children hgroup (by rw [← Group.map_node_own, hnil, List.map_nil])
        -- the path of a member below runs through this one
        obtain ⟨q, hq⟩ := List.exists_mem_of_ne_nil _ hbelow
        have hqp : q ∈ cmd.positions :=
          (below_sublist_ofTrees cmd.attributes cmd.group 0 p hp).subset hq
        have hchild : q.node ∈ p.node.children := by
          have hmem := List.mem_map_of_mem (f := (·.node)) hq
          rwa [Group.map_node_own] at hmem
        obtain ⟨-, -, stored, hstored⟩ := stores_position hwell hcmd hqp
        obtain ⟨inner, hinner⟩ := exists_membersOf protocol.name q.group.parent hstored
        obtain ⟨rest, hrest⟩ :=
          ih _ (hsize ▸ sizeOf_lt_of_mem_children hchild) q hqp rfl inner hinner
        rw [membersOf, hstorage] at hmember
        obtain rfl := List.mem_singleton.mp hmember
        refine ⟨inner.name :: rest, ?_⟩
        rw [Group.group_of_mem_placed hq] at hrest
        simpa [Position.below, Group.below] using hrest
      · refine ⟨[], ?_⟩
        rw [payloadPaths_stub hwell hcmd]
        refine List.mem_flatMap.mpr ⟨p, hp, ?_⟩
        rw [Position.stored_eq hstorage, Position.loadPaths]
        refine List.mem_append_right _ (List.mem_map.mpr ⟨member.name, ?_, rfl⟩)
        rw [membersOf, hstorage] at hmember
        have hname := List.mem_map_of_mem (f := (·.name)) hmember
        cases storage with
        | nested => exact absurd rfl hnested
        | _ => exact hname

/-- Every member of the struct of a group lies on a path of the handler of a command that one of
the roles receives. -/
theorem exists_access {group : Group} (hgroup : group ∈ protocol.groups) {member : Member}
    (hmember : member ∈ (group.record protocol.name).members) :
    ∃ role, ∃ cmd ∈ protocol.received role, ∃ rest,
      group.ancestors.map Naming.groupMember ++ member.name :: rest ∈
        (Handler.stub protocol.name cmd).flatMap payloadPaths := by
  have hmember : ∃ p ∈ group.own, (member.name = presenceMember ∧ p.node.optional = true) ∨
      member ∈ membersOf protocol.name group.parent p.node := by
    rw [Group.record, Record.ofGroup, List.mem_append, List.mem_flatMap,
      ← Group.map_node_own] at hmember
    rcases hmember with hpresence | ⟨att, hatt, hmember⟩
    · split at hpresence
      next hoptional =>
        obtain rfl := List.mem_singleton.mp hpresence
        obtain ⟨att, hatt, hoptional⟩ := List.any_eq_true.mp hoptional
        obtain ⟨p, hp, rfl⟩ := List.mem_map.mp hatt
        exact ⟨p, hp, .inl ⟨rfl, hoptional⟩⟩
      next => cases hpresence
    · obtain ⟨p, hp, rfl⟩ := List.mem_map.mp hatt
      exact ⟨p, hp, .inr hmember⟩
  obtain ⟨p, hp, hmember⟩ := hmember
  obtain ⟨cmd, hcmd, hposition⟩ :=
    List.mem_flatMap.mp ((own_sublist_positions hgroup).subset hp)
  obtain rfl := Group.group_of_mem_placed hp
  obtain ⟨role, hrole⟩ := exists_isReceivable (hwell.directions cmd hcmd)
  refine ⟨role, cmd, List.mem_filter.mpr ⟨hcmd, hrole⟩, ?_⟩
  rcases hmember with ⟨hname, hoptional⟩ | hmember
  · obtain ⟨-, -, storage, hstorage⟩ := stores_position hwell hcmd hposition
    refine ⟨[], ?_⟩
    rw [payloadPaths_stub hwell hcmd, hname]
    refine List.mem_flatMap.mpr ⟨p, hposition, ?_⟩
    rw [Position.stored_eq hstorage, Position.loadPaths, Position.presencePaths, if_pos hoptional]
    exact List.mem_cons_self
  · exact exists_stored_access hwell hcmd p hposition member hmember

/-- The struct of a group has a member. -/
theorem exists_member {group : Group} (hgroup : group ∈ protocol.groups) :
    ∃ member, member ∈ (group.record protocol.name).members := by
  obtain ⟨att, hatt⟩ := List.exists_mem_of_ne_nil _ (members_ne_nil hwell.children hgroup)
  have hregular : att.Regular :=
    have hmem := mem_attributes_of_mem_members hwell.children hgroup hatt
    ⟨hwell.types att hmem, hwell.children att hmem⟩
  obtain ⟨storage, hstorage, -⟩ := hregular.stores
  obtain ⟨member, hmember⟩ := exists_membersOf protocol.name group.parent hstorage
  exact ⟨member, List.mem_append_right _ (List.mem_flatMap.mpr ⟨att, hatt, hmember⟩)⟩

/-- If all accesses are declared, types and members are told apart. -/
theorem distinct_of_accessesDeclared
    (h : AccessesDeclared (Prepared.ofProtocol protocol)) : Distinct protocol.typedefs := by
  have hfilter {group : Group} (hgroup : group ∈ protocol.groups) {member : Member}
      (hmember : member ∈ (group.record protocol.name).members) :
      protocol.typedefs.filter (·.name == group.typeName protocol.name) =
          [(group.record protocol.name).typedef] ∧
        (group.record protocol.name).typedef.declarations.filter (·.name == member.name) =
          [member.declared] := by
    obtain ⟨role, cmd, hcmd, rest, hpath⟩ := exists_access hwell hgroup hmember
    have hresolved := ((h role).1 cmd hcmd).resolved _ hpath
    rw [typedefs_build hwell] at hresolved
    exact filter_of_resolve_place hwell hgroup hmember hresolved
  constructor
  · refine nodup_map_of_filter (List.forall_mem_map.mpr fun record hrecord => ?_)
    rw [Protocol.records, List.mem_append, List.mem_map, List.mem_singleton] at hrecord
    rcases hrecord with ⟨group, hgroup, rfl⟩ | rfl
    · have hgroup := mem_definedGroups.mp hgroup
      obtain ⟨member, hmember⟩ := exists_member hwell hgroup
      exact (hfilter hgroup hmember).1
    · have hnone : (((definedGroups protocol).map (Group.record protocol.name)).map
          Record.typedef).filter (·.name == Naming.payloadUnion protocol.name) = [] := by
        rw [List.filter_eq_nil_iff, List.forall_mem_map, List.forall_mem_map]
        intro group hgroup heq
        exact payloadUnion_ne_typeName protocol.name group (beq_iff_eq.mp heq)
      rw [Protocol.typedefs, Protocol.records, List.map_append, List.filter_append]
      refine (congrArg (· ++ _) hnone).trans ?_
      simp
  · refine List.forall_mem_map.mpr fun record hrecord => ?_
    have hspelled := spelled_members hwell record hrecord
    rw [Protocol.records, List.mem_append, List.mem_map, List.mem_singleton] at hrecord
    rcases hrecord with ⟨group, hgroup, rfl⟩ | rfl
    · refine nodup_map_of_filter ?_
      rw [declarations_typedef hspelled, List.forall_mem_map]
      intro member hmember
      rw [← declarations_typedef hspelled, Member.name_declared (hspelled member hmember)]
      exact (hfilter (mem_definedGroups.mp hgroup) hmember).2
    · rw [map_name_declarations hspelled]
      exact nodup_names_ofCarriers hwell

end Handlers

/-! ## Generated functions -/

/-- The functions of a protocol stand in the generated files, and their accesses are those of the
attributes of their commands, one after the other. -/
structure AccessesListed (prepared : Prepared) (role : Role) : Prop where
  stubs : ∀ cmd ∈ prepared.protocol.received role,
    let lines := Handler.stub prepared.protocol.name cmd
    lines <:+: (MainModule.build prepared role none).lines ∧
      lines.flatMap payloadPaths = cmd.positions.flatMap (·.stored Position.loadPaths) ∧
      lines.filterMap local? = (cmd.positions.flatMap Position.ownLocals).map Local.declared ∧
      lines.filterMap sides? = cmd.positions.flatMap (·.stored Position.loadSides)
  decoders : ∀ cmd ∈ prepared.protocol.decoded role,
    let lines := (Decoder.ofCommand prepared.protocol.name cmd).lines
    lines <:+: (Bridge.build prepared role).lines ∧
      lines.flatMap payloadPaths =
        (if cmd.attributes.any (·.optional) then [(PresenceBit.field [cmd.name]).path] else []) ++
          cmd.positions.flatMap (·.stored Position.decodePaths) ∧
      lines.filterMap copied? = cmd.positions.flatMap (·.stored Position.copies)
  encoders : ∀ cmd ∈ prepared.protocol.encoded role,
    let lines := (Encoder.ofCommand prepared.protocol.name cmd).lines
    lines <:+: (Bridge.build prepared role).lines ∧
      lines.flatMap payloadPaths = cmd.positions.flatMap (·.stored Position.encodePaths) ∧
      (lines.filterMap fun line => (sides? line).bind sized?) =
        cmd.positions.flatMap (·.stored (Position.sizes prepared.protocol.name)) ∧
      (lines.filterMap fun line => (sides? line).bind addressed?) =
        cmd.positions.flatMap (·.stored (Position.addresses prepared.protocol.name))

theorem accessesListed_ofProtocol {protocol : Protocol} (hwell : WellFormed protocol)
    (role : Role) : AccessesListed (Prepared.ofProtocol protocol) role where
  stubs := fun cmd hcmd => by
    have hmem := List.mem_of_mem_filter hcmd
    obtain ⟨hsides, hlocals⟩ := read_stub hwell hmem
    refine ⟨stub_emitted hcmd, payloadPaths_stub hwell hmem, ?_, hsides⟩
    exact hlocals.trans (congrArg _ (locals_eq_flatMap hwell hmem))
  decoders := fun cmd hcmd =>
    have hmem := List.mem_of_mem_filter hcmd
    ⟨decoder_emitted hcmd, payloadPaths_decoder hwell hmem, read_decoder hwell hmem⟩
  encoders := fun cmd hcmd =>
    have hmem := List.mem_of_mem_filter hcmd
    have hread := read_sizes hwell hmem
    ⟨encoder_emitted hcmd, payloadPaths_encoder hwell hmem, hread.1, hread.2⟩

/-- The functions of an accepted protocol access the members of its attributes, and their accesses
are declared exactly if the main header tells its structs apart and no two attributes of a group
meet. -/
theorem accesses_declared_iff {protocol : Protocol} {prepared : Prepared}
    (hprepare : prepare protocol = .ok prepared) :
    (∀ role, AccessesListed prepared role) ∧
      (AccessesDeclared prepared ↔ (protocol.groups.map Group.typeStem).Nodup ∧
        ∀ group ∈ protocol.groups, ∀ first ∈ group.members, ∀ second ∈ group.members,
          ¬MembersMeet first second) := by
  obtain ⟨rfl, hwell⟩ := wellFormed_of_prepare hprepare
  refine ⟨accessesListed_ofProtocol hwell, ?_⟩
  rw [← distinct_typedefs_iff hwell]
  exact ⟨distinct_of_accessesDeclared hwell, accessesDeclared_of_distinct hwell⟩

/-- The accesses of the meter are declared. -/
theorem accesses_declared_meter :
    prepare meter = .ok (Prepared.ofProtocol meter) ∧
      AccessesDeclared (Prepared.ofProtocol meter) := by
  obtain ⟨-, hiff⟩ := accesses_declared_iff prepare_meter
  refine ⟨prepare_meter, hiff.mpr ⟨by decide, ?_⟩⟩
  have hshaped : Shaped meter.attributes := (wellFormed_of_prepare prepare_meter).2.children
  have hplain : ∀ att ∈ meter.attributes, ¬"p_".toList <+: (Text.lower att.name).toList ∧
      ¬"payload".toList <:+ (Text.lower att.name).toList := by decide
  intro group hgroup first hfirst second _
  have hnames := hplain first (mem_attributes_of_mem_members hshaped hgroup hfirst)
  exact not_meet_of_plain hnames.1 hnames.2

private def twin : Protocol :=
  ⟨"Pair", 5, [⟨"A", 1, .aToB,
      [⟨"B", 1, false, .subAttributes, [⟨"y", 1, false, .uint8, [], ""⟩], ""⟩], ""⟩,
    ⟨"A_att_B", 2, .aToB, [⟨"y", 1, false, .uint16, [], ""⟩], ""⟩]⟩

/-- A complex attribute and a command with one joined name are accepted, and the header defines two
structs of that name, in which one path leads to numbers of different types. -/
theorem not_accesses_declared_twin :
    prepare twin = .ok (Prepared.ofProtocol twin) ∧
      ¬AccessesDeclared (Prepared.ofProtocol twin) := by
  have hprepare : prepare twin = .ok (Prepared.ofProtocol twin) := rfl
  have hwell := (wellFormed_of_prepare hprepare).2
  refine ⟨hprepare, fun h => ?_⟩
  have htypes := (distinct_of_accessesDeclared hwell h).typeNames
  exact absurd htypes (by decide)

end Firmware
end CommandSet
