import CommandSet.Prepared
import CommandSet.Proofs.Protocol.Positions

/-!
# Protocols without descriptions

Descriptions are told to the reader of generated code and decide nothing.  A protocol is
compared here with the same protocol without its descriptions: all that is computed of the
one is computed of the other.

Main definitions:

- {lit}`Attribute.undescribed`, {lit}`Command.undescribed`, {lit}`Protocol.undescribed`: the
  same without descriptions.
- {lit}`Prepared.undescribed`: the same for what generation starts from.

Main results:

- Theorem {lit}`ofProtocol_undescribed`: preparation and erasure commute.
- Theorems {lit}`scopes_undescribed`, {lit}`complexChildrenFirst_undescribed`: the lists of
  attributes in the order of generated code.
-/

namespace CommandSet

/-! ## Erasure -/

namespace Attribute

mutual

/-- An attribute without the descriptions in its tree. -/
def undescribed : Attribute → Attribute
  | ⟨name, id, optional, dataType, children, _⟩ =>
      ⟨name, id, optional, dataType, undescribedAll children, ""⟩

/-- Sibling attributes without the descriptions in their trees. -/
def undescribedAll : List Attribute → List Attribute
  | [] => []
  | att :: rest => att.undescribed :: undescribedAll rest

end

theorem undescribedAll_eq_map (atts : List Attribute) :
    undescribedAll atts = atts.map undescribed := by
  induction atts with
  | nil => rfl
  | cons att rest ih => rw [undescribedAll, ih, List.map_cons]

theorem undescribed_mk (name : String) (id : Int16) (optional : Bool) (dataType : DataType)
    (children : List Attribute) (description : String) :
    undescribed ⟨name, id, optional, dataType, children, description⟩ =
      ⟨name, id, optional, dataType, children.map undescribed, ""⟩ := by
  rw [undescribed, undescribedAll_eq_map]

variable (att : Attribute)

@[simp]
theorem undescribed_name : att.undescribed.name = att.name := by
  cases att
  rw [undescribed_mk]

@[simp]
theorem undescribed_id : att.undescribed.id = att.id := by
  cases att
  rw [undescribed_mk]

@[simp]
theorem undescribed_optional : att.undescribed.optional = att.optional := by
  cases att
  rw [undescribed_mk]

@[simp]
theorem undescribed_dataType : att.undescribed.dataType = att.dataType := by
  cases att
  rw [undescribed_mk]

@[simp]
theorem undescribed_children : att.undescribed.children = att.children.map undescribed := by
  cases att
  rw [undescribed_mk]

@[simp]
theorem undescribed_description : att.undescribed.description = "" := by
  cases att
  rw [undescribed_mk]

@[simp]
theorem isComplex_undescribed : att.undescribed.isComplex = att.isComplex := by
  rw [isComplex, undescribed_dataType, isComplex]

@[simp]
theorem hasSubAttributes_undescribed : att.undescribed.hasSubAttributes = att.hasSubAttributes := by
  simp [hasSubAttributes]

/-- Erasure does not change the number of attributes. -/
theorem forestSize_undescribed (atts : List Attribute) :
    forestSize (atts.map undescribed) = forestSize atts := by
  induction atts using Attribute.forest_induction with
  | nil => rfl
  | cons att rest ihbelow ihrest =>
      cases att
      rw [List.map_cons, forestSize, undescribed_mk, treeSize, ihbelow, ihrest, forestSize,
        treeSize]

end Attribute

/-- A command without descriptions. -/
def Command.undescribed (cmd : Command) : Command :=
  { cmd with attributes := cmd.attributes.map Attribute.undescribed, description := "" }

/-- A protocol without descriptions. -/
def Protocol.undescribed (protocol : Protocol) : Protocol :=
  { protocol with commands := protocol.commands.map Command.undescribed }

/-- An entry without descriptions. -/
def Entry.undescribed (entry : Entry) : Entry :=
  { entry with node := entry.node.undescribed }

/-- A scope without descriptions. -/
def Scope.undescribed (scope : Scope) : Scope :=
  { scope with entries := scope.entries.map Entry.undescribed }

/-- A prepared protocol without descriptions. -/
def Prepared.undescribed (prepared : Prepared) : Prepared :=
  { protocol := prepared.protocol.undescribed
    entries := prepared.entries.map Entry.undescribed
    nesting := prepared.nesting }

/-! ## Commands -/

namespace Command

variable (cmd : Command)

@[simp]
theorem undescribed_name : cmd.undescribed.name = cmd.name :=
  rfl

@[simp]
theorem undescribed_id : cmd.undescribed.id = cmd.id :=
  rfl

@[simp]
theorem undescribed_attributes :
    cmd.undescribed.attributes = cmd.attributes.map Attribute.undescribed :=
  rfl

@[simp]
theorem undescribed_description : cmd.undescribed.description = "" :=
  rfl

@[simp]
theorem hasAttributes_undescribed : cmd.undescribed.hasAttributes = cmd.hasAttributes := by
  simp [hasAttributes]

@[simp]
theorem isReceivable_undescribed (role : Role) :
    cmd.undescribed.isReceivable role = cmd.isReceivable role :=
  rfl

@[simp]
theorem isTransmittable_undescribed (role : Role) :
    cmd.undescribed.isTransmittable role = cmd.isTransmittable role :=
  rfl

@[simp]
theorem slots_undescribed : cmd.undescribed.slots = cmd.slots :=
  Attribute.forestSize_undescribed cmd.attributes

end Command

namespace Protocol

variable (protocol : Protocol)

@[simp]
theorem undescribed_name : protocol.undescribed.name = protocol.name :=
  rfl

@[simp]
theorem undescribed_id : protocol.undescribed.id = protocol.id :=
  rfl

@[simp]
theorem undescribed_commands :
    protocol.undescribed.commands = protocol.commands.map Command.undescribed :=
  rfl

/-- Commands are selected by what erasure keeps. -/
theorem filter_undescribed {select : Command → Bool}
    (h : ∀ cmd : Command, select cmd.undescribed = select cmd) (commands : List Command) :
    (commands.map Command.undescribed).filter select =
      (commands.filter select).map Command.undescribed := by
  rw [List.filter_map]
  exact congrArg _ (List.filter_congr fun cmd _ => h cmd)

@[simp]
theorem carriers_undescribed :
    protocol.undescribed.carriers = protocol.carriers.map Command.undescribed :=
  filter_undescribed Command.hasAttributes_undescribed protocol.commands

@[simp]
theorem received_undescribed (role : Role) :
    protocol.undescribed.received role = (protocol.received role).map Command.undescribed :=
  filter_undescribed (fun cmd => cmd.isReceivable_undescribed role) protocol.commands

@[simp]
theorem decoded_undescribed (role : Role) :
    protocol.undescribed.decoded role = (protocol.decoded role).map Command.undescribed :=
  filter_undescribed (fun cmd => by simp) protocol.commands

@[simp]
theorem encoded_undescribed (role : Role) :
    protocol.undescribed.encoded role = (protocol.encoded role).map Command.undescribed :=
  filter_undescribed (fun cmd => by simp) protocol.commands

@[simp]
theorem maxSlots_undescribed : protocol.undescribed.maxSlots = protocol.maxSlots := by
  simp [maxSlots, Function.comp_def]

end Protocol

/-! ## The flat list -/

namespace Entry

variable (entry : Entry)

@[simp]
theorem undescribed_node : entry.undescribed.node = entry.node.undescribed :=
  rfl

@[simp]
theorem undescribed_index : entry.undescribed.index = entry.index :=
  rfl

@[simp]
theorem parent_undescribed : entry.undescribed.parent = entry.parent :=
  rfl

@[simp]
theorem childCount_undescribed : entry.undescribed.childCount = entry.childCount := by
  simp [childCount]

theorem ofTrees_undescribed (atts : List Attribute) : ∀ (ancestors : List String) (index : Nat),
    ofTrees ancestors index (atts.map Attribute.undescribed) =
      (ofTrees ancestors index atts).map undescribed := by
  induction atts using Attribute.forest_induction with
  | nil =>
      intro ancestors index
      rfl
  | cons att rest ihbelow ihrest =>
      intro ancestors index
      have hnested := att.hasSubAttributes_undescribed
      cases att
      rw [Attribute.undescribed_mk] at hnested
      rw [List.map_cons, ofTrees, ofTrees, List.map_append, ihrest, Attribute.undescribed_mk,
        ofTree, ofTree, hnested, ihbelow, List.map_cons, undescribed, Attribute.undescribed_mk]
      split <;> rfl

end Entry

theorem flatten_undescribed (commands : List Command) :
    flatten (commands.map Command.undescribed) = (flatten commands).map Entry.undescribed := by
  rw [flatten, flatten, List.flatMap_map, List.map_flatMap]
  exact List.flatMap_congr fun cmd _ => Entry.ofTrees_undescribed cmd.attributes [cmd.name] 0

theorem anySubAttributes_undescribed (entries : List Entry) :
    anySubAttributes (entries.map Entry.undescribed) = anySubAttributes entries := by
  simp [anySubAttributes, Function.comp_def]

/-- Preparation and erasure commute. -/
theorem ofProtocol_undescribed (protocol : Protocol) :
    Prepared.ofProtocol protocol.undescribed = (Prepared.ofProtocol protocol).undescribed := by
  simp [Prepared.ofProtocol, Prepared.undescribed, flatten_undescribed,
    anySubAttributes_undescribed]

/-! ## The order of generated code -/

theorem complexChildrenFirst_undescribed (prepared : Prepared) :
    prepared.undescribed.complexChildrenFirst =
      prepared.complexChildrenFirst.map Entry.undescribed := by
  have hfilter : (prepared.entries.map Entry.undescribed).reverse.filter
      (·.node.hasSubAttributes) =
        (prepared.entries.reverse.filter (·.node.hasSubAttributes)).map Entry.undescribed := by
    rw [← List.map_reverse, List.filter_map]
    refine congrArg _ (List.filter_congr fun entry _ => ?_)
    simp
  have hnesting : prepared.undescribed.nesting = prepared.nesting := rfl
  have hentries : prepared.undescribed.entries = prepared.entries.map Entry.undescribed := rfl
  rw [Prepared.complexChildrenFirst, Prepared.complexChildrenFirst, hnesting, hentries, hfilter]
  split <;> rfl

theorem insertByParent_undescribed (entry : Entry) (entries : List Entry) :
    insertByParent entry.undescribed (entries.map Entry.undescribed) =
      (insertByParent entry entries).map Entry.undescribed := by
  induction entries with
  | nil => rfl
  | cons other entries ih =>
      rw [List.map_cons, insertByParent, insertByParent, Entry.parent_undescribed,
        Entry.parent_undescribed, ih]
      split <;> rfl

theorem sortByParent_undescribed (entries : List Entry) :
    sortByParent (entries.map Entry.undescribed) =
      (sortByParent entries).map Entry.undescribed := by
  induction entries with
  | nil => rfl
  | cons entry entries ih =>
      rw [List.map_cons, sortByParent, List.foldr_cons, ← sortByParent, ih,
        insertByParent_undescribed]
      rfl

theorem groupByParent_undescribed (entries : List Entry) :
    groupByParent (entries.map Entry.undescribed) =
      (groupByParent entries).map Scope.undescribed := by
  induction entries with
  | nil => rfl
  | cons entry entries ih =>
      rw [List.map_cons, groupByParent, groupByParent, ih]
      cases groupByParent entries with
      | nil => rfl
      | cons scope scopes =>
          by_cases hparent : scope.parent = entry.parent <;> simp [hparent, Scope.undescribed]

theorem scopes_undescribed (prepared : Prepared) :
    prepared.undescribed.scopes = prepared.scopes.map Scope.undescribed := by
  rw [Prepared.scopes, Prepared.undescribed, sortByParent_undescribed, groupByParent_undescribed,
    Prepared.scopes]

end CommandSet
