import CommandSet.Proofs.Protocol.Names

/-!
# Well-formed protocols

What a protocol has to satisfy so that code can be generated from it, said without
the checks that decide it.  Every condition speaks of all attributes at all depths.

Main definitions:

- {lit}`Attribute.forest`, {lit}`Protocol.attributes`: all attributes at all depths.
- {lit}`DistinctSpellings`: names that stay distinct in every spelling.
- {lit}`WellFormed`: the protocols code can be generated from.
-/

namespace CommandSet

/-! ## Spellings -/

/-- Names that differ pairwise in upper case, as capitalised words and in snake
case. -/
structure DistinctSpellings (names : List String) : Prop where
  upper : (names.map Text.upper).Nodup
  capitalized : (names.map CommandSet.capitalized).Nodup
  snakeCase : (names.map CommandSet.snakeCase).Nodup

/-! ## All attributes of a protocol -/

namespace Attribute

mutual

/-- An attribute and all attributes below it. -/
def subtree : Attribute → List Attribute
  | att@⟨_, _, _, _, children, _⟩ => att :: forest children

/-- Sibling attributes and all attributes below them. -/
def forest : List Attribute → List Attribute
  | [] => []
  | att :: rest => att.subtree ++ forest rest

end

theorem subtree_eq (att : Attribute) : att.subtree = att :: forest att.children := by
  cases att
  rw [subtree]

end Attribute

/-- Sibling attributes with distinct identifiers and spellings. -/
structure DistinctSiblings (siblings : List Attribute) : Prop where
  ids : (siblings.map (·.id)).Nodup
  names : DistinctSpellings (siblings.map (·.name))

namespace Protocol

/-- The attributes of all commands at all depths. -/
def attributes (protocol : Protocol) : List Attribute :=
  protocol.commands.flatMap fun cmd => Attribute.forest cmd.attributes

/-- The lists of attributes that share a parent: one for each command and one for each
attribute. -/
def siblingLists (protocol : Protocol) : List (List Attribute) :=
  protocol.commands.map (·.attributes) ++ protocol.attributes.map (·.children)

/-- The names that become attribute scopes: those of commands and of complex
attributes. -/
def scopeNames (protocol : Protocol) : List String :=
  protocol.commands.map (·.name) ++ (protocol.attributes.filter (·.isComplex)).map (·.name)

end Protocol

/-! ## Well-formedness -/

/-- The protocols that code can be generated from. -/
structure WellFormed (protocol : Protocol) : Prop where
  has_commands : protocol.commands ≠ []
  protocol_name : IsName protocol.name
  command_names : ∀ cmd ∈ protocol.commands, IsName cmd.name
  attribute_names : ∀ att ∈ protocol.attributes, IsName att.name
  directions : ∀ cmd ∈ protocol.commands, cmd.direction ≠ .unknown
  types : ∀ att ∈ protocol.attributes, att.dataType ≠ .unknown
  command_ids_nonneg : ∀ cmd ∈ protocol.commands, 0 ≤ cmd.id
  attribute_ids_nonneg : ∀ att ∈ protocol.attributes, 0 ≤ att.id
  command_ids : (protocol.commands.map (·.id)).Nodup
  siblings : ∀ siblings ∈ protocol.siblingLists, DistinctSiblings siblings
  /-- Attributes have sub-attributes exactly when their type asks for them. -/
  children : ∀ att ∈ protocol.attributes, att.children ≠ [] ↔ att.dataType = .subAttributes
  scopes : DistinctSpellings protocol.scopeNames

end CommandSet
