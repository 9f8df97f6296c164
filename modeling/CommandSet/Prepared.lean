import CommandSet.Validation

/-!
# Protocols prepared for generation

Every artifact is generated from a protocol together with its flattened attribute
forest.

Main definitions:

- {lit}`Prepared`: a protocol and its forest.
- {lit}`Prepared.ofProtocol`: without any check.
- {lit}`prepare`: after validation.
-/

namespace CommandSet

/-- A protocol and its flattened attribute forest. -/
structure Prepared where
  protocol : Protocol
  entries : List Entry
  /-- Whether generated code lists sub-attributes at all. -/
  nesting : Bool

namespace Prepared

/-- The forest of a protocol as it is. -/
def ofProtocol (protocol : Protocol) : Prepared :=
  let entries := flatten protocol.commands
  ⟨protocol, entries, anySubAttributes entries⟩

/-- The attributes that hold sub-attributes, each after those below it. -/
def complexChildrenFirst (prepared : Prepared) : List Entry :=
  if prepared.nesting then prepared.entries.reverse.filter (·.node.hasSubAttributes)
  else []

/-- The scopes of the forest in byte order of their names. -/
def scopes (prepared : Prepared) : List Scope :=
  groupByParent (sortByParent prepared.entries)

end Prepared

/-- Validate a protocol and flatten its forest. -/
def prepare (protocol : Protocol) : Except ValidationError Prepared := do
  validate protocol
  pure (Prepared.ofProtocol protocol)

end CommandSet
