import CommandSet.Protocol.Basic

/-!
# The attribute forest

The attributes of all commands form a forest.  Generated code lists it in two
ways: flat, every attribute after its parent, and scope by scope, where a scope is
the list of attributes under one parent name.

Main definitions:

- {lit}`Entry`: an attribute with its position in the forest.
- {lit}`flatten`: the whole forest, parents before children.
- {lit}`sortByParent`: the entries in byte order of their parents' names.
- {lit}`Scope`, {lit}`groupByParent`: the entries under one parent name.
- {lit}`repeatedComplexName?`: a name that two complex attributes share.
-/

namespace CommandSet

/-! ## Entries -/

/-- An attribute and its position: the names from its command down to its parent,
and its place among the parent's attributes. -/
structure Entry where
  ancestors : List String
  index : Nat
  node : Attribute
deriving Repr, BEq

namespace Entry

/-- The name of the command or attribute that holds the attribute. -/
def parent (entry : Entry) : String :=
  entry.ancestors.getLastD ""

/-- Number of sub-attributes. -/
def childCount (entry : Entry) : Nat :=
  entry.node.children.length

mutual

/-- The entries of a tree, its root first. -/
def ofTree (ancestors : List String) (index : Nat) : Attribute → List Entry
  | att@⟨name, _, _, _, children, _⟩ =>
      ⟨ancestors, index, att⟩ ::
        if att.hasSubAttributes then ofTrees (ancestors ++ [name]) 0 children else []

/-- The entries of sibling trees, the first of which stands at {lit}`index`. -/
def ofTrees (ancestors : List String) (index : Nat) : List Attribute → List Entry
  | [] => []
  | att :: rest => ofTree ancestors index att ++ ofTrees ancestors (index + 1) rest

end

end Entry

/-- The attributes of all commands, each before its sub-attributes. -/
def flatten (commands : List Command) : List Entry :=
  commands.flatMap fun cmd => Entry.ofTrees [cmd.name] 0 cmd.attributes

/-- Whether some attribute of the forest holds sub-attributes. -/
def anySubAttributes (entries : List Entry) : Bool :=
  entries.any (·.node.hasSubAttributes)

/-! ## Scopes -/

/-- Put an entry before the first one whose parent's name is not smaller. -/
def insertByParent (entry : Entry) : List Entry → List Entry
  | [] => [entry]
  | other :: rest =>
      if other.parent < entry.parent then other :: insertByParent entry rest
      else entry :: other :: rest

/-- The entries in byte order of their parents' names, otherwise in their old
order. -/
def sortByParent (entries : List Entry) : List Entry :=
  entries.foldr insertByParent []

/-- The attributes under one parent name. -/
structure Scope where
  parent : String
  entries : List Entry
deriving Repr, BEq

/-- Whether a scope has an optional attribute. -/
def Scope.hasOptional (scope : Scope) : Bool :=
  scope.entries.any (·.node.optional)

/-- Gather neighbouring entries with the same parent's name. -/
def groupByParent : List Entry → List Scope
  | [] => []
  | entry :: rest =>
      match groupByParent rest with
      | [] => [⟨entry.parent, [entry]⟩]
      | scope :: scopes =>
          if scope.parent = entry.parent then ⟨scope.parent, entry :: scope.entries⟩ :: scopes
          else ⟨entry.parent, [entry]⟩ :: scope :: scopes

/-! ## Names of complex attributes -/

mutual

/-- Walk a tree of complex attributes with the names seen so far; stops at the
first name seen twice. -/
def walkComplex (seen : List String) : Attribute → Except String (List String)
  | att@⟨name, _, _, _, children, _⟩ =>
      if att.isComplex then
        if seen.contains name then .error name else walkComplexes (name :: seen) children
      else .ok seen

/-- Walk sibling trees one after the other. -/
def walkComplexes (seen : List String) : List Attribute → Except String (List String)
  | [] => .ok seen
  | att :: rest =>
      match walkComplex seen att with
      | .ok seen => walkComplexes seen rest
      | .error name => .error name

end

/-- Walk the trees of all commands. -/
def walkCommands (seen : List String) : List Command → Except String (List String)
  | [] => .ok seen
  | cmd :: rest =>
      match walkComplexes seen cmd.attributes with
      | .ok seen => walkCommands seen rest
      | .error name => .error name

/-- The first name that a complex attribute shares with one before it, anywhere in
the protocol. -/
def repeatedComplexName? (commands : List Command) : Option String :=
  match walkCommands [] commands with
  | .ok _ => none
  | .error name => some name

/-! ## Order of the sorted entries -/

/-- Inserting an entry adds it and nothing else. -/
theorem insertByParent_perm (entry : Entry) (entries : List Entry) :
    (insertByParent entry entries).Perm (entry :: entries) := by
  induction entries with
  | nil => exact List.Perm.refl _
  | cons other rest ih =>
      unfold insertByParent
      split
      · exact (ih.cons other).trans (List.Perm.swap entry other rest)
      · exact List.Perm.refl _

end CommandSet
