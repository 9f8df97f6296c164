import CommandSet.Proofs.Firmware.Visits
import CommandSet.Proofs.Protocol.Scopes
import CommandSet.Proofs.Text.ByteOrder
import Mathlib.Algebra.GroupWithZero.Nat

/-!
# Scopes as a partition

The scopes of a prepared protocol divide the attributes of all commands between them.  A
command with attributes and a complex attribute have a scope each, which lists what stands
directly below them in the order of declaration, and there are no other scopes.

Main result:

- Theorem {lit}`scopes_partition`: the scopes of a prepared protocol are in byte order, one for
  each group of attributes, and hold every attribute once.
-/

namespace CommandSet

/-- The entries of a group are its members with the chain down to them and their indices. -/
theorem Group.map_entry_own (group : Group) :
    group.own.map Position.entry =
      group.members.mapIdx fun index att => ⟨group.ancestors, index, att⟩ := by
  rw [Group.own, Group.placed, List.map_map, List.mapIdx_eq_zipIdx_map]
  rfl

/-! ## Numbers of attributes -/

/-- A forest has as many positions as attributes. -/
theorem length_ofTrees (atts : List Attribute) : ∀ group index,
    (Position.ofTrees group index atts).length = Attribute.forestSize atts := by
  induction atts using Attribute.forest_induction with
  | nil =>
      intro group index
      rfl
  | cons att rest ihbelow ihrest =>
      intro group index
      rw [Position.ofTrees_cons, List.length_cons, List.length_append, ihbelow, ihrest,
        Attribute.forestSize, Attribute.treeSize_eq]
      omega

/-- The flat list is as long as the commands have slots. -/
theorem length_flatten {protocol : Protocol} (h : Shaped protocol.attributes) :
    (flatten protocol.commands).length = (protocol.commands.map Command.slots).sum := by
  rw [flatten_eq_positions h, List.length_map, Protocol.positions, List.length_flatMap]
  refine congrArg List.sum (List.map_congr_left fun cmd _ => ?_)
  exact length_ofTrees cmd.attributes cmd.group 0

/-! ## The partition -/

/-- Scopes one after the other are the flat list in another order. -/
theorem flatMap_scopes_perm (prepared : Prepared) :
    (prepared.scopes.flatMap (·.entries)).Perm prepared.entries := by
  rw [Prepared.scopes, flatMap_groupByParent]
  exact sortByParent_perm prepared.entries

/-- The scopes of a prepared protocol are in strictly ascending byte order of their names.
There is one for each command with attributes and one for each complex attribute at any depth,
and no other; it lists the children of its node in order, each with the chain of names down to
the node, its index and the number of its own children.  Together they hold every entry once,
as many as the commands have slots. -/
theorem scopes_partition {protocol : Protocol} {prepared : Prepared}
    (hprepare : prepare protocol = .ok prepared) :
    prepared.scopes.Pairwise (fun first second =>
      Text.bytes first.parent < Text.bytes second.parent) ∧
    prepared.scopes.Perm (protocol.groups.map fun group =>
      ⟨group.parent, group.members.mapIdx fun index att => ⟨group.ancestors, index, att⟩⟩) ∧
    (∀ group ∈ protocol.groups, ∃ scope ∈ prepared.scopes, scope.parent = group.parent ∧
      scope.entries.map Entry.childCount = group.members.map fun att => att.children.length) ∧
    (prepared.scopes.flatMap (·.entries)).Perm prepared.entries ∧
    prepared.entries.length = (protocol.commands.map Command.slots).sum := by
  obtain ⟨rfl, hwell⟩ := wellFormed_of_prepare hprepare
  have hgroups := scopes_perm_groups hwell
  refine ⟨?_, ?_, ?_, flatMap_scopes_perm _, length_flatten hwell.children⟩
  · refine (pairwise_groupByParent (pairwise_sortByParent _)).imp ?_
    intro first second hlt
    exact Text.bytes_lt_bytes.mpr hlt
  · have hscope : Group.scope = fun group : Group =>
        ⟨group.parent, group.members.mapIdx fun index att => ⟨group.ancestors, index, att⟩⟩ := by
      funext group
      rw [Group.scope, Group.map_entry_own]
    rwa [hscope] at hgroups
  · intro group hgroup
    refine ⟨group.scope, hgroups.mem_iff.mpr (List.mem_map_of_mem hgroup), rfl, ?_⟩
    rw [Group.scope, List.map_map, ← Group.map_node_own, List.map_map]
    rfl

/-- The scopes of a protocol with a group two levels deep. -/
theorem scopes_partition_meter :
    prepare meter = .ok (Prepared.ofProtocol meter) ∧
    (Prepared.ofProtocol meter).scopes.Pairwise (fun first second =>
      Text.bytes first.parent < Text.bytes second.parent) ∧
    (Prepared.ofProtocol meter).scopes.Perm (meter.groups.map fun group =>
      ⟨group.parent, group.members.mapIdx fun index att => ⟨group.ancestors, index, att⟩⟩) ∧
    (∀ group ∈ meter.groups, ∃ scope ∈ (Prepared.ofProtocol meter).scopes,
      scope.parent = group.parent ∧
        scope.entries.map Entry.childCount = group.members.map fun att => att.children.length) ∧
    ((Prepared.ofProtocol meter).scopes.flatMap (·.entries)).Perm
      (Prepared.ofProtocol meter).entries ∧
    (Prepared.ofProtocol meter).entries.length = (meter.commands.map Command.slots).sum :=
  ⟨prepare_meter, scopes_partition prepare_meter⟩

end CommandSet
