import CommandSet.Proofs.Protocol.Paths
import CommandSet.Proofs.Text.Words

/-!
# Groups of a protocol

Generated code has items for every group of attributes: a struct, a descriptor table, functions.
They are defined with those of the innermost groups first, so that an item finds what it is made
of in front of it.

Main definitions:

- {lit}`Group.Named`: groups that are named by names.
- {lit}`definedGroups`: the groups in the order in which their items are defined.

Main results:

- Theorem {lit}`mem_groups_iff`: the groups of a protocol, step by step.
- Theorem {lit}`groups_induction`: induction from the groups of commands to those below.
- Theorem {lit}`definedGroups_perm`: all of them are defined once.
- Theorem {lit}`map_entries_eq`: what is built entry by entry is built group by group.
-/

namespace CommandSet

/-! ## Names of groups -/

theorem Group.reverse_ancestors {group : Group} (h : group.ancestors ≠ []) :
    ∃ above, group.ancestors.reverse = group.parent :: above := by
  obtain ⟨above, last, hsplit⟩ := List.eq_nil_or_concat group.ancestors |>.resolve_left h
  refine ⟨above.reverse, ?_⟩
  rw [Group.parent, hsplit]
  simp

/-- Groups whose items get names from names. -/
structure Group.Named (group : Group) : Prop where
  ancestors_ne_nil : group.ancestors ≠ []
  ancestors : ∀ name ∈ group.ancestors, IsName name
  members : ∀ att ∈ group.members, IsName att.name

theorem Group.Named.parent {group : Group} (h : group.Named) : IsName group.parent := by
  obtain ⟨above, habove⟩ := Group.reverse_ancestors h.ancestors_ne_nil
  exact h.ancestors _ (List.mem_reverse.mp (habove ▸ List.mem_cons_self))

/-- The groups of a protocol that code is generated from. -/
theorem named_of_mem_groups {protocol : Protocol} (hwell : WellFormed protocol) {group : Group}
    (h : group ∈ protocol.groups) : group.Named := by
  constructor
  case members =>
    exact fun att hatt =>
      hwell.attribute_names att (mem_attributes_of_mem_members hwell.children h hatt)
  all_goals
    rw [Protocol.groups, List.mem_flatMap] at h
    rcases h with ⟨cmd, hcmd, hgroup⟩
    have hcmd := List.mem_of_mem_filter hcmd
    rw [Command.groups, List.mem_cons, List.mem_map] at hgroup
    rcases hgroup with rfl | ⟨p, hp, rfl⟩
  case ancestors_ne_nil.inl => exact List.cons_ne_nil _ _
  case ancestors_ne_nil.inr => exact List.append_ne_nil_of_right_ne_nil _ (List.cons_ne_nil _ _)
  case ancestors.inl => exact List.forall_mem_singleton.mpr (hwell.command_names cmd hcmd)
  case ancestors.inr => exact Command.isName_of_mem_path hwell hcmd (List.mem_of_mem_filter hp)

/-- Groups have names that differ in lower case. -/
theorem nodup_lower_groups {protocol : Protocol} (hwell : WellFormed protocol) :
    (protocol.groups.map fun group => Text.lower group.parent).Nodup := by
  have hword : ∀ name ∈ protocol.scopeNames, IsWord name := by
    intro name hname
    rw [Protocol.scopeNames, List.mem_append, List.mem_map, List.mem_map] at hname
    rcases hname with ⟨cmd, hcmd, rfl⟩ | ⟨att, hatt, rfl⟩
    · exact (hwell.command_names cmd hcmd).isWord
    · exact (hwell.attribute_names att (List.mem_of_mem_filter hatt)).isWord
  refine nodup_spelled_groups (List.Nodup.of_map Text.upper ?_)
  rw [List.map_map]
  have hupper := hwell.scopes.upper
  rwa [← List.map_congr_left fun name hname => (hword name hname).upper_lower] at hupper

/-! ## Groups below groups -/

/-- The groups of a command hold the group below each of their complex attributes. -/
theorem Command.below_mem_groups {cmd : Command} {group : Group} (hgroup : group ∈ cmd.groups)
    {att : Attribute} (hatt : att ∈ group.members) (hcomplex : att.isComplex = true) :
    group.below att ∈ cmd.groups := by
  rw [← Group.map_node_own, List.mem_map] at hatt
  obtain ⟨p, hp, rfl⟩ := hatt
  obtain rfl := Group.group_of_mem_placed hp
  refine List.mem_cons_of_mem _ (List.mem_map_of_mem (List.mem_filter.mpr ⟨?_, hcomplex⟩))
  rw [Command.groups, List.mem_cons, List.mem_map] at hgroup
  rcases hgroup with hown | ⟨q, hq, hbelow⟩
  · rw [hown] at hp
    exact (placed_sublist_ofTrees cmd.attributes cmd.group 0).subset hp
  · rw [← hbelow] at hp
    exact (below_sublist_ofTrees cmd.attributes cmd.group 0 q (List.mem_of_mem_filter hq)).subset hp

/-- A group is that of a command, or stands below a complex attribute of another one. -/
theorem mem_groups_iff {protocol : Protocol} (h : Shaped protocol.attributes) {group : Group} :
    group ∈ protocol.groups ↔ (∃ cmd ∈ protocol.carriers, group = cmd.group) ∨
      ∃ parent ∈ protocol.groups, ∃ att ∈ parent.members,
        att.isComplex = true ∧ group = parent.below att := by
  constructor
  · intro hgroup
    rw [Protocol.groups, List.mem_flatMap] at hgroup
    obtain ⟨cmd, hcmd, hgroup⟩ := hgroup
    rw [Command.groups, List.mem_cons, List.mem_map] at hgroup
    rcases hgroup with rfl | ⟨p, hp, rfl⟩
    · exact .inl ⟨cmd, hcmd, rfl⟩
    · obtain ⟨hp, hcomplex⟩ := List.mem_filter.mp hp
      have hposition : p ∈ protocol.positions :=
        List.mem_flatMap.mpr ⟨cmd, List.mem_of_mem_filter hcmd, hp⟩
      obtain ⟨hparent, hmember⟩ := group_of_mem_positions h hposition
      exact .inr ⟨p.group, hparent, p.node, List.mem_of_getElem? hmember, hcomplex, rfl⟩
  · rintro (⟨cmd, hcmd, rfl⟩ | ⟨parent, hparent, att, hatt, hcomplex, rfl⟩)
    · exact List.mem_flatMap.mpr ⟨cmd, hcmd, List.mem_cons_self⟩
    · obtain ⟨cmd, hcmd, hparent⟩ := List.mem_flatMap.mp hparent
      exact List.mem_flatMap.mpr ⟨cmd, hcmd, Command.below_mem_groups hparent hatt hcomplex⟩

/-- Induction from the groups of commands to those below. -/
theorem groups_induction {protocol : Protocol} (h : Shaped protocol.attributes)
    {motive : Group → Prop} (command : ∀ cmd ∈ protocol.carriers, motive cmd.group)
    (below : ∀ group ∈ protocol.groups, ∀ att ∈ group.members, att.isComplex = true →
      motive group → motive (group.below att)) : ∀ group ∈ protocol.groups, motive group := by
  intro group hgroup
  induction hlength : group.ancestors.length using Nat.strongRecOn generalizing group with
  | ind n ih =>
      rcases (mem_groups_iff h).mp hgroup with
        ⟨cmd, hcmd, rfl⟩ | ⟨parent, hparent, att, hatt, hcomplex, rfl⟩
      · exact command cmd hcmd
      · refine below parent hparent att hatt hcomplex (ih _ ?_ parent hparent rfl)
        simp [← hlength, Group.below]

/-! ## Order of definition -/

/-- The groups in the order in which their types and constants are defined: the innermost
first, and those of the commands at the end. -/
def definedGroups (protocol : Protocol) : List Group :=
  ((protocol.positions.filter (·.node.isComplex)).map Position.below).reverse ++
    protocol.carriers.map Command.group

theorem mem_definedGroups {protocol : Protocol} {group : Group} :
    group ∈ definedGroups protocol ↔ group ∈ protocol.groups := by
  simp only [definedGroups, Protocol.groups, Command.groups, Protocol.positions_eq_carriers,
    List.mem_append, List.mem_reverse, List.mem_map, List.mem_filter, List.mem_flatMap,
    List.mem_cons]
  constructor
  · rintro (⟨p, ⟨⟨cmd, hcmd, hp⟩, hcomplex⟩, rfl⟩ | ⟨cmd, hcmd, rfl⟩)
    · exact ⟨cmd, hcmd, .inr ⟨p, ⟨hp, hcomplex⟩, rfl⟩⟩
    · exact ⟨cmd, hcmd, .inl rfl⟩
  · rintro ⟨cmd, hcmd, rfl | ⟨p, ⟨hp, hcomplex⟩, rfl⟩⟩
    · exact .inr ⟨cmd, hcmd, rfl⟩
    · exact .inl ⟨p, ⟨⟨cmd, hcmd, hp⟩, hcomplex⟩, rfl⟩

/-- The defined groups are all groups in another order. -/
theorem definedGroups_perm (protocol : Protocol) :
    (definedGroups protocol).Perm protocol.groups := by
  have hgroups : protocol.groups = protocol.carriers.flatMap fun cmd =>
      [cmd.group] ++ (cmd.positions.filter (·.node.isComplex)).map Position.below := rfl
  have hnested : (protocol.positions.filter (·.node.isComplex)).map Position.below =
      protocol.carriers.flatMap fun cmd =>
        (cmd.positions.filter (·.node.isComplex)).map Position.below := by
    rw [Protocol.positions_eq_carriers, List.filter_flatMap, List.map_flatMap]
  rw [definedGroups, hnested, hgroups]
  refine (List.perm_append_comm.trans ?_)
  refine ((List.reverse_perm _).append_left _).trans ?_
  rw [List.map_eq_flatMap]
  exact List.flatMap_append_perm _ _ _

/-- What is built for each complex attribute and for each command is built for each group. -/
theorem map_entries_eq {α : Type} {protocol : Protocol} (hwell : WellFormed protocol)
    {ofEntry : Entry → α} {ofCommand : Command → α} {build : Group → α}
    (hentry : ∀ p : Position, p.group.ancestors ≠ [] → ofEntry p.entry = build p.below)
    (hcommand : ∀ cmd, ofCommand cmd = build cmd.group) :
    (Prepared.ofProtocol protocol).complexChildrenFirst.map ofEntry ++
        protocol.carriers.map ofCommand = (definedGroups protocol).map build := by
  rw [complexChildrenFirst_eq hwell.children, definedGroups, ← List.map_reverse,
    ← List.map_reverse, List.map_append, List.map_map, List.map_map, List.map_map]
  congr 1
  · refine List.map_congr_left fun p hp => hentry p ?_
    have hmem := List.mem_of_mem_filter (List.mem_reverse.mp hp)
    exact (named_of_mem_groups hwell
      (group_of_mem_positions hwell.children hmem).1).ancestors_ne_nil
  · exact List.map_congr_left fun cmd _ => hcommand cmd

end CommandSet
