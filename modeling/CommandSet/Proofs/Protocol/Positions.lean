import CommandSet.Proofs.Protocol.Validation
import Mathlib.Data.List.Flatten
import Mathlib.Data.List.Perm.Basic

/-!
# Positions of attributes

Every attribute of a protocol stands in a group: the attributes of a command, or the
sub-attributes of a complex attribute.  The positions of a protocol are listed in the order
in which generated functions visit them, each before those below it.

Main definitions:

- {lit}`Group`, {lit}`Position`: attributes under one parent, and one of them.
- {lit}`Command.positions`, {lit}`Protocol.positions`: all attributes with their places.
- {lit}`Protocol.groups`: the groups with attributes.

Main results:

- Theorem {lit}`flatten_eq_positions`: the flat list of a shaped protocol holds every
  position once, in order.
- Theorem {lit}`positions_perm_groups`: every position is one of exactly one group.
- Theorem {lit}`filter_positions_eq_own`: where the parents' names are distinct, a parent's
  name picks the attributes of its group in their order.
-/

namespace CommandSet

/-! ## Induction on attribute forests -/

/-- What holds of no attributes, and of attributes once it holds below the first and of the
rest, holds of every forest. -/
@[elab_as_elim]
theorem Attribute.forest_induction {motive : List Attribute → Prop} (nil : motive [])
    (cons : ∀ att rest, motive att.children → motive rest → motive (att :: rest)) :
    (atts : List Attribute) → motive atts
  | [] => nil
  | ⟨name, id, optional, dataType, children, description⟩ :: rest =>
      cons ⟨name, id, optional, dataType, children, description⟩ rest
        (forest_induction nil cons children) (forest_induction nil cons rest)
termination_by atts => sizeOf atts

/-- The attributes of a forest are the first, those below it and those of the rest. -/
theorem Attribute.forall_mem_forest_cons {att : Attribute} {rest : List Attribute}
    {P : Attribute → Prop} : (∀ a ∈ Attribute.forest (att :: rest), P a) ↔
      P att ∧ (∀ a ∈ Attribute.forest att.children, P a) ∧ ∀ a ∈ Attribute.forest rest, P a := by
  rw [Attribute.forest, Attribute.subtree_eq, List.cons_append, List.forall_mem_cons,
    List.forall_mem_append]

theorem Attribute.treeSize_eq (att : Attribute) :
    att.treeSize = 1 + Attribute.forestSize att.children := by
  cases att
  rw [Attribute.treeSize]

/-! ## Groups and positions -/

/-- The attributes under one parent, with the chain of names from the command down to it. -/
structure Group where
  ancestors : List String
  members : List Attribute

/-- An attribute with its group and its place in it. -/
structure Position where
  group : Group
  index : Nat
  node : Attribute

namespace Group

/-- The name of the command or attribute that holds a group. -/
def parent (group : Group) : String :=
  group.ancestors.getLastD ""

/-- The group of the sub-attributes of a member. -/
def below (group : Group) (att : Attribute) : Group :=
  ⟨group.ancestors ++ [att.name], att.children⟩

@[simp]
theorem parent_below (group : Group) (att : Attribute) : (group.below att).parent = att.name := by
  simp [parent, below, List.getLastD_eq_getLast?]

/-- The positions of attributes of a group, the first of which stands at {lit}`index`. -/
def placed (group : Group) (index : Nat) (atts : List Attribute) : List Position :=
  (atts.zipIdx index).map fun member => ⟨group, member.2, member.1⟩

/-- The positions of a group. -/
def own (group : Group) : List Position :=
  group.placed 0 group.members

@[simp]
theorem placed_nil (group : Group) (index : Nat) : group.placed index [] = [] :=
  rfl

@[simp]
theorem placed_cons (group : Group) (index : Nat) (att : Attribute) (rest : List Attribute) :
    group.placed index (att :: rest) = ⟨group, index, att⟩ :: group.placed (index + 1) rest := by
  simp [placed, List.zipIdx_cons]

/-- The positions of a group stand in it. -/
theorem group_of_mem_placed {group : Group} {index : Nat} {atts : List Attribute} {p : Position}
    (h : p ∈ group.placed index atts) : p.group = group := by
  rw [placed, List.mem_map] at h
  rcases h with ⟨member, -, rfl⟩
  rfl

theorem map_node_own (group : Group) : group.own.map (·.node) = group.members := by
  rw [own, placed, List.map_map]
  exact List.zipIdx_map_fst 0 group.members

theorem length_own (group : Group) : group.own.length = group.members.length := by
  rw [← map_node_own, List.length_map]

end Group

namespace Position

/-- The group of the sub-attributes of an attribute. -/
def below (p : Position) : Group :=
  p.group.below p.node

mutual

/-- An attribute and all attributes below it. -/
def ofTree (group : Group) (index : Nat) : Attribute → List Position
  | att@⟨_, _, _, _, children, _⟩ =>
      ⟨group, index, att⟩ :: ofTrees (group.below att) 0 children

/-- Attributes of a group and all attributes below them, the first of which stands at
{lit}`index`. -/
def ofTrees (group : Group) (index : Nat) : List Attribute → List Position
  | [] => []
  | att :: rest => ofTree group index att ++ ofTrees group (index + 1) rest

end

theorem ofTree_eq (group : Group) (index : Nat) (att : Attribute) :
    ofTree group index att = ⟨group, index, att⟩ :: ofTrees (group.below att) 0 att.children := by
  cases att
  rw [ofTree]

theorem ofTrees_cons (group : Group) (index : Nat) (att : Attribute) (rest : List Attribute) :
    ofTrees group index (att :: rest) = ⟨group, index, att⟩ ::
      (ofTrees (group.below att) 0 att.children ++ ofTrees group (index + 1) rest) := by
  rw [ofTrees, ofTree_eq, List.cons_append]

/-- The positions of a forest are that of the first attribute, those below it and those of the
rest. -/
theorem forall_mem_ofTrees_cons {group : Group} {index : Nat} {att : Attribute}
    {rest : List Attribute} {P : Position → Prop} :
    (∀ p ∈ ofTrees group index (att :: rest), P p) ↔
      P ⟨group, index, att⟩ ∧ (∀ p ∈ ofTrees (group.below att) 0 att.children, P p) ∧
        ∀ p ∈ ofTrees group (index + 1) rest, P p := by
  rw [ofTrees_cons, List.forall_mem_cons, List.forall_mem_append]

/-- The attributes of a list of positions, in the order of a forest. -/
theorem map_node_ofTrees (atts : List Attribute) : ∀ group index,
    (ofTrees group index atts).map (·.node) = Attribute.forest atts := by
  induction atts using Attribute.forest_induction with
  | nil =>
      intro group index
      rfl
  | cons att rest ihbelow ihrest =>
      intro group index
      rw [ofTrees_cons, Attribute.forest, Attribute.subtree_eq, List.map_cons, List.map_append,
        ihbelow, ihrest]
      rfl

end Position

/-- The attributes of a command. -/
def Command.group (cmd : Command) : Group :=
  ⟨[cmd.name], cmd.attributes⟩

/-- The attributes of a command at all depths, each before those below it. -/
def Command.positions (cmd : Command) : List Position :=
  Position.ofTrees cmd.group 0 cmd.attributes

/-- The groups of a command, its own first. -/
def Command.groups (cmd : Command) : List Group :=
  cmd.group :: (cmd.positions.filter (·.node.isComplex)).map Position.below

namespace Protocol

/-- The attributes of all commands at all depths. -/
def positions (protocol : Protocol) : List Position :=
  protocol.commands.flatMap Command.positions

/-- The groups with attributes: one for each command that carries any, one for each complex
attribute. -/
def groups (protocol : Protocol) : List Group :=
  protocol.carriers.flatMap Command.groups

end Protocol

@[simp]
theorem Command.parent_group (cmd : Command) : cmd.group.parent = cmd.name :=
  rfl

@[simp]
theorem Position.parent_below (p : Position) : p.below.parent = p.node.name :=
  Group.parent_below p.group p.node

theorem map_node_positions (protocol : Protocol) :
    protocol.positions.map (·.node) = protocol.attributes := by
  rw [Protocol.positions, Protocol.attributes, List.map_flatMap]
  exact List.flatMap_congr fun cmd _ => Position.map_node_ofTrees cmd.attributes cmd.group 0

/-! ## Positions and the flat list -/

/-- A position as the flat list has it. -/
def Position.entry (p : Position) : Entry :=
  ⟨p.group.ancestors, p.index, p.node⟩

@[simp]
theorem Position.parent_entry (p : Position) : p.entry.parent = p.group.parent :=
  rfl

/-- The flat list of a shaped forest holds every position. -/
theorem ofTrees_eq_positions (atts : List Attribute) : ∀ (group : Group) (index : Nat),
    Shaped (Attribute.forest atts) → Entry.ofTrees group.ancestors index atts =
      (Position.ofTrees group index atts).map Position.entry := by
  induction atts using Attribute.forest_induction with
  | nil =>
      intro group index _
      rfl
  | cons att rest ihbelow ihrest =>
      intro group index hshaped
      rcases Attribute.forall_mem_forest_cons.mp hshaped with ⟨hroot, hbelow, hrest⟩
      rw [Position.ofTrees_cons, List.map_cons, List.map_append, ← ihrest group (index + 1) hrest,
        ← ihbelow (group.below att) 0 hbelow, Entry.ofTrees]
      obtain ⟨name, id, optional, dataType, children, description⟩ := att
      rw [Entry.ofTree, hasSubAttributes_eq_isComplex hroot]
      split
      next => rfl
      next hsimple =>
        have hleaf : children = [] := children_eq_nil hroot hsimple
        subst hleaf
        rfl

/-- The flat list of a shaped protocol holds every position once, in order. -/
theorem flatten_eq_positions {protocol : Protocol} (h : Shaped protocol.attributes) :
    flatten protocol.commands = protocol.positions.map Position.entry := by
  rw [flatten, Protocol.positions, List.map_flatMap]
  refine List.flatMap_congr fun cmd hcmd => ?_
  exact ofTrees_eq_positions cmd.attributes cmd.group 0 fun att hatt =>
    h att (List.mem_flatMap.mpr ⟨cmd, hcmd, hatt⟩)

/-- The complex attributes, those below an attribute before it. -/
theorem complexChildrenFirst_eq {protocol : Protocol} (h : Shaped protocol.attributes) :
    (Prepared.ofProtocol protocol).complexChildrenFirst =
      ((protocol.positions.filter (·.node.isComplex)).map Position.entry).reverse := by
  have hfilter : (flatten protocol.commands).filter (·.node.hasSubAttributes) =
      (protocol.positions.filter (·.node.isComplex)).map Position.entry := by
    rw [flatten_eq_positions h, List.filter_map]
    refine congrArg (List.map Position.entry) (List.filter_congr fun p hp => ?_)
    have hnode : p.node ∈ protocol.attributes := by
      rw [← map_node_positions]
      exact List.mem_map_of_mem hp
    exact hasSubAttributes_eq_isComplex (h p.node hnode)
  rw [← hfilter, ← List.filter_reverse, Prepared.complexChildrenFirst]
  split
  next => rfl
  next hnesting =>
    -- without nesting the filter finds nothing either
    have hnone : ∀ entry ∈ flatten protocol.commands, entry.node.hasSubAttributes = false := by
      simpa [Prepared.ofProtocol, anySubAttributes] using hnesting
    symm
    rw [List.filter_eq_nil_iff]
    intro entry hentry
    rw [hnone entry (List.mem_reverse.mp hentry)]
    exact Bool.false_ne_true

/-! ## Positions and their groups -/

/-- The positions of a forest are those of its group and of the groups below it. -/
theorem ofTrees_perm_groups (atts : List Attribute) : ∀ (group : Group) (index : Nat),
    Shaped (Attribute.forest atts) → (Position.ofTrees group index atts).Perm
      (group.placed index atts ++ ((Position.ofTrees group index atts).filter
        (·.node.isComplex)).flatMap fun p => p.below.own) := by
  induction atts using Attribute.forest_induction with
  | nil =>
      intro group index _
      exact List.Perm.refl _
  | cons att rest ihbelow ihrest =>
      intro group index hshaped
      rcases Attribute.forall_mem_forest_cons.mp hshaped with ⟨hroot, hbelow, hrest⟩
      have ihbelow := ihbelow (group.below att) 0 hbelow
      have ihrest := ihrest group (index + 1) hrest
      rw [Position.ofTrees_cons, Group.placed_cons, List.cons_append, List.filter_cons,
        List.filter_append]
      refine List.Perm.cons _ ?_
      split
      next =>
        rw [List.flatMap_cons, List.flatMap_append]
        refine (ihbelow.append ihrest).trans ?_
        -- the two groups change places with what is below the first attribute
        refine List.perm_append_comm_assoc _ _ _ |>.trans ?_
        refine List.Perm.append_left _ ?_
        rw [← List.append_assoc]
        exact List.Perm.refl _
      next hsimple =>
        have hleaf : att.children = [] := children_eq_nil hroot hsimple
        rw [hleaf]
        exact ihrest

/-- The positions of a command's groups, one group after the other. -/
theorem Command.positions_perm_groups {cmd : Command}
    (h : Shaped (Attribute.forest cmd.attributes)) :
    cmd.positions.Perm (cmd.groups.flatMap Group.own) := by
  rw [Command.groups, List.flatMap_cons, List.flatMap_map]
  exact ofTrees_perm_groups cmd.attributes cmd.group 0 h

/-- The attributes of a command are those of its groups. -/
theorem Command.forest_perm_groups {cmd : Command}
    (h : Shaped (Attribute.forest cmd.attributes)) :
    (Attribute.forest cmd.attributes).Perm (cmd.groups.flatMap Group.members) := by
  have hperm := (Command.positions_perm_groups h).map (·.node)
  rw [List.map_flatMap, Command.positions, Position.map_node_ofTrees] at hperm
  simpa only [Group.map_node_own] using hperm

/-- Commands without attributes hold no position. -/
theorem Protocol.positions_eq_carriers (protocol : Protocol) :
    protocol.positions = protocol.carriers.flatMap Command.positions := by
  rw [Protocol.positions, Protocol.carriers]
  induction protocol.commands with
  | nil => rfl
  | cons cmd rest ih =>
      rw [List.flatMap_cons, List.filter_cons, ih]
      split
      next => rfl
      next hnone =>
        have hempty : cmd.attributes = [] := by
          simpa [Command.hasAttributes] using hnone
        rw [Command.positions, hempty]
        rfl

/-- Every position is one of exactly one group. -/
theorem positions_perm_groups {protocol : Protocol} (h : Shaped protocol.attributes) :
    protocol.positions.Perm (protocol.groups.flatMap Group.own) := by
  rw [Protocol.positions_eq_carriers, Protocol.groups, List.flatMap_assoc]
  refine List.Perm.flatMap_left _ fun cmd hcmd => Command.positions_perm_groups ?_
  exact forall_attributes_iff.mp h cmd (List.mem_of_mem_filter hcmd)

/-- The group of a position is one of the protocol's, and holds the attribute at its index. -/
theorem group_of_mem_positions {protocol : Protocol} (h : Shaped protocol.attributes)
    {p : Position} (hp : p ∈ protocol.positions) :
    p.group ∈ protocol.groups ∧ p.group.members[p.index]? = some p.node := by
  rw [(positions_perm_groups h).mem_iff, List.mem_flatMap] at hp
  rcases hp with ⟨group, hgroup, hp⟩
  obtain rfl := Group.group_of_mem_placed hp
  refine ⟨hgroup, ?_⟩
  rw [Group.own, Group.placed, List.mem_map] at hp
  rcases hp with ⟨member, hmember, heq⟩
  rw [← heq]
  exact List.mem_zipIdx_iff_getElem?.mp hmember

/-- The members of a group are attributes of the protocol. -/
theorem mem_attributes_of_mem_members {protocol : Protocol} (h : Shaped protocol.attributes)
    {group : Group} (hgroup : group ∈ protocol.groups) {att : Attribute}
    (hatt : att ∈ group.members) : att ∈ protocol.attributes := by
  rw [← Group.map_node_own, List.mem_map] at hatt
  rcases hatt with ⟨p, hp, rfl⟩
  rw [← map_node_positions]
  refine List.mem_map_of_mem ((positions_perm_groups h).mem_iff.mpr ?_)
  exact List.mem_flatMap.mpr ⟨group, hgroup, hp⟩

/-- The group of a command that carries attributes is one of the protocol's. -/
theorem group_mem_groups {protocol : Protocol} {cmd : Command} (h : cmd ∈ protocol.carriers) :
    cmd.group ∈ protocol.groups :=
  List.mem_flatMap.mpr ⟨cmd, h, List.mem_cons_self⟩

/-- The group below a complex attribute is one of the protocol's. -/
theorem below_mem_groups {protocol : Protocol} {p : Position} (hp : p ∈ protocol.positions)
    (hcomplex : p.node.isComplex = true) : p.below ∈ protocol.groups := by
  rw [Protocol.positions_eq_carriers, List.mem_flatMap] at hp
  rcases hp with ⟨cmd, hcmd, hp⟩
  refine List.mem_flatMap.mpr ⟨cmd, hcmd, List.mem_cons_of_mem _ (List.mem_map_of_mem ?_)⟩
  exact List.mem_filter.mpr ⟨hp, hcomplex⟩

/-! ## The order within a group -/

theorem placed_sublist_ofTrees (atts : List Attribute) (group : Group) (index : Nat) :
    (group.placed index atts).Sublist (Position.ofTrees group index atts) := by
  induction atts generalizing index with
  | nil => exact List.Sublist.refl _
  | cons att rest ih =>
      rw [Group.placed_cons, Position.ofTrees_cons]
      exact ((ih (index + 1)).trans (List.sublist_append_right _ _)).cons_cons _

/-- The groups below a forest keep their order in the list of all positions. -/
theorem below_sublist_ofTrees (atts : List Attribute) : ∀ (group : Group) (index : Nat),
    ∀ p ∈ Position.ofTrees group index atts,
      p.below.own.Sublist (Position.ofTrees group index atts) := by
  induction atts using Attribute.forest_induction with
  | nil =>
      intro group index p hp
      cases hp
  | cons att rest ihbelow ihrest =>
      intro group index p hp
      rw [Position.ofTrees_cons, List.mem_cons, List.mem_append] at hp
      rw [Position.ofTrees_cons]
      refine List.Sublist.cons _ ?_
      rcases hp with rfl | hp | hp
      · exact (placed_sublist_ofTrees att.children (group.below att) 0).trans
          (List.sublist_append_left _ _)
      · exact (ihbelow (group.below att) 0 p hp).trans (List.sublist_append_left _ _)
      · exact (ihrest group (index + 1) p hp).trans (List.sublist_append_right _ _)

/-- Every group keeps its order in the list of all positions. -/
theorem own_sublist_positions {protocol : Protocol} {group : Group}
    (h : group ∈ protocol.groups) : group.own.Sublist protocol.positions := by
  rw [Protocol.groups, List.mem_flatMap] at h
  rcases h with ⟨cmd, hcmd, hgroup⟩
  have hcommand : cmd.positions.Sublist protocol.positions :=
    List.sublist_flatten_of_mem (List.mem_map_of_mem (List.mem_of_mem_filter hcmd))
  refine List.Sublist.trans ?_ hcommand
  rw [Command.groups, List.mem_cons, List.mem_map] at hgroup
  rcases hgroup with rfl | ⟨p, hp, rfl⟩
  · exact placed_sublist_ofTrees cmd.attributes cmd.group 0
  · exact below_sublist_ofTrees cmd.attributes cmd.group 0 p (List.mem_of_mem_filter hp)

/-! ## Names of groups -/

/-- Where keys are distinct, the key of an element picks it alone. -/
theorem filter_key_eq_singleton {α β : Type} [DecidableEq β] {key : α → β} {l : List α}
    (hnodup : (l.map key).Nodup) {a : α} (ha : a ∈ l) :
    l.filter (fun b => key b == key a) = [a] := by
  induction l with
  | nil => cases ha
  | cons b l ih =>
      rw [List.map_cons, List.nodup_cons] at hnodup
      rcases List.mem_cons.mp ha with rfl | ha
      · have hnone : l.filter (fun b => key b == key a) = [] := by
          rw [List.filter_eq_nil_iff]
          intro b hb heq
          exact hnodup.1 (beq_iff_eq.mp heq ▸ List.mem_map_of_mem hb)
        simp [hnone]
      · have hne : ¬key b = key a := fun heq => hnodup.1 (heq ▸ List.mem_map_of_mem ha)
        simp [hne, ih hnodup.2 ha]

/-- The same in another order. -/
theorem filter_key_of_perm {α β : Type} [DecidableEq β] {key : α → β} {l other : List α}
    (hperm : l.Perm other) (hnodup : (other.map key).Nodup) {a : α} (ha : a ∈ other) :
    l.filter (fun b => key b == key a) = [a] :=
  filter_key_eq_singleton ((hperm.map key).nodup_iff.mpr hnodup) (hperm.mem_iff.mpr ha)

/-- The names of a command's groups are its own and those of its complex attributes. -/
theorem Command.map_parent_groups (cmd : Command) :
    cmd.groups.map Group.parent =
      cmd.name :: ((Attribute.forest cmd.attributes).filter (·.isComplex)).map (·.name) := by
  rw [Command.groups, List.map_cons, List.map_map, Command.parent_group,
    ← Position.map_node_ofTrees cmd.attributes cmd.group 0, List.filter_map, List.map_map]
  refine congrArg (cmd.name :: ·) (List.map_congr_left fun p _ => ?_)
  exact Position.parent_below p

/-- The names of groups are names of scopes, none of them twice. -/
theorem map_parent_groups_subperm (protocol : Protocol) :
    (protocol.groups.map Group.parent).Subperm protocol.scopeNames := by
  have hall : ((protocol.commands.flatMap Command.groups).map Group.parent).Perm
      protocol.scopeNames := by
    rw [List.map_flatMap, Protocol.scopeNames, Protocol.attributes, List.filter_flatMap,
      List.map_flatMap]
    simp only [Command.map_parent_groups]
    rw [← List.flatMap_singleton' (protocol.commands.map (·.name)), List.flatMap_map]
    exact (List.flatMap_append_perm protocol.commands (fun cmd => [cmd.name]) _).symm
  have hsub : (protocol.groups.map Group.parent).Sublist
      ((protocol.commands.flatMap Command.groups).map Group.parent) :=
    ((List.filter_sublist.map Command.groups).flatten).map Group.parent
  exact hsub.subperm.trans hall.subperm

/-- In a spelling that keeps the names of scopes apart, the names of groups are distinct. -/
theorem nodup_spelled_groups {protocol : Protocol} {spelling : String → String}
    (h : (protocol.scopeNames.map spelling).Nodup) :
    (protocol.groups.map fun group => spelling group.parent).Nodup := by
  rcases map_parent_groups_subperm protocol with ⟨names, hperm, hsublist⟩
  have hnames := (hperm.map spelling).nodup_iff.mp (h.sublist (hsublist.map spelling))
  rwa [List.map_map] at hnames

/-- Names of scopes that are spelled apart are distinct. -/
theorem nodup_parents {protocol : Protocol} (h : DistinctSpellings protocol.scopeNames) :
    (protocol.groups.map Group.parent).Nodup := by
  have hnames : (protocol.scopeNames.map id).Nodup := by
    rw [List.map_id]
    exact List.Nodup.of_map _ h.upper
  exact nodup_spelled_groups hnames

/-- Where the parents' names are distinct, a parent's name picks the attributes of its group
in their order. -/
theorem filter_positions_eq_own {protocol : Protocol} (hshaped : Shaped protocol.attributes)
    (hnodup : (protocol.groups.map Group.parent).Nodup) {group : Group}
    (hgroup : group ∈ protocol.groups) :
    protocol.positions.filter (fun p => p.group.parent == group.parent) = group.own := by
  have hown : ∀ other : Group, other.own.filter (fun p => p.group.parent == group.parent) =
      if other.parent == group.parent then other.own else [] := by
    intro other
    split
    next heq =>
      refine List.filter_eq_self.mpr fun p hp => ?_
      rwa [Group.group_of_mem_placed hp]
    next hne =>
      refine List.filter_eq_nil_iff.mpr fun p hp => ?_
      rwa [Group.group_of_mem_placed hp]
  have hfiltered : ∀ groups : List Group,
      (groups.flatMap Group.own).filter (fun p => p.group.parent == group.parent) =
        (groups.filter fun other => other.parent == group.parent).flatMap Group.own := by
    intro groups
    induction groups with
    | nil => rfl
    | cons other rest ih =>
        rw [List.flatMap_cons, List.filter_append, List.filter_cons, ih, hown]
        split <;> rfl
  have hpicked : (protocol.groups.flatMap Group.own).filter
      (fun p => p.group.parent == group.parent) = group.own := by
    rw [hfiltered, filter_key_eq_singleton hnodup hgroup, List.flatMap_singleton]
  -- the group is a sublist of what its name picks, and no shorter
  have hsub := (own_sublist_positions hgroup).filter fun p => p.group.parent == group.parent
  have hself := hown group
  rw [beq_self_eq_true, if_pos rfl] at hself
  rw [hself] at hsub
  have hlength := ((positions_perm_groups hshaped).filter
    fun p => p.group.parent == group.parent).length_eq
  rw [hpicked] at hlength
  exact (hsub.eq_of_length hlength.symm).symm

end CommandSet
