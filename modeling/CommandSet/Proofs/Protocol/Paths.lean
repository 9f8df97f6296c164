import CommandSet.Proofs.Protocol.Positions

/-!
# Paths of attributes

The names from a command down to an attribute are its path.  Siblings have distinct names,
also in upper case, so no two attributes of a command share a path.

Main definitions:

- {lit}`Position.path`: the names from the command down to an attribute.
- {lit}`Attribute.DistinctNames`: siblings with distinct names at all depths.
- {lit}`Position.guards`: the optional attributes on the path of an attribute.

Main results:

- Theorem {lit}`Position.exists_member_of_mem_ofTrees`: every path goes through a member of
  the group.
- Theorem {lit}`Position.flatMap_guards_cons`: the first attribute of a forest guards what is
  below it.
- Theorem {lit}`Command.nodup_paths`: the paths of a command are distinct in upper case.
-/

namespace CommandSet

/-- The names from the command down to an attribute. -/
def Position.path (p : Position) : List String :=
  p.group.ancestors ++ [p.node.name]

/-! ## Distinct names -/

/-- The names of the attributes differ in upper case, and so do those below each of them. -/
def Attribute.DistinctNames (atts : List Attribute) : Prop :=
  (atts.map fun att => Text.upper att.name).Nodup ∧
    ∀ att ∈ Attribute.forest atts, (att.children.map fun child => Text.upper child.name).Nodup

theorem Attribute.distinctNames_cons {att : Attribute} {rest : List Attribute} :
    Attribute.DistinctNames (att :: rest) ↔
      Text.upper att.name ∉ rest.map (fun other => Text.upper other.name) ∧
        Attribute.DistinctNames att.children ∧ Attribute.DistinctNames rest := by
  simp only [DistinctNames, List.map_cons, List.nodup_cons, forall_mem_forest_cons]
  tauto

/-- The attributes of a well-formed command have distinct names. -/
theorem WellFormed.distinctNames {protocol : Protocol} (hwell : WellFormed protocol)
    {cmd : Command} (hcmd : cmd ∈ protocol.commands) : Attribute.DistinctNames cmd.attributes := by
  have hsiblings {siblings : List Attribute} (h : siblings ∈ protocol.siblingLists) :
      (siblings.map fun att => Text.upper att.name).Nodup := by
    have hupper := (hwell.siblings siblings h).names.upper
    rwa [List.map_map] at hupper
  refine ⟨hsiblings (List.mem_append_left _ (List.mem_map_of_mem hcmd)), fun att hatt => ?_⟩
  have hmem : att ∈ protocol.attributes := List.mem_flatMap.mpr ⟨cmd, hcmd, hatt⟩
  exact hsiblings (List.mem_append_right _ (List.mem_map_of_mem hmem))

/-! ## Distinct paths -/

namespace Position

/-- Every path goes through a member of the group. -/
theorem exists_member_of_mem_ofTrees (atts : List Attribute) : ∀ (group : Group) (index : Nat),
    ∀ p ∈ ofTrees group index atts, ∃ att ∈ atts, group.ancestors ++ [att.name] <+: p.path := by
  induction atts using Attribute.forest_induction with
  | nil =>
      intro group index p hp
      cases hp
  | cons att rest ihbelow ihrest =>
      intro group index
      rw [forall_mem_ofTrees_cons]
      refine ⟨⟨att, List.mem_cons_self, List.prefix_rfl⟩, fun p hp => ?_, fun p hp => ?_⟩
      · obtain ⟨child, -, hlead⟩ := ihbelow (group.below att) 0 p hp
        exact ⟨att, List.mem_cons_self, (List.prefix_append _ _).trans hlead⟩
      · obtain ⟨other, hother, hlead⟩ := ihrest group (index + 1) p hp
        exact ⟨other, List.mem_cons_of_mem _ hother, hlead⟩

/-- What holds of the names above a group and of those in it holds of all names on a path. -/
theorem forall_mem_path {P : String → Prop} (atts : List Attribute) :
    ∀ (group : Group) (index : Nat), (∀ name ∈ group.ancestors, P name) →
      (∀ att ∈ Attribute.forest atts, P att.name) →
        ∀ p ∈ ofTrees group index atts, ∀ name ∈ p.path, P name := by
  induction atts using Attribute.forest_induction with
  | nil =>
      intro group index _ _ p hp
      cases hp
  | cons att rest ihbelow ihrest =>
      intro group index hgroup hnames
      obtain ⟨hatt, hbelow, hrest⟩ := Attribute.forall_mem_forest_cons.mp hnames
      have hpath : ∀ name ∈ group.ancestors ++ [att.name], P name :=
        List.forall_mem_append.mpr ⟨hgroup, List.forall_mem_singleton.mpr hatt⟩
      rw [forall_mem_ofTrees_cons]
      exact ⟨hpath, ihbelow (group.below att) 0 hpath hbelow, ihrest group (index + 1) hgroup hrest⟩

/-- Paths through a member hold its name at the depth of the group. -/
private theorem getElem?_path {ancestors path : List String} {name : String}
    (h : ancestors ++ [name] <+: path) : path[ancestors.length]? = some name := by
  obtain ⟨rest, rfl⟩ := h
  simp

/-- The paths of a forest with distinct names are distinct in upper case. -/
theorem nodup_paths_ofTrees (atts : List Attribute) : ∀ (group : Group) (index : Nat),
    Attribute.DistinctNames atts →
      ((ofTrees group index atts).map fun p => p.path.map Text.upper).Nodup := by
  induction atts using Attribute.forest_induction with
  | nil =>
      intro group index _
      exact List.nodup_nil
  | cons att rest ihbelow ihrest =>
      intro group index hnames
      obtain ⟨hatt, hbelow, hrest⟩ := Attribute.distinctNames_cons.mp hnames
      have hdeeper : ∀ p ∈ ofTrees (group.below att) 0 att.children,
          group.ancestors ++ [att.name] <+: p.path ∧
            group.ancestors.length + 1 < p.path.length := by
        intro p hp
        obtain ⟨child, -, hlead⟩ := exists_member_of_mem_ofTrees _ _ _ p hp
        refine ⟨(List.prefix_append _ _).trans hlead, ?_⟩
        have hlength := hlead.length_le
        simp only [Group.below, List.length_append, List.length_singleton] at hlength
        omega
      -- The paths of the rest part from those of the first tree at the name of the member.
      have hapart : ∀ p q : Position, group.ancestors ++ [att.name] <+: p.path →
          q ∈ ofTrees group (index + 1) rest →
            p.path.map Text.upper ≠ q.path.map Text.upper := by
        intro p q hp hq heq
        obtain ⟨other, hother, hlead⟩ := exists_member_of_mem_ofTrees _ _ _ q hq
        have hname := congrArg (·[group.ancestors.length]?) heq
        simp only [List.getElem?_map, getElem?_path hp, getElem?_path hlead, Option.map_some,
          Option.some.injEq] at hname
        exact hatt (List.mem_map.mpr ⟨other, hother, hname.symm⟩)
      rw [ofTrees_cons, List.map_cons, List.map_append, List.nodup_cons, List.nodup_append]
      refine ⟨?_, ihbelow _ 0 hbelow, ihrest group (index + 1) hrest, ?_⟩
      · rw [List.mem_append, List.mem_map, List.mem_map]
        rintro (⟨p, hp, heq⟩ | ⟨q, hq, heq⟩)
        · have hlength := congrArg List.length heq
          have hlt := (hdeeper p hp).2
          simp only [List.length_map, path, List.length_append, List.length_singleton]
            at hlength hlt
          omega
        · exact hapart ⟨group, index, att⟩ q List.prefix_rfl hq heq.symm
      · simp only [List.forall_mem_map]
        exact fun p hp q hq => hapart p q (hdeeper p hp).1 hq

/-! ## Optional attributes on a path -/

/-- The optional ones among positions that lie on the way to a position, itself included. -/
def guards (positions : List Position) (p : Position) : List Position :=
  positions.filter fun q => q.node.optional && q.path.isPrefixOf p.path

theorem guards_append (first second : List Position) (p : Position) :
    guards (first ++ second) p = guards first p ++ guards second p :=
  List.filter_append _ _

/-- Positions that are not on the way do not guard it. -/
theorem guards_eq_nil {positions : List Position} {p : Position}
    (h : ∀ q ∈ positions, ¬q.path <+: p.path) : guards positions p = [] := by
  refine List.filter_eq_nil_iff.mpr fun q hq hguard => h q hq ?_
  exact List.isPrefixOf_iff_prefix.mp (Bool.and_eq_true_iff.mp hguard).2

/-- Paths through different members of a group part. -/
theorem not_prefix_of_members {ancestors : List String} {name other : String} (hne : name ≠ other)
    {p q : Position} (hp : ancestors ++ [name] <+: p.path) (hq : ancestors ++ [other] <+: q.path) :
    ¬q.path <+: p.path := by
  intro h
  have hname := getElem?_path (hq.trans h)
  rw [getElem?_path hp, Option.some.injEq] at hname
  exact hne hname

/-- An optional attribute guards itself. -/
def ownGuard (p : Position) : List Position :=
  if p.node.optional then [p] else []

section Forest

variable {group : Group} {index : Nat} {att : Attribute} {rest : List Attribute}

theorem guards_singleton {p q : Position} (h : q.path <+: p.path) : guards [q] p = q.ownGuard := by
  rw [guards, List.filter_singleton, List.isPrefixOf_iff_prefix.mpr h, Bool.and_true, ownGuard]
  cases q.node.optional <;> rfl

theorem guards_ofTrees_cons (p : Position) : guards (ofTrees group index (att :: rest)) p =
    guards [⟨group, index, att⟩] p ++ (guards (ofTrees (group.below att) 0 att.children) p ++
      guards (ofTrees group (index + 1) rest) p) := by
  rw [ofTrees_cons, ← List.singleton_append, guards_append, guards_append]

/-- No attribute guards those above it. -/
theorem guards_below_self :
    guards (ofTrees (group.below att) 0 att.children) ⟨group, index, att⟩ = [] := by
  refine guards_eq_nil fun q hq h => ?_
  obtain ⟨child, -, hlead⟩ := exists_member_of_mem_ofTrees _ _ _ q hq
  have hlength := (hlead.trans h).length_le
  simp [Group.below, path] at hlength

/-- Attributes below different members of a group do not guard each other. -/
theorem guards_apart {others : List Attribute} {p : Position} {name : String}
    (hp : group.ancestors ++ [name] <+: p.path) (hne : ∀ other ∈ others, name ≠ other.name) :
    guards (ofTrees group index others) p = [] := by
  refine guards_eq_nil fun q hq => ?_
  obtain ⟨other, hother, hlead⟩ := exists_member_of_mem_ofTrees _ _ _ q hq
  exact not_prefix_of_members (hne other hother) hp hlead

/-- The first attribute of a forest guards itself and those below it.  Whatever else guards an
attribute lies in the same tree. -/
theorem flatMap_guards_cons {α : Type} (hnames : Attribute.DistinctNames (att :: rest))
    (f : Position → List Position → List α) :
    (ofTrees group index (att :: rest)).flatMap
        (fun p => f p (guards (ofTrees group index (att :: rest)) p)) =
      f ⟨group, index, att⟩ (ownGuard ⟨group, index, att⟩) ++
        ((ofTrees (group.below att) 0 att.children).flatMap (fun p =>
            f p (ownGuard ⟨group, index, att⟩ ++
              guards (ofTrees (group.below att) 0 att.children) p)) ++
          (ofTrees group (index + 1) rest).flatMap fun p =>
            f p (guards (ofTrees group (index + 1) rest) p)) := by
  obtain ⟨hatt, -, -⟩ := Attribute.distinctNames_cons.mp hnames
  have hne : ∀ other ∈ rest, att.name ≠ other.name := fun other hother heq =>
    hatt (List.mem_map.mpr ⟨other, hother, congrArg Text.upper heq.symm⟩)
  have hself : group.ancestors ++ [att.name] <+: path ⟨group, index, att⟩ := List.prefix_rfl
  have hthrough : ∀ p ∈ ofTrees (group.below att) 0 att.children,
      group.ancestors ++ [att.name] <+: p.path := fun p hp => by
    obtain ⟨child, -, hlead⟩ := exists_member_of_mem_ofTrees _ _ _ p hp
    exact (List.prefix_append _ _).trans hlead
  simp only [guards_ofTrees_cons]
  rw [ofTrees_cons, List.flatMap_cons, List.flatMap_append]
  refine congrArg₂ (· ++ ·) ?first (congrArg₂ (· ++ ·) (List.flatMap_congr ?below)
    (List.flatMap_congr ?others))
  case first =>
    rw [guards_singleton List.prefix_rfl, guards_below_self, guards_apart hself hne,
      List.append_nil, List.append_nil]
  case below =>
    intro p hp
    rw [@guards_singleton p ⟨group, index, att⟩ (hthrough p hp), guards_apart (hthrough p hp) hne,
      List.append_nil]
  case others =>
    intro p hp
    obtain ⟨other, hother, hlead⟩ := exists_member_of_mem_ofTrees _ _ _ p hp
    have hpart {q : Position} (hq : group.ancestors ++ [att.name] <+: q.path) :
        ¬q.path <+: p.path := not_prefix_of_members (hne other hother).symm hlead hq
    rw [guards_eq_nil (List.forall_mem_singleton.mpr (hpart hself)),
      guards_eq_nil fun q hq => hpart (hthrough q hq), List.nil_append, List.nil_append]

end Forest

end Position

/-- The way to an attribute starts at its command. -/
theorem Command.exists_ancestors {cmd : Command} {p : Position} (hp : p ∈ cmd.positions) :
    ∃ rest, p.group.ancestors = cmd.name :: rest := by
  obtain ⟨att, -, rest, hpath⟩ :=
    Position.exists_member_of_mem_ofTrees cmd.attributes cmd.group 0 p hp
  have hnames : cmd.name :: att.name :: rest = p.group.ancestors ++ [p.node.name] := hpath
  refine ⟨(att.name :: rest).dropLast, ?_⟩
  rw [← List.dropLast_cons_of_ne_nil (List.cons_ne_nil _ _), hnames, List.dropLast_concat]

/-- The names on a path are names. -/
theorem Command.isName_of_mem_path {protocol : Protocol} (hwell : WellFormed protocol)
    {cmd : Command} (hcmd : cmd ∈ protocol.commands) {p : Position} (hp : p ∈ cmd.positions) :
    ∀ name ∈ p.path, IsName name :=
  Position.forall_mem_path cmd.attributes cmd.group 0
    (List.forall_mem_singleton.mpr (hwell.command_names cmd hcmd))
    (fun att hatt => hwell.attribute_names att (List.mem_flatMap.mpr ⟨cmd, hcmd, hatt⟩)) p hp

/-- The paths of a command are distinct in upper case. -/
theorem Command.nodup_paths {protocol : Protocol} (hwell : WellFormed protocol) {cmd : Command}
    (hcmd : cmd ∈ protocol.commands) :
    (cmd.positions.map fun p => p.path.map Text.upper).Nodup :=
  Position.nodup_paths_ofTrees cmd.attributes cmd.group 0 (hwell.distinctNames hcmd)

end CommandSet
