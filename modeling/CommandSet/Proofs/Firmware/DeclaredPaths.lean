import CommandSet.Proofs.Firmware.Declarations
import CommandSet.Proofs.Firmware.MemberNames
import CommandSet.Proofs.Firmware.PayloadPaths

/-!
# Paths through declared types

A path of member names leads from the payload union through the structs of a main header.  Each
step asks for the one type with a name and for the one member with a name in it, so a path leads
nowhere if either is declared twice.

Main definitions:

- {lit}`only?`: the only element with a property.
- {lit}`resolve`: what the last member of a path is declared as.
- {lit}`Distinct`: type definitions that tell types and members apart.

Main results:

- Theorem {lit}`resolve_member`: one step of a path.
- Theorem {lit}`resolve_group`: the path of a group leads to its type.
- Theorem {lit}`distinct_typedefs_iff`: when the main header of a protocol tells types and members
  apart.
-/

namespace CommandSet

/-! ## Only elements -/

/-- The only element of a list with a property; none if there are none or several. -/
def only? {α : Type} (p : α → Bool) (items : List α) : Option α :=
  match items.filter p with
  | [item] => some item
  | _ => none

theorem only_eq_some_iff {α : Type} {p : α → Bool} {items : List α} {a : α} :
    only? p items = some a ↔ items.filter p = [a] := by
  rw [only?]
  split
  next item h => rw [h, Option.some_inj, List.singleton_inj]
  next hnone =>
    constructor
    · exact fun h => by cases h
    · exact fun h => absurd h (hnone a)

/-- Whatever has the property is the only element that has it. -/
theorem filter_of_only {α : Type} {p : α → Bool} {items : List α} {a : α}
    (h : (only? p items).isSome) (ha : a ∈ items) (hp : p a = true) : items.filter p = [a] := by
  obtain ⟨b, hb⟩ := Option.isSome_iff_exists.mp h
  rw [only_eq_some_iff] at hb
  have hmem : a ∈ items.filter p := List.mem_filter.mpr ⟨ha, hp⟩
  rw [hb, List.mem_singleton] at hmem
  rw [hb, hmem]

/-- Elements that are the only ones with their keys have distinct keys. -/
theorem nodup_map_of_filter {α β : Type} [DecidableEq β] {key : α → β} {items : List α}
    (h : ∀ a ∈ items, items.filter (fun b => key b == key a) = [a]) : (items.map key).Nodup := by
  rw [List.nodup_iff_count_le_one]
  intro k
  by_cases hk : k ∈ items.map key
  · obtain ⟨a, ha, rfl⟩ := List.mem_map.mp hk
    have hcount := congrArg List.length (h a ha)
    rw [← List.countP_eq_length_filter, List.length_singleton] at hcount
    rw [List.count, List.countP_map]
    exact hcount.le
  · rw [List.count_eq_zero_of_not_mem hk]
    exact Nat.zero_le 1

namespace Firmware

open Text (lower)

/-! ## Paths -/

/-- What the members of a type definition are declared as. -/
def Typedef.declarations (type : Typedef) : List Declaration :=
  type.members.filterMap declaration?

/-- What the last member of a path is declared as, starting in the type of a name.  Each name picks
the only member, and the type of that member is the only one of its name; pointers and arrays lead
nowhere. -/
def resolve (types : List Typedef) (typeName : String) : List String → Option Declaration
  | [] => none
  | name :: rest => do
      let type ← only? (·.name == typeName) types
      let member ← only? (·.name == name) type.declarations
      if rest.isEmpty then some member
      else if member.pointer || member.extent != "" then none
      else resolve types member.base rest

/-- Type definitions that tell types and members apart. -/
structure Distinct (types : List Typedef) : Prop where
  typeNames : (types.map (·.name)).Nodup
  memberNames : ∀ type ∈ types, (type.declarations.map (·.name)).Nodup

variable {types : List Typedef} {type : Typedef} {member : Declaration} {rest : List String}

/-- What resolves picks the only type and the only member at its first step. -/
theorem only_of_resolve {typeName name : String}
    (h : (resolve types typeName (name :: rest)).isSome) :
    ∃ type, only? (·.name == typeName) types = some type ∧
      (only? (·.name == name) type.declarations).isSome := by
  rw [resolve] at h
  cases htype : only? (·.name == typeName) types with
  | none => simp [htype] at h
  | some type =>
      refine ⟨type, rfl, ?_⟩
      cases hmember : only? (·.name == name) type.declarations with
      | none => simp [htype, hmember] at h
      | some member => rfl

/-- If a path resolves, the first type and member on it are told apart from all others. -/
theorem filter_of_resolve (htype : type ∈ types) (hmember : member ∈ type.declarations)
    (h : (resolve types type.name (member.name :: rest)).isSome) :
    types.filter (·.name == type.name) = [type] ∧
      type.declarations.filter (·.name == member.name) = [member] := by
  obtain ⟨found, hfound, hsome⟩ := only_of_resolve h
  have htypes : types.filter (·.name == type.name) = [type] :=
    filter_of_only (Option.isSome_iff_exists.mpr ⟨found, hfound⟩) htype (beq_self_eq_true _)
  rw [only_eq_some_iff, htypes, List.singleton_inj] at hfound
  subst hfound
  exact ⟨htypes, filter_of_only hsome hmember (beq_self_eq_true _)⟩

/-- One step of a path, if it resolves or types and members are told apart. -/
theorem resolve_member (htype : type ∈ types) (hmember : member ∈ type.declarations)
    (h : Distinct types ∨ (resolve types type.name (member.name :: rest)).isSome) :
    resolve types type.name (member.name :: rest) =
      if rest.isEmpty then some member
      else if member.pointer || member.extent != "" then none
      else resolve types member.base rest := by
  have honly : types.filter (·.name == type.name) = [type] ∧
      type.declarations.filter (·.name == member.name) = [member] := by
    rcases h with hdistinct | hsome
    · exact ⟨filter_key_eq_singleton hdistinct.typeNames htype,
        filter_key_eq_singleton (hdistinct.memberNames type htype) hmember⟩
    · exact filter_of_resolve htype hmember hsome
  rw [← only_eq_some_iff, ← only_eq_some_iff] at honly
  rw [resolve, honly.1]
  simp only [Option.bind_eq_bind, Option.bind_some, honly.2]

/-! ## Types of a protocol -/

variable {protocol : Protocol}

theorem declarations_typedef {record : Record} (h : ∀ member ∈ record.members, member.Spelled) :
    record.typedef.declarations = record.members.map Member.declared := by
  rw [Typedef.declarations, Record.typedef, List.filterMap_map, ← List.filterMap_eq_map]
  exact List.filterMap_congr fun member hmember => (Member.read_declaration (h member hmember)).1

theorem map_name_declarations {record : Record}
    (h : ∀ member ∈ record.members, member.Spelled) :
    record.typedef.declarations.map (·.name) = record.members.map (·.name) := by
  rw [declarations_typedef h, List.map_map]
  exact List.map_congr_left fun member hmember => Member.name_declared (h member hmember)

/-- The members of a struct are declared under their names. -/
theorem declared_mem (hwell : WellFormed protocol) {record : Record}
    (hrecord : record ∈ protocol.records) {member : Member} (hmember : member ∈ record.members) :
    record.typedef ∈ protocol.typedefs ∧ member.declared ∈ record.typedef.declarations ∧
      member.declared.name = member.name := by
  have hspelled := spelled_members hwell record hrecord
  rw [declarations_typedef hspelled]
  exact ⟨List.mem_map_of_mem hrecord, List.mem_map_of_mem hmember,
    Member.name_declared (hspelled member hmember)⟩

/-- A member that leads to a struct is a step of a path, if the path resolves or types and members
are told apart. -/
theorem resolve_record (hwell : WellFormed protocol) {record : Record}
    (hrecord : record ∈ protocol.records) {typeName name : String}
    (hmember : ⟨.record typeName, name⟩ ∈ record.members) {rest : List String} (hrest : rest ≠ [])
    (h : Distinct protocol.typedefs ∨
      (resolve protocol.typedefs record.typeName (name :: rest)).isSome) :
    resolve protocol.typedefs record.typeName (name :: rest) =
      resolve protocol.typedefs typeName rest := by
  obtain ⟨htype, hdeclared, -⟩ := declared_mem hwell hrecord hmember
  have hstep := resolve_member htype hdeclared h
  rwa [if_neg (by simpa using hrest), if_neg (by simp [Member.declared])] at hstep

/-- The path of a group leads to its type, if it resolves or types and members are told apart. -/
theorem resolve_group (hwell : WellFormed protocol) :
    ∀ group ∈ protocol.groups, ∀ rest ≠ [],
      (Distinct protocol.typedefs ∨ (resolve protocol.typedefs (Naming.payloadUnion protocol.name)
        (group.ancestors.map Naming.groupMember ++ rest)).isSome) →
      resolve protocol.typedefs (Naming.payloadUnion protocol.name)
          (group.ancestors.map Naming.groupMember ++ rest) =
        resolve protocol.typedefs (group.typeName protocol.name) rest := by
  refine groups_induction hwell.children ?command ?below
  case command =>
    intro cmd hcmd rest hrest h
    have hmember : ⟨.record (cmd.group.typeName protocol.name), Naming.groupMember cmd.name⟩ ∈
        (Record.ofCarriers protocol.name protocol.carriers).members := by
      have hany : protocol.carriers.isEmpty = false :=
        List.isEmpty_eq_false_iff.mpr (List.ne_nil_of_mem hcmd)
      rw [Record.ofCarriers, hany]
      exact List.mem_map_of_mem hcmd
    exact resolve_record hwell (union_mem_records protocol) hmember hrest h
  case below =>
    intro group hgroup att hatt hcomplex ih rest hrest h
    have hpath : (group.below att).ancestors.map Naming.groupMember ++ rest =
        group.ancestors.map Naming.groupMember ++ (Naming.groupMember att.name :: rest) := by
      simp [Group.below]
    have hmember : ⟨.record ((group.below att).typeName protocol.name),
        Naming.groupMember att.name⟩ ∈ (group.record protocol.name).members := by
      have hnamed := named_of_mem_groups hwell hgroup
      refine List.mem_append_right _ (List.mem_flatMap.mpr ⟨att, hatt, ?_⟩)
      rw [membersOf, Attribute.storage_eq_nested_iff.mpr hcomplex,
        typeName_below protocol.name hnamed.ancestors_ne_nil]
      exact List.mem_singleton_self _
    rw [hpath] at h ⊢
    have hgroupPath := ih (Naming.groupMember att.name :: rest) (List.cons_ne_nil _ _) h
    rw [hgroupPath] at h ⊢
    exact resolve_record hwell (record_mem_records hgroup) hmember hrest h

/-- The path of a member in a group leads to its declaration where types and members are told
apart. -/
theorem resolve_place (hwell : WellFormed protocol) (hdistinct : Distinct protocol.typedefs)
    {group : Group} (hgroup : group ∈ protocol.groups) {member : Member}
    (hmember : member ∈ (group.record protocol.name).members) :
    resolve protocol.typedefs (Naming.payloadUnion protocol.name)
      (Place.path ⟨group.ancestors, member.name⟩) = some member.declared := by
  obtain ⟨htype, hdeclared, hname⟩ :=
    declared_mem hwell (record_mem_records hgroup) hmember
  have hpath := resolve_group hwell group hgroup [member.name] (List.cons_ne_nil _ _)
    (.inl hdistinct)
  have hstep := @resolve_member _ _ _ [] htype hdeclared (.inl hdistinct)
  rw [Place.path, hpath, ← hname]
  exact hstep

/-- Where the path of a member resolves, its type and the member are told apart from all others. -/
theorem filter_of_resolve_place (hwell : WellFormed protocol) {group : Group}
    (hgroup : group ∈ protocol.groups) {member : Member}
    (hmember : member ∈ (group.record protocol.name).members) {rest : List String}
    (h : (resolve protocol.typedefs (Naming.payloadUnion protocol.name)
      (group.ancestors.map Naming.groupMember ++ member.name :: rest)).isSome) :
    protocol.typedefs.filter (·.name == group.typeName protocol.name) =
        [(group.record protocol.name).typedef] ∧
      (group.record protocol.name).typedef.declarations.filter (·.name == member.name) =
        [member.declared] := by
  obtain ⟨htype, hdeclared, hname⟩ :=
    declared_mem hwell (record_mem_records hgroup) hmember
  have hpath := resolve_group hwell group hgroup (member.name :: rest) (List.cons_ne_nil _ _)
    (.inr h)
  rw [hpath, ← hname] at h
  have hfilter := filter_of_resolve htype hdeclared h
  rwa [hname] at hfilter

/-! ## Types and members told apart -/

theorem map_name_typedefs (protocol : Protocol) :
    protocol.typedefs.map (·.name) =
      (definedGroups protocol).map (Group.typeName protocol.name) ++
        [Naming.payloadUnion protocol.name] := by
  simp [Protocol.typedefs, Protocol.records, Group.record, Record.ofGroup, Record.typedef,
    Record.ofCarriers, Function.comp_def]

/-- The union is not named like a struct. -/
theorem payloadUnion_ne_typeName (protocol : String) (group : Group) :
    group.typeName protocol ≠ Naming.payloadUnion protocol := by
  intro heq
  have hends := congrArg (fun text => (text.toList.reverse.take 14).reverse) heq
  simp [Group.typeName, Naming.payloadUnion] at hends

/-- The types of groups are told apart by what they are named after. -/
theorem typeName_inj {protocol : String} {group other : Group} :
    group.typeName protocol = other.typeName protocol ↔ group.typeStem = other.typeStem := by
  simp only [Group.typeName, String.append_left_inj, String.append_right_inj]

/-- The types of a protocol have distinct names exactly if what they are named after is
distinct. -/
theorem nodup_typeNames_iff :
    (protocol.typedefs.map (·.name)).Nodup ↔ (protocol.groups.map Group.typeStem).Nodup := by
  have hunion : Naming.payloadUnion protocol.name ∉
      (definedGroups protocol).map (Group.typeName protocol.name) := by
    rw [List.mem_map]
    rintro ⟨group, -, heq⟩
    exact payloadUnion_ne_typeName protocol.name group heq
  rw [map_name_typedefs, List.nodup_append_comm, List.singleton_append, List.nodup_cons,
    and_iff_right hunion, ((definedGroups_perm protocol).map _).nodup_iff]
  simp only [List.Nodup, List.pairwise_map, ne_eq, typeName_inj]

/-- The members of the union have distinct names. -/
theorem nodup_names_ofCarriers (hwell : WellFormed protocol) :
    ((Record.ofCarriers protocol.name protocol.carriers).members.map (·.name)).Nodup := by
  rw [Record.ofCarriers]
  split
  · exact List.nodup_singleton _
  · have hgroups : ((definedGroups protocol).map fun group => lower group.parent).Nodup :=
      ((definedGroups_perm protocol).map _).nodup_iff.mpr (nodup_lower_groups hwell)
    rw [definedGroups, List.map_append, List.nodup_append, List.map_map] at hgroups
    have hnames := List.pairwise_map.mp hgroups.2.1
    rw [List.map_map, List.Nodup, List.pairwise_map]
    exact hnames.imp fun hne heq => hne ((String.append_left_inj "_payload").mp heq)

/-- The main header of a protocol tells types and members apart exactly if its groups are named
apart and no two attributes of a group meet. -/
theorem distinct_typedefs_iff (hwell : WellFormed protocol) :
    Distinct protocol.typedefs ↔ (protocol.groups.map Group.typeStem).Nodup ∧
      ∀ group ∈ protocol.groups, ∀ first ∈ group.members, ∀ second ∈ group.members,
        ¬MembersMeet first second := by
  have hnames : ∀ record ∈ protocol.records,
      record.typedef.declarations.map (·.name) = record.members.map (·.name) :=
    fun record hrecord => map_name_declarations (spelled_members hwell record hrecord)
  constructor
  · rintro ⟨htypes, hmembers⟩
    refine ⟨nodup_typeNames_iff.mp htypes, fun group hgroup => ?_⟩
    have hrecord := record_mem_records hgroup
    have hnodup := hmembers _ (List.mem_map_of_mem hrecord)
    rw [hnames _ hrecord] at hnodup
    exact (nodup_names_ofGroup_iff hwell hgroup (group.typeName protocol.name)).mp hnodup
  · rintro ⟨hstems, hmeet⟩
    refine ⟨nodup_typeNames_iff.mpr hstems, List.forall_mem_map.mpr fun record hrecord => ?_⟩
    rw [hnames record hrecord]
    rw [Protocol.records, List.mem_append, List.mem_map, List.mem_singleton] at hrecord
    rcases hrecord with ⟨group, hgroup, rfl⟩ | rfl
    · have hgroup := mem_definedGroups.mp hgroup
      exact (nodup_names_ofGroup_iff hwell hgroup (group.typeName protocol.name)).mpr
        (hmeet group hgroup)
    · exact nodup_names_ofCarriers hwell

end Firmware
end CommandSet
