import CommandSet.Proofs.Protocol.Positions
import Mathlib.Data.String.Basic

/-!
# Scopes

The flat list is sorted by the names of parents and cut into scopes.  Sorting keeps entries
with one parent in their order, and neighbours with one parent end up in one scope, so the
scope of a name holds what the flat list has under it.  In a well-formed protocol no two
groups share a name, and the scopes are exactly its groups.

Main definition:

- {lit}`Group.scope`: the scope that lists a group.

Main results:

- Theorem {lit}`filter_sortByParent`: sorting by parents is stable.
- Theorem {lit}`pairwise_groupByParent`: sorted entries have each parent in one scope.
- Theorem {lit}`scopes_perm_groups`: the scopes of a well-formed protocol are its groups.
-/

namespace CommandSet

/-! ## Sorting -/

/-- Inserting an entry keeps the order of entries with one parent. -/
theorem filter_insertByParent (entry : Entry) (entries : List Entry) (name : String) :
    (insertByParent entry entries).filter (fun e => e.parent == name) =
      (entry :: entries).filter (fun e => e.parent == name) := by
  induction entries with
  | nil => rfl
  | cons other rest ih =>
      unfold insertByParent
      split
      next hlt =>
        rw [List.filter_cons, ih]
        by_cases hother : other.parent = name
        · have hentry : ¬entry.parent = name := by
            rintro rfl
            exact absurd hlt (hother ▸ lt_irrefl _)
          simp [hother, hentry]
        · simp [List.filter_cons, hother]
      next => rfl

/-- Sorting by parents keeps the order of entries with one parent. -/
theorem filter_sortByParent (entries : List Entry) (name : String) :
    (sortByParent entries).filter (fun e => e.parent == name) =
      entries.filter (fun e => e.parent == name) := by
  induction entries with
  | nil => rfl
  | cons entry rest ih =>
      rw [sortByParent, List.foldr_cons, filter_insertByParent, List.filter_cons, List.filter_cons,
        ← sortByParent, ih]

/-- Sorting by parents keeps the entries. -/
theorem sortByParent_perm (entries : List Entry) : (sortByParent entries).Perm entries := by
  induction entries with
  | nil => exact List.Perm.refl _
  | cons entry rest ih => exact (insertByParent_perm entry _).trans (ih.cons entry)

theorem pairwise_insertByParent {entry : Entry} {entries : List Entry}
    (h : entries.Pairwise fun a b => a.parent ≤ b.parent) :
    (insertByParent entry entries).Pairwise fun a b => a.parent ≤ b.parent := by
  induction entries with
  | nil => exact List.pairwise_singleton _ _
  | cons other rest ih =>
      have hother := List.pairwise_cons.mp h
      unfold insertByParent
      split
      next hlt =>
        refine List.pairwise_cons.mpr ⟨?_, ih hother.2⟩
        intro b hb
        rcases List.mem_cons.mp ((insertByParent_perm entry rest).mem_iff.mp hb) with rfl | hb
        · exact le_of_lt hlt
        · exact hother.1 b hb
      next hle =>
        refine List.pairwise_cons.mpr ⟨?_, h⟩
        intro b hb
        rcases List.mem_cons.mp hb with rfl | hb
        · exact not_lt.mp hle
        · exact le_trans (not_lt.mp hle) (hother.1 b hb)

/-- Sorted entries have their parents' names in ascending order. -/
theorem pairwise_sortByParent (entries : List Entry) :
    (sortByParent entries).Pairwise fun a b => a.parent ≤ b.parent := by
  induction entries with
  | nil => exact List.Pairwise.nil
  | cons entry rest ih => exact pairwise_insertByParent ih

/-! ## Cutting into scopes -/

/-- Scopes one after the other give the entries back. -/
theorem flatMap_groupByParent (entries : List Entry) :
    (groupByParent entries).flatMap (·.entries) = entries := by
  induction entries with
  | nil => rfl
  | cons entry rest ih =>
      rw [groupByParent]
      split
      next hnil =>
        rw [hnil, List.flatMap_nil] at ih
        rw [← ih]
        rfl
      next scope scopes hscopes =>
        rw [hscopes, List.flatMap_cons] at ih
        split
        · rw [List.flatMap_cons, List.cons_append, ih]
        · rw [List.flatMap_cons, List.flatMap_cons, ih]
          rfl

/-- A scope is not empty, and its entries have the parent it names. -/
def Scope.Sound (scope : Scope) : Prop :=
  scope.entries ≠ [] ∧ ∀ entry ∈ scope.entries, entry.parent = scope.parent

theorem sound_groupByParent (entries : List Entry) :
    ∀ scope ∈ groupByParent entries, scope.Sound := by
  induction entries with
  | nil =>
      intro scope hscope
      cases hscope
  | cons entry rest ih =>
      have hsingle : Scope.Sound ⟨entry.parent, [entry]⟩ :=
        ⟨List.cons_ne_nil _ _, List.forall_mem_singleton.mpr rfl⟩
      rw [groupByParent]
      split
      next => exact List.forall_mem_singleton.mpr hsingle
      next scope scopes hscopes =>
        rw [hscopes, List.forall_mem_cons] at ih
        split
        next heq =>
          refine List.forall_mem_cons.mpr ⟨⟨List.cons_ne_nil _ _, ?_⟩, ih.2⟩
          exact List.forall_mem_cons.mpr ⟨heq.symm, ih.1.2⟩
        next => exact List.forall_mem_cons.mpr ⟨hsingle, List.forall_mem_cons.mpr ih⟩

/-- Every scope holds an entry under its name. -/
theorem exists_entry_of_mem_groupByParent {entries : List Entry} {scope : Scope}
    (h : scope ∈ groupByParent entries) : ∃ entry ∈ entries, entry.parent = scope.parent := by
  rcases sound_groupByParent entries scope h with ⟨hne, hparent⟩
  rcases List.exists_mem_of_ne_nil _ hne with ⟨entry, hentry⟩
  refine ⟨entry, ?_, hparent entry hentry⟩
  rw [← flatMap_groupByParent entries, List.mem_flatMap]
  exact ⟨scope, h, hentry⟩

/-- Sorted entries have each parent in one scope, and the scopes are sorted as well. -/
theorem pairwise_groupByParent {entries : List Entry}
    (h : entries.Pairwise fun a b => a.parent ≤ b.parent) :
    (groupByParent entries).Pairwise fun a b => a.parent < b.parent := by
  induction entries with
  | nil => exact List.Pairwise.nil
  | cons entry rest ih =>
      rw [List.pairwise_cons] at h
      have ih := ih h.2
      have hle : ∀ scope ∈ groupByParent rest, entry.parent ≤ scope.parent := by
        intro scope hscope
        rcases exists_entry_of_mem_groupByParent hscope with ⟨other, hother, heq⟩
        rw [← heq]
        exact h.1 other hother
      rw [groupByParent]
      split
      next => exact List.pairwise_singleton _ _
      next scope scopes hscopes =>
        rw [hscopes, List.pairwise_cons] at ih
        rw [hscopes, List.forall_mem_cons] at hle
        split
        next => exact List.pairwise_cons.mpr ih
        next hne =>
          have hlt : entry.parent < scope.parent := lt_of_le_of_ne hle.1 (Ne.symm hne)
          refine List.pairwise_cons.mpr ⟨?_, List.pairwise_cons.mpr ih⟩
          refine List.forall_mem_cons.mpr ⟨hlt, ?_⟩
          intro other hother
          exact lt_trans hlt (ih.1 other hother)

/-- Names of scopes of sorted entries are distinct. -/
theorem nodup_scopes (entries : List Entry) :
    ((groupByParent (sortByParent entries)).map (·.parent)).Nodup :=
  List.pairwise_map.mpr ((pairwise_groupByParent (pairwise_sortByParent entries)).imp ne_of_lt)

/-- The scope of a name holds the entries under it in their order. -/
theorem entries_of_mem_scopes {entries : List Entry} {scope : Scope}
    (h : scope ∈ groupByParent (sortByParent entries)) :
    scope.entries = entries.filter fun e => e.parent == scope.parent := by
  have hsound := sound_groupByParent (sortByParent entries)
  have hfiltered : ∀ scopes : List Scope, (∀ s ∈ scopes, s.Sound) →
      (scopes.flatMap (·.entries)).filter (fun e => e.parent == scope.parent) =
        (scopes.filter fun s => s.parent == scope.parent).flatMap (·.entries) := by
    intro scopes hscopes
    induction scopes with
    | nil => rfl
    | cons other rest ih =>
        rw [List.forall_mem_cons] at hscopes
        rw [List.flatMap_cons, List.filter_append, ih hscopes.2, List.filter_cons]
        split
        next heq =>
          rw [List.flatMap_cons, List.filter_eq_self.mpr]
          intro entry hentry
          rwa [hscopes.1.2 entry hentry]
        next hne =>
          rw [List.filter_eq_nil_iff.mpr, List.nil_append]
          intro entry hentry
          rwa [hscopes.1.2 entry hentry]
  have hpicked := hfiltered _ hsound
  rw [flatMap_groupByParent, filter_sortByParent,
    filter_key_eq_singleton (nodup_scopes entries) h, List.flatMap_singleton] at hpicked
  exact hpicked.symm

/-- Every entry has a scope under its parent's name. -/
theorem exists_scope_of_mem {entries : List Entry} {entry : Entry} (h : entry ∈ entries) :
    ∃ scope ∈ groupByParent (sortByParent entries), scope.parent = entry.parent := by
  have hname : entry ∈ (sortByParent entries).filter fun e => e.parent == entry.parent := by
    rw [filter_sortByParent]
    exact List.mem_filter.mpr ⟨h, beq_self_eq_true _⟩
  have hmem := List.mem_of_mem_filter hname
  rw [← flatMap_groupByParent (sortByParent entries), List.mem_flatMap] at hmem
  rcases hmem with ⟨scope, hscope, hentry⟩
  exact ⟨scope, hscope, ((sound_groupByParent _ scope hscope).2 entry hentry).symm⟩

/-! ## Scopes of a protocol -/

/-- The scope that lists a group. -/
def Group.scope (group : Group) : Scope :=
  ⟨group.parent, group.own.map Position.entry⟩

/-- The entries of a well-formed protocol under the name of a group are the group's. -/
theorem filter_flatten_eq_own {protocol : Protocol} (hwell : WellFormed protocol) {group : Group}
    (hgroup : group ∈ protocol.groups) :
    (flatten protocol.commands).filter (fun e => e.parent == group.parent) =
      group.own.map Position.entry := by
  rw [flatten_eq_positions hwell.children, List.filter_map,
    ← filter_positions_eq_own hwell.children (nodup_parents hwell.scopes) hgroup]
  rfl

/-- The groups of a well-formed protocol have attributes. -/
theorem members_ne_nil {protocol : Protocol} (h : Shaped protocol.attributes) {group : Group}
    (hgroup : group ∈ protocol.groups) : group.members ≠ [] := by
  rw [Protocol.groups, List.mem_flatMap] at hgroup
  rcases hgroup with ⟨cmd, hcmd, hgroup⟩
  rw [Command.groups, List.mem_cons, List.mem_map] at hgroup
  rcases hgroup with rfl | ⟨p, hp, rfl⟩
  · have hcarrier := (List.mem_filter.mp hcmd).2
    simpa [Command.hasAttributes, Command.group] using hcarrier
  · rcases List.mem_filter.mp hp with ⟨hposition, hcomplex⟩
    have hnode : p.node ∈ protocol.attributes := by
      rw [← map_node_positions]
      exact List.mem_map_of_mem
        (List.mem_flatMap.mpr ⟨cmd, List.mem_of_mem_filter hcmd, hposition⟩)
    exact (h p.node hnode).mpr (by simpa [Attribute.isComplex] using hcomplex)

/-- The scopes of a well-formed protocol are exactly its groups. -/
theorem scopes_perm_groups {protocol : Protocol} (hwell : WellFormed protocol) :
    (Prepared.ofProtocol protocol).scopes.Perm (protocol.groups.map Group.scope) := by
  have hscopes : (Prepared.ofProtocol protocol).scopes =
      groupByParent (sortByParent (flatten protocol.commands)) := rfl
  have hnodup : ((protocol.groups.map Group.scope).map (·.parent)).Nodup := by
    rw [List.map_map]
    exact nodup_parents hwell.scopes
  rw [hscopes, List.perm_ext_iff_of_nodup (List.Nodup.of_map _ (nodup_scopes _))
    (List.Nodup.of_map _ hnodup)]
  -- a scope and the group of its name list the same entries
  have heq : ∀ scope ∈ groupByParent (sortByParent (flatten protocol.commands)),
      ∀ group ∈ protocol.groups, group.parent = scope.parent → group.scope = scope := by
    intro scope hscope group hgroup hparent
    have hentries := entries_of_mem_scopes hscope
    rw [← hparent, filter_flatten_eq_own hwell hgroup] at hentries
    rcases scope with ⟨name, entries⟩
    rw [Group.scope, ← hentries, hparent]
  intro scope
  constructor
  · intro hscope
    rcases exists_entry_of_mem_groupByParent hscope with ⟨entry, hentry, hparent⟩
    have hflat : entry ∈ flatten protocol.commands := by
      have hname : entry ∈ (sortByParent (flatten protocol.commands)).filter
          (fun e => e.parent == entry.parent) :=
        List.mem_filter.mpr ⟨hentry, beq_self_eq_true _⟩
      rw [filter_sortByParent] at hname
      exact List.mem_of_mem_filter hname
    rw [flatten_eq_positions hwell.children, List.mem_map] at hflat
    rcases hflat with ⟨p, hp, rfl⟩
    have hgroup := (group_of_mem_positions hwell.children hp).1
    exact List.mem_map.mpr ⟨p.group, hgroup, heq scope hscope p.group hgroup hparent⟩
  · intro hmem
    rcases List.mem_map.mp hmem with ⟨group, hgroup, rfl⟩
    rcases List.exists_mem_of_ne_nil _ (members_ne_nil hwell.children hgroup) with ⟨att, hatt⟩
    rw [← Group.map_node_own, List.mem_map] at hatt
    rcases hatt with ⟨p, hp, -⟩
    have hentry : p.entry ∈ flatten protocol.commands := by
      rw [flatten_eq_positions hwell.children]
      exact List.mem_map_of_mem ((own_sublist_positions hgroup).subset hp)
    rcases exists_scope_of_mem hentry with ⟨scope, hscope, hparent⟩
    rw [Position.parent_entry, Group.group_of_mem_placed hp] at hparent
    rw [heq scope hscope group hgroup hparent.symm]
    exact hscope

end CommandSet
