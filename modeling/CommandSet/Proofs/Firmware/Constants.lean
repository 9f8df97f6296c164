import CommandSet.Proofs.Firmware.Enumerators
import CommandSet.Proofs.Text.Joints
import Mathlib.Data.List.Pairwise

/-!
# Constants that clash

A constant is spelled by joining names with fixed words, so two constants of one spelling
come about where a name holds such a word itself.  Validation compares names within one
scope only and lets these names through.

Main definition:

- {lit}`Unambiguous`: protocols whose names leave no room for a clash.

Main results:

- Theorems {lit}`commandWord_eq_iff`, {lit}`attributeWord_eq_iff`: how two constants come to
  one spelling.
- Theorem {lit}`nodup_constants_iff`: when the constants of a main header are distinct.
- Theorem {lit}`not_nodup_constants_tally`: a command that is spelled like the count.
-/

namespace CommandSet

open Firmware
open Text (upper)

/-! ## Spellings of two readings -/

/-- Constants of two parents are spelled alike where one parent is spelled like the other one
with a joint behind it. -/
theorem attributeWord_eq_iff {first second word other : String} (hne : first ≠ second) :
    first ++ "_ATT_" ++ word = second ++ "_ATT_" ++ other ↔
      (∃ rest, second = first ++ "_ATT" ++ rest ∧ "_" ++ word = rest ++ "_ATT_" ++ other) ∨
        ∃ rest, first = second ++ "_ATT" ++ rest ∧ "_" ++ other = rest ++ "_ATT_" ++ word := by
  have hsplit (parent word : String) :
      parent ++ "_ATT_" ++ word = parent ++ "_ATT" ++ ("_" ++ word) := by
    simp [← String.toList_inj]
  simp only [hsplit]
  rw [joint_eq_iff String.toList_ofList (by decide), or_iff_right fun h => hne h.1]

/-- The constants of a command and of an attribute are spelled alike where the parent of the
attribute starts like the constants of commands. -/
theorem commandWord_eq_iff {parent command word : String} :
    "CMD_" ++ command = parent ++ "_ATT_" ++ word ↔
      ∃ rest, parent = "CMD" ++ rest ∧ "_" ++ command = rest ++ "_ATT_" ++ word := by
  have hcommand : "CMD_" ++ command = "CMD" ++ ("_" ++ command) := by
    have hjoint : "CMD_" = "CMD" ++ "_" := by decide
    rw [hjoint, String.append_assoc]
  rw [hcommand]
  constructor
  · intro h
    rw [← String.toList_inj] at h
    simp only [String.toList_append, List.append_assoc] at h
    rcases List.append_eq_append_iff.mp h with ⟨rest, hparent, hrest⟩ | ⟨rest, hshort, hrest⟩
    · refine ⟨String.ofList rest, ?_, ?_⟩
      · rw [← String.toList_inj, hparent]
        simp
      · rw [← String.toList_inj]
        simpa using hrest
    · cases rest with
      | nil =>
          refine ⟨"", ?_, ?_⟩
          · rw [← String.toList_inj]
            simpa using hshort.symm
          · rw [← String.toList_inj]
            simpa using hrest.symm
      | cons c rest =>
          -- no joint starts within the three letters
          obtain ⟨rfl, -⟩ := List.cons.inj hrest
          have hmem : '_' ∈ "CMD".toList := hshort ▸ List.mem_append_right _ List.mem_cons_self
          exact absurd hmem (by decide)
  · rintro ⟨rest, rfl, h⟩
    rw [h]
    simp only [String.append_assoc]

/-! ## Distinct words -/

variable {protocol : Protocol}

/-- The members of a group are siblings. -/
theorem members_mem_siblingLists {group : Group} (hgroup : group ∈ protocol.groups) :
    group.members ∈ protocol.siblingLists := by
  rw [Protocol.groups, List.mem_flatMap] at hgroup
  obtain ⟨cmd, hcmd, hgroup⟩ := hgroup
  have hcommand : cmd ∈ protocol.commands := List.mem_of_mem_filter hcmd
  rw [Command.groups, List.mem_cons, List.mem_map] at hgroup
  rw [Protocol.siblingLists, List.mem_append]
  rcases hgroup with rfl | ⟨p, hp, rfl⟩
  · exact Or.inl (List.mem_map_of_mem hcommand)
  · refine Or.inr (List.mem_map_of_mem ?_)
    rw [← map_node_positions]
    exact List.mem_map_of_mem
      (List.mem_flatMap.mpr ⟨cmd, hcommand, List.mem_of_mem_filter hp⟩)

/-- The words of commands are distinct unless one is spelled like the count. -/
theorem nodup_commandWords_iff (hwell : WellFormed protocol) :
    protocol.commandWords.Nodup ↔ ∀ cmd ∈ protocol.commands, upper cmd.name ≠ "COUNT" := by
  have hnames : (protocol.commands.map fun cmd => upper cmd.name).Nodup := by
    have hscopes := hwell.scopes.upper
    rw [Protocol.scopeNames, List.map_append, List.map_map] at hscopes
    exact (List.nodup_append.mp hscopes).1
  rw [Protocol.commandWords, List.nodup_append]
  simp [hnames]

/-- The words of a group are distinct unless an attribute is spelled like the flag of
another one. -/
theorem nodup_words_iff (hwell : WellFormed protocol) {group : Group}
    (hgroup : group ∈ protocol.groups) :
    group.words.Nodup ↔ ∀ att ∈ group.members, ∀ other ∈ group.members, other.optional = true →
      upper att.name ≠ upper other.name ++ "_FLAG" := by
  have hnames : (group.members.map fun att => upper att.name).Nodup := by
    have hsiblings := hwell.siblings _ (members_mem_siblingLists hgroup)
    have hupper := hsiblings.names.upper
    rwa [List.map_map] at hupper
  have hflags : ((group.members.filter (·.optional)).map fun att =>
      upper att.name ++ "_FLAG").Nodup := by
    have hfiltered := (hnames.sublist (List.filter_sublist.map _ :
      ((group.members.filter (·.optional)).map fun att => upper att.name).Sublist _))
    have hending := List.Nodup.map (f := (· ++ "_FLAG"))
      (fun _ _ h => String.append_left_inj _ |>.mp h) hfiltered
    rwa [List.map_map] at hending
  rw [Group.words, List.nodup_append]
  simp only [hnames, hflags, true_and, List.forall_mem_map, List.mem_filter, and_imp]

/-! ## Distinct constants -/

/-- Protocols whose names leave no room for a clash among the constants of the main header. -/
structure Unambiguous (protocol : Protocol) : Prop where
  /-- No command is spelled like the count. -/
  count : ∀ cmd ∈ protocol.commands, upper cmd.name ≠ "COUNT"
  /-- No attribute is spelled like the flag of a sibling. -/
  flags : ∀ group ∈ protocol.groups, ∀ att ∈ group.members, ∀ other ∈ group.members,
    other.optional = true → upper att.name ≠ upper other.name ++ "_FLAG"
  /-- No command is spelled like an attribute of a parent that starts with {lit}`CMD`. -/
  commands : ∀ cmd ∈ protocol.commands, ∀ group ∈ protocol.groups, ∀ word ∈ group.words,
    ∀ rest, upper group.parent = "CMD" ++ rest → "_" ++ upper cmd.name ≠ rest ++ "_ATT_" ++ word
  /-- No attribute is spelled like one of a parent with a joint in its name. -/
  parents : ∀ first ∈ protocol.groups, ∀ second ∈ protocol.groups, ∀ word ∈ first.words,
    ∀ other ∈ second.words, ∀ rest, upper second.parent = upper first.parent ++ "_ATT" ++ rest →
      "_" ++ word ≠ rest ++ "_ATT_" ++ other

theorem commandConstant_eq_attributeConstant_iff {protocol parent command word : String} :
    commandConstant protocol command = attributeConstant protocol parent word ↔
      ∃ rest, upper parent = "CMD" ++ rest ∧ "_" ++ command = rest ++ "_ATT_" ++ word := by
  have hcommand : commandConstant protocol command =
      upper protocol ++ "_" ++ ("CMD_" ++ command) := by
    simp [commandConstant, ← String.toList_inj]
  have hattribute : attributeConstant protocol parent word =
      upper protocol ++ "_" ++ (upper parent ++ "_ATT_" ++ word) := by
    simp [attributeConstant, String.append_assoc]
  rw [hcommand, hattribute, String.append_right_inj, commandWord_eq_iff]

theorem attributeConstant_eq_iff {protocol first second word other : String}
    (hne : upper first ≠ upper second) :
    attributeConstant protocol first word = attributeConstant protocol second other ↔
      (∃ rest, upper second = upper first ++ "_ATT" ++ rest ∧
        "_" ++ word = rest ++ "_ATT_" ++ other) ∨
      ∃ rest, upper first = upper second ++ "_ATT" ++ rest ∧
        "_" ++ other = rest ++ "_ATT_" ++ word := by
  have hattribute (parent word : String) : attributeConstant protocol parent word =
      upper protocol ++ "_" ++ (upper parent ++ "_ATT_" ++ word) := by
    simp [attributeConstant, String.append_assoc]
  rw [hattribute, hattribute, String.append_right_inj, attributeWord_eq_iff hne]

/-- The count is spelled like no attribute. -/
theorem count_ne_attributeConstant (protocol parent word : String) :
    commandConstant protocol "COUNT" ≠ attributeConstant protocol parent word := by
  rw [Ne, commandConstant_eq_attributeConstant_iff]
  rintro ⟨rest, -, h⟩
  -- the joint holds a letter that the count does not
  have hmem : 'A' ∈ ("_" ++ "COUNT").toList := by
    rw [h]
    simp
  exact absurd hmem (by decide)

/-- The constants of two parents are distinct unless one of them has a joint in its name. -/
theorem pairwise_groups_iff (hwell : WellFormed protocol) :
    (protocol.groups.Pairwise fun first second => ∀ word ∈ first.words, ∀ other ∈ second.words,
      attributeConstant protocol.name first.parent word ≠
        attributeConstant protocol.name second.parent other) ↔
    ∀ first ∈ protocol.groups, ∀ second ∈ protocol.groups, ∀ word ∈ first.words,
      ∀ other ∈ second.words, ∀ rest, upper second.parent = upper first.parent ++ "_ATT" ++ rest →
        "_" ++ word ≠ rest ++ "_ATT_" ++ other := by
  have hparents : protocol.groups.Pairwise fun first second =>
      upper first.parent ≠ upper second.parent :=
    List.pairwise_map.mp (nodup_spelled_groups hwell.scopes.upper)
  constructor
  · intro hpairwise first hfirst second hsecond word hword other hother rest hrest heq
    have hne : first ≠ second := by
      rintro rfl
      have hlength := congrArg String.length hrest
      simp [← String.length_toList] at hlength
    have hsymmetric : Std.Symm fun first second : Group => ∀ word ∈ first.words,
        ∀ other ∈ second.words, attributeConstant protocol.name first.parent word ≠
          attributeConstant protocol.name second.parent other :=
      ⟨fun _ _ h word hword other hother heq => h other hother word hword heq.symm⟩
    refine hpairwise.forall hfirst hsecond hne word hword other hother ?_
    have hparent : upper first.parent ≠ upper second.parent := by
      intro hsame
      have hlength := congrArg String.length (hsame.trans hrest)
      simp [← String.length_toList] at hlength
    exact (attributeConstant_eq_iff hparent).mpr (Or.inl ⟨rest, hrest, heq⟩)
  · intro h
    refine hparents.imp_of_mem fun {first second} hfirst hsecond hne word hword other hother
      heq => ?_
    rcases (attributeConstant_eq_iff hne).mp heq with ⟨rest, hrest, hwords⟩ | ⟨rest, hrest, hwords⟩
    · exact h first hfirst second hsecond word hword other hother rest hrest hwords
    · exact h second hsecond first hfirst other hother word hword rest hrest hwords

theorem nodup_groupConstants_iff {group : Group} (protocol : String) :
    (group.words.map (attributeConstant protocol group.parent)).Nodup ↔ group.words.Nodup :=
  List.nodup_map_iff fun _ _ h => String.append_right_inj _ |>.mp h

theorem nodup_commandConstants_iff (words : List String) (protocol : String) :
    (words.map (commandConstant protocol)).Nodup ↔ words.Nodup :=
  List.nodup_map_iff fun _ _ h => String.append_right_inj _ |>.mp h

/-- The constants of commands and attributes are distinct unless a parent starts like the
constants of commands. -/
theorem disjoint_iff (protocol : Protocol) :
    (∀ command ∈ protocol.commandWords, ∀ group ∈ protocol.groups, ∀ word ∈ group.words,
      commandConstant protocol.name command ≠
        attributeConstant protocol.name group.parent word) ↔
    ∀ cmd ∈ protocol.commands, ∀ group ∈ protocol.groups, ∀ word ∈ group.words, ∀ rest,
      upper group.parent = "CMD" ++ rest → "_" ++ upper cmd.name ≠ rest ++ "_ATT_" ++ word := by
  rw [Protocol.commandWords, List.forall_mem_append, List.forall_mem_map, List.forall_mem_singleton]
  have hcount : ∀ group ∈ protocol.groups, ∀ word ∈ group.words,
      commandConstant protocol.name "COUNT" ≠ attributeConstant protocol.name group.parent word :=
    fun group _ word _ => count_ne_attributeConstant protocol.name group.parent word
  rw [and_iff_left hcount]
  simp only [Ne, commandConstant_eq_attributeConstant_iff, not_exists, not_and]

/-- The constants of a well-formed protocol's main header are distinct exactly if its names are
unambiguous. -/
theorem nodup_constants_ofProtocol (hwell : WellFormed protocol) :
    (constants (MainHeader.build (Prepared.ofProtocol protocol) none).lines).Nodup ↔
      Unambiguous protocol := by
  rw [(constants_perm hwell).nodup_iff, List.nodup_append, nodup_commandConstants_iff,
    nodup_commandWords_iff hwell]
  have hgroups : (protocol.groups.flatMap fun group =>
      group.words.map (attributeConstant protocol.name group.parent)).Nodup ↔
      (∀ group ∈ protocol.groups, group.words.Nodup) ∧
        protocol.groups.Pairwise fun first second => ∀ word ∈ first.words,
          ∀ other ∈ second.words, attributeConstant protocol.name first.parent word ≠
            attributeConstant protocol.name second.parent other := by
    rw [List.Nodup, List.pairwise_flatMap]
    simp only [List.forall_mem_map]
    exact and_congr_left fun _ =>
      forall₂_congr fun group _ => nodup_groupConstants_iff protocol.name
  rw [hgroups, pairwise_groups_iff hwell]
  have hwords : (∀ group ∈ protocol.groups, group.words.Nodup) ↔ ∀ group ∈ protocol.groups,
      ∀ att ∈ group.members, ∀ other ∈ group.members, other.optional = true →
        upper att.name ≠ upper other.name ++ "_FLAG" :=
    forall₂_congr fun group hgroup => nodup_words_iff hwell hgroup
  have hdisjoint : (∀ constant ∈ protocol.commandWords.map (commandConstant protocol.name),
      ∀ other ∈ protocol.groups.flatMap fun group =>
        group.words.map (attributeConstant protocol.name group.parent), constant ≠ other) ↔
      ∀ command ∈ protocol.commandWords, ∀ group ∈ protocol.groups, ∀ word ∈ group.words,
        commandConstant protocol.name command ≠
          attributeConstant protocol.name group.parent word := by
    simp only [List.forall_mem_map, List.forall_mem_flatMap]
  rw [hwords, hdisjoint, disjoint_iff]
  constructor
  · rintro ⟨hcount, ⟨hflags, hparents⟩, hcommands⟩
    exact ⟨hcount, hflags, hcommands, hparents⟩
  · rintro ⟨hcount, hflags, hcommands, hparents⟩
    exact ⟨hcount, ⟨hflags, hparents⟩, hcommands⟩

/-- Names that hold none of the fixed words are unambiguous. -/
theorem unambiguous_of_plain (hcount : ∀ cmd ∈ protocol.commands, upper cmd.name ≠ "COUNT")
    (hflags : ∀ group ∈ protocol.groups, ∀ att ∈ group.members,
      ¬"_FLAG".toList <:+ (upper att.name).toList)
    (hcommands : ∀ group ∈ protocol.groups, ¬"CMD".toList <+: (upper group.parent).toList)
    (hparents : ∀ group ∈ protocol.groups, ¬"_ATT".toList <:+: (upper group.parent).toList) :
    Unambiguous protocol where
  count := hcount
  flags := by
    intro group hgroup att hatt other _ _ heq
    refine hflags group hgroup att hatt ?_
    rw [heq, String.toList_append]
    exact List.suffix_append _ _
  commands := by
    intro cmd _ group hgroup word _ rest hparent _
    refine hcommands group hgroup ?_
    rw [hparent, String.toList_append]
    exact List.prefix_append _ _
  parents := by
    intro first _ second hsecond word _ other _ rest hparent _
    refine hparents second hsecond ?_
    rw [hparent, String.toList_append, String.toList_append]
    exact ⟨_, _, rfl⟩

/-- The constants of a main header are distinct exactly if no name of the protocol can be read
as a part of another constant. -/
theorem nodup_constants_iff {prepared : Prepared} (hprepare : prepare protocol = .ok prepared) :
    (constants (MainHeader.build prepared none).lines).Nodup ↔ Unambiguous protocol := by
  obtain ⟨rfl, hwell⟩ := wellFormed_of_prepare hprepare
  exact nodup_constants_ofProtocol hwell

/-! ## A clash -/

private def counter : Protocol :=
  ⟨"Counter", 5, [⟨"Reset", 1, .aToB, [⟨"Value", 1, true, .uint16, [], ""⟩], ""⟩]⟩

/-- The constants of a protocol without any of the fixed words in its names. -/
theorem nodup_constants_counter :
    (constants (MainHeader.build (Prepared.ofProtocol counter) none).lines).Nodup := by
  refine (nodup_constants_iff (rfl : prepare counter = _)).mpr ?_
  have hgroups : counter.groups = [⟨["Reset"], [⟨"Value", 1, true, .uint16, [], ""⟩]⟩] := rfl
  refine unambiguous_of_plain (by decide) ?_ ?_ ?_ <;> rw [hgroups] <;> decide

private def tally : Protocol :=
  ⟨"Tally", 5, [⟨"Count", 1, .aToB, [], ""⟩]⟩

/-- A command that is spelled like the count of commands is accepted, and its constant clashes
with the count. -/
theorem not_nodup_constants_tally :
    prepare tally = .ok (Prepared.ofProtocol tally) ∧
      ¬(constants (MainHeader.build (Prepared.ofProtocol tally) none).lines).Nodup := by
  refine ⟨rfl, fun hnodup => ?_⟩
  have hwell : WellFormed tally := (wellFormed_of_prepare (rfl : prepare tally = _)).2
  have hunambiguous := (nodup_constants_ofProtocol hwell).mp hnodup
  exact hunambiguous.count _ List.mem_cons_self (by decide)

end CommandSet
