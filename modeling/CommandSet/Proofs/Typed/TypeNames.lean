import CommandSet.Proofs.Firmware.Visits
import CommandSet.Proofs.Typed.ItemNames
import CommandSet.Proofs.Typed.Matches

/-!
# Names of Rust types

The variants of the command enumeration and the payload structs are named by capitalised words.
The underscores of a name vanish there, so what stands behind the leading ones decides whether
the words still start like a name.

Main definition:

- {lit}`SpellsTypes`: which variants and structs a module declares, and which of them have names
  that are names.

Main results:

- Theorem {lit}`spellsTypes_of_validate`: the modules of all accepted protocols do so.
- Theorem {lit}`not_isName_capitalized_chime`: commands whose variants and structs have no names.
-/

namespace CommandSet
namespace Typed

/-! ## Types of a module -/

/-- The variants and the payload structs of a module, and which of them have names: a variant
needs a letter behind the leading underscores of its command, and a struct must not have a digit
there. -/
structure SpellsTypes (protocol : Protocol) (bridge : List String) : Prop where
  variants : commandVariants bridge = protocol.commands.map fun cmd => capitalized cmd.name
  payloads : ∀ name, name ∈ itemNames .payload bridge ↔
    (∃ cmd ∈ protocol.carriers, name = Naming.typedCommandPayload cmd.name) ∨
      ∃ group ∈ protocol.groups, ∃ att ∈ group.members,
        att.isComplex = true ∧ name = Naming.typedNestedPayload group.parent att.name
  variant : ∀ cmd ∈ protocol.commands, (IsName (capitalized cmd.name) ↔
    ∃ c, leading? cmd.name = some c ∧ c.isAlpha = true)
  command : ∀ cmd ∈ protocol.commands, (IsName (Naming.typedCommandPayload cmd.name) ↔
    ∀ c, leading? cmd.name = some c → c.isAlpha = true)
  nested : ∀ group ∈ protocol.groups, ∀ att ∈ group.members, att.isComplex = true →
    (IsName (Naming.typedNestedPayload group.parent att.name) ↔
      ∀ c, leading? group.parent = some c → c.isAlpha = true)

section Names

variable {parent name : String}

theorem isName_typedCommandPayload_iff (h : IsName name) :
    IsName (Naming.typedCommandPayload name) ↔
      ∀ c, leading? name = some c → c.isAlpha = true :=
  h.isName_capitalized_append_iff (isIdentifier_iff.mp (by decide))

theorem isName_typedNestedPayload_iff (hparent : IsName parent) (hname : IsName name) :
    IsName (Naming.typedNestedPayload parent name) ↔
      ∀ c, leading? parent = some c → c.isAlpha = true := by
  have hrest : IsName ("Att" ++ capitalized name ++ "Payload") := by
    have hword : IsWord ("Att" ++ capitalized name ++ "Payload") :=
      ((IsWord.fixed rfl : IsWord "Att").append (isWord_capitalized hname.isWord)).append
        (IsWord.fixed rfl : IsWord "Payload")
    exact hword.isName_iff.mpr ⟨'A', by simp, by decide⟩
  have htype : Naming.typedNestedPayload parent name =
      capitalized parent ++ ("Att" ++ capitalized name ++ "Payload") := by
    simp only [Naming.typedNestedPayload, String.append_assoc]
  rw [htype]
  exact hparent.isName_capitalized_append_iff hrest

end Names

/-- The payload structs of a module are those of the commands with attributes and of the complex
attributes. -/
theorem mem_payloadNames_iff {protocol : Protocol} (hwell : WellFormed protocol) (role : Role)
    (name : String) :
    name ∈ itemNames .payload (Bridge.build (Prepared.ofProtocol protocol) role).lines ↔
      (∃ cmd ∈ protocol.carriers, name = Naming.typedCommandPayload cmd.name) ∨
        ∃ group ∈ protocol.groups, ∃ att ∈ group.members,
          att.isComplex = true ∧ name = Naming.typedNestedPayload group.parent att.name := by
  have hbelow {group : Group} (hgroup : group ∈ protocol.groups) (att : Attribute) :=
    Group.payloadType_below (named_of_mem_groups hwell hgroup).ancestors_ne_nil att
  rw [payloadNames_bridge hwell, List.mem_map]
  constructor
  · rintro ⟨group, hgroup, rfl⟩
    rcases (mem_groups_iff hwell.children).mp (mem_definedGroups.mp hgroup) with
      ⟨cmd, hcmd, rfl⟩ | ⟨parent, hparent, att, hatt, hcomplex, rfl⟩
    · exact .inl ⟨cmd, hcmd, rfl⟩
    · exact .inr ⟨parent, hparent, att, hatt, hcomplex, hbelow hparent att⟩
  · rintro (⟨cmd, hcmd, rfl⟩ | ⟨parent, hparent, att, hatt, hcomplex, rfl⟩)
    · exact ⟨cmd.group, mem_definedGroups.mpr
        ((mem_groups_iff hwell.children).mpr (.inl ⟨cmd, hcmd, rfl⟩)), rfl⟩
    · exact ⟨parent.below att, mem_definedGroups.mpr ((mem_groups_iff hwell.children).mpr
        (.inr ⟨parent, hparent, att, hatt, hcomplex, rfl⟩)), hbelow hparent att⟩

/-- Which variants and payload structs of an accepted protocol have names that are names. -/
theorem spellsTypes_of_validate {protocol : Protocol} (hvalid : validate protocol = .ok ())
    (role : Role) :
    SpellsTypes protocol (Bridge.build (Prepared.ofProtocol protocol) role).lines := by
  have hwell := wellFormed_of_validate hvalid
  constructor
  case variants => exact commandVariants_bridge hwell role
  case payloads => exact mem_payloadNames_iff hwell role
  case variant => exact fun cmd hcmd => (hwell.command_names cmd hcmd).isName_capitalized_iff
  case command =>
    exact fun cmd hcmd => isName_typedCommandPayload_iff (hwell.command_names cmd hcmd)
  case nested =>
    intro group hgroup att hatt _
    have hnamed := named_of_mem_groups hwell hgroup
    exact isName_typedNestedPayload_iff hnamed.parent (hnamed.members att hatt)

theorem spellsTypes_meter :
    validate meter = .ok () ∧ ∀ role,
      SpellsTypes meter (Bridge.build (Prepared.ofProtocol meter) role).lines :=
  ⟨rfl, spellsTypes_of_validate rfl⟩

/-! ## Commands without a name -/

private def chime : Protocol :=
  ⟨"Chime", 3, [⟨"_", 1, .aToB, [], ""⟩,
    ⟨"_1", 2, .aToB, [⟨"Tone", 1, false, .uint8, [], ""⟩], ""⟩]⟩

/-- Commands named by an underscore and by a digit behind one are accepted, and neither has a
variant with a name: one is empty and one starts with the digit, as the payload struct does. -/
theorem not_isName_capitalized_chime :
    validate chime = .ok () ∧ (∃ cmd ∈ chime.commands, capitalized cmd.name = "") ∧
      ∃ cmd ∈ chime.carriers, ¬IsName (capitalized cmd.name) ∧
        ¬IsName (Naming.typedCommandPayload cmd.name) := by
  have hvariant : isIdentifier (capitalized "_1") = false := by decide
  have hstruct : isIdentifier (Naming.typedCommandPayload "_1") = false := by decide
  refine ⟨rfl, ⟨_, List.mem_cons_self, by decide⟩, _, List.mem_cons_self, ?_, ?_⟩
  · rw [← isIdentifier_iff, hvariant]
    exact Bool.false_ne_true
  · rw [← isIdentifier_iff, hstruct]
    exact Bool.false_ne_true

end Typed
end CommandSet
