import CommandSet.Proofs.Firmware.Macros

/-!
# Counts

The lengths of all arrays are macros: the bridge header defines the number of commands and of
the attributes of every group, the bridge the length of its arena.  No two of the counts of a
header share a name, so that each name stands for one number.

Main results:

- Theorem {lit}`nodup_counts`: counts have different names.
- Theorem {lit}`defines_of_mem_counts`: every count of the bridge header is defined once.
- Theorem {lit}`defines_arena`: the length of the arena is defined once.
-/

namespace CommandSet
namespace Firmware

open Text (lower upper)

/-! ## Names of counts -/

variable {protocol : Protocol}

theorem isWord_commandNumber {protocol : String} (h : IsName protocol) :
    IsWord (commandNumber protocol) :=
  ((IsWord.fixed rfl).append h.isWord.upper).append (.fixed rfl)

theorem isWord_protocolIdMacro {protocol : String} (h : IsName protocol) :
    IsWord (protocolIdMacro protocol) :=
  ((IsWord.fixed rfl).append h.isWord.upper).append (.fixed rfl)

theorem isWord_attributeCount {protocol command : String} (hprotocol : IsName protocol)
    (hcommand : IsName command) : IsWord (Naming.attributeCount protocol command) :=
  ((((IsWord.fixed rfl).append hprotocol.isWord.upper).append (.fixed rfl)).append
    hcommand.isWord.upper).append (.fixed rfl)

theorem isWord_subAttributeCount {protocol name : String} (hprotocol : IsName protocol)
    (hname : IsName name) : IsWord (Naming.subAttributeCount protocol name) :=
  ((((IsWord.fixed rfl).append hprotocol.isWord.upper).append (.fixed rfl)).append
    hname.isWord.upper).append (.fixed rfl)

theorem attributeCount_inj {protocol first second : String} :
    Naming.attributeCount protocol first = Naming.attributeCount protocol second ↔
      upper first = upper second := by
  rw [Naming.attributeCount, Naming.attributeCount, String.append_left_inj, String.append_right_inj]

theorem subAttributeCount_inj {protocol first second : String} :
    Naming.subAttributeCount protocol first = Naming.subAttributeCount protocol second ↔
      upper first = upper second := by
  rw [Naming.subAttributeCount, Naming.subAttributeCount, String.append_left_inj,
    String.append_right_inj]

theorem attributeCount_ne_subAttributeCount (protocol command name : String) :
    Naming.attributeCount protocol command ≠ Naming.subAttributeCount protocol name := by
  simp [Naming.attributeCount, Naming.subAttributeCount, ← String.toList_inj]

theorem commandNumber_ne_attributeCount (protocol command : String) :
    commandNumber protocol ≠ Naming.attributeCount protocol command := by
  intro h
  have hlength := congrArg (fun text => text.toList.length) h
  simp [commandNumber, Naming.attributeCount] at hlength

theorem commandNumber_ne_subAttributeCount (protocol name : String) :
    commandNumber protocol ≠ Naming.subAttributeCount protocol name := by
  simp [commandNumber, Naming.subAttributeCount, ← String.toList_inj]

/-- The counts of a protocol, a sub-attribute count for every complex attribute. -/
theorem counts_eq (hwell : WellFormed protocol) :
    (BridgeHeader.build (Prepared.ofProtocol protocol)).counts =
      ⟨commandNumber protocol.name, protocol.commands.length⟩ ::
        (protocol.carriers.map (fun cmd =>
            ⟨Naming.attributeCount protocol.name cmd.name, cmd.attributes.length⟩) ++
          (protocol.positions.filter (·.node.isComplex)).map fun p =>
            ⟨Naming.subAttributeCount protocol.name p.node.name, p.node.children.length⟩) := by
  rw [BridgeHeader.counts, BridgeHeader.build, complexChildrenFirst_eq hwell.children,
    List.reverse_reverse, List.map_map]
  rfl

/-- Names of commands that carry attributes differ in upper case. -/
theorem nodup_upper_carriers (hwell : WellFormed protocol) :
    (protocol.carriers.map fun cmd => upper cmd.name).Nodup := by
  have hnames := hwell.scopes.upper
  rw [Protocol.scopeNames, List.map_append, List.nodup_append, List.map_map] at hnames
  exact hnames.1.sublist (List.filter_sublist.map _)

/-- Names of complex attributes differ in upper case. -/
theorem nodup_upper_complex (hwell : WellFormed protocol) :
    ((protocol.positions.filter (·.node.isComplex)).map fun p => upper p.node.name).Nodup := by
  have hnames := hwell.scopes.upper
  rw [Protocol.scopeNames, List.map_append, List.nodup_append, List.map_map, List.map_map,
    ← map_node_positions, List.filter_map, List.map_map] at hnames
  exact hnames.2.1

/-- No count is defined under the name of another. -/
theorem nodup_counts (hwell : WellFormed protocol) :
    ((BridgeHeader.build (Prepared.ofProtocol protocol)).counts.map (·.name)).Nodup := by
  have hcarriers : (protocol.carriers.map fun cmd =>
      Naming.attributeCount protocol.name cmd.name).Nodup := by
    refine List.pairwise_map.mpr ((List.pairwise_map.mp (nodup_upper_carriers hwell)).imp ?_)
    intro first second hne heq
    exact hne (attributeCount_inj.mp heq)
  have hcomplex : ((protocol.positions.filter (·.node.isComplex)).map fun p =>
      Naming.subAttributeCount protocol.name p.node.name).Nodup := by
    refine List.pairwise_map.mpr ((List.pairwise_map.mp (nodup_upper_complex hwell)).imp ?_)
    intro first second hne heq
    exact hne (subAttributeCount_inj.mp heq)
  rw [counts_eq hwell, List.map_cons, List.map_append, List.map_map, List.map_map, List.nodup_cons,
    List.nodup_append, List.mem_append, List.mem_map, List.mem_map]
  refine ⟨?_, hcarriers, hcomplex, ?_⟩
  · rintro (⟨cmd, -, heq⟩ | ⟨p, -, heq⟩)
    · exact commandNumber_ne_attributeCount _ _ heq.symm
    · exact commandNumber_ne_subAttributeCount _ _ heq.symm
  · intro name hname other hother
    rcases List.mem_map.mp hname with ⟨cmd, -, rfl⟩
    rcases List.mem_map.mp hother with ⟨p, -, rfl⟩
    exact attributeCount_ne_subAttributeCount _ _ _

/-- Counts are named by words, none of them the macro for the identifier of the protocol. -/
theorem name_of_mem_counts (hwell : WellFormed protocol) {m : CountMacro}
    (hm : m ∈ (BridgeHeader.build (Prepared.ofProtocol protocol)).counts) :
    IsWord m.name ∧ protocolIdMacro protocol.name ≠ m.name := by
  rw [counts_eq hwell, List.mem_cons, List.mem_append, List.mem_map, List.mem_map] at hm
  rcases hm with rfl | ⟨cmd, hcmd, rfl⟩ | ⟨p, hp, rfl⟩
  · refine ⟨isWord_commandNumber hwell.protocol_name, ?_⟩
    simp [protocolIdMacro, commandNumber, ← String.toList_inj]
  · have hname := hwell.command_names cmd (List.mem_of_mem_filter hcmd)
    refine ⟨isWord_attributeCount hwell.protocol_name hname, ?_⟩
    simp [protocolIdMacro, Naming.attributeCount, ← String.toList_inj]
  · have hnode : p.node ∈ protocol.attributes := by
      rw [← map_node_positions]
      exact List.mem_map_of_mem (List.mem_of_mem_filter hp)
    refine ⟨isWord_subAttributeCount hwell.protocol_name (hwell.attribute_names _ hnode), ?_⟩
    simp [protocolIdMacro, Naming.subAttributeCount, ← String.toList_inj]

/-- The guard of a file is made of the characters of its name in lower case, an underscore in
place of each dot. -/
theorem mem_includeGuard {file : String} (h : ∀ c ∈ file.toList, IsNameRest c ∨ c = '.') {c : Char}
    (hc : c ∈ (includeGuard file).toList) : c = '_' ∨ ∃ d, IsNameRest d ∧ d.toLower = c := by
  have hascii : ∀ c ∈ file.toList, Text.isAscii c = true := by
    intro c hc
    rcases h c hc with hname | rfl
    · exact hname.isAscii
    · rfl
  rw [includeGuard, String.toList_ofList, lower, String.toList_ofList,
    Text.lowerFrom_ascii [] hascii, List.map_map, List.mem_map] at hc
  rcases hc with ⟨d, hd, rfl⟩
  rw [Function.comp_apply]
  rcases h d hd with hname | rfl
  · split
    next => exact Or.inl rfl
    next => exact Or.inr ⟨d, hname, rfl⟩
  · exact Or.inl (by decide)

/-- The guard of a file is a word if the name of the file is one but for its dots. -/
theorem isWord_includeGuard {file : String} (h : ∀ c ∈ file.toList, IsNameRest c ∨ c = '.') :
    IsWord (includeGuard file) := by
  intro c hc
  rcases mem_includeGuard h hc with rfl | ⟨d, hd, rfl⟩
  · exact isNameRest_iff.mp rfl
  · exact hd.toLower

/-- The guard of a file holds no capital. -/
theorem capital_not_mem_includeGuard {file : String}
    (h : ∀ c ∈ file.toList, IsNameRest c ∨ c = '.') {c : Char} (hc : c.isUpper = true) :
    c ∉ (includeGuard file).toList := by
  intro hmem
  rcases mem_includeGuard h hmem with rfl | ⟨d, hd, rfl⟩
  · exact absurd hc (by decide)
  · rw [hd.toLower_not_upper] at hc
    cases hc

/-- The guard of a header gives no value to a macro. -/
theorem definesName_guard {protocol : String} (hprotocol : IsName protocol) (name : String) :
    definesName name ("#define " ++ includeGuard (Naming.bridgeHeaderFile protocol)) = false := by
  have hfile : ∀ c ∈ (Naming.bridgeHeaderFile protocol).toList, IsNameRest c ∨ c = '.' := by
    intro c hc
    rw [Naming.bridgeHeaderFile, String.toList_append, String.toList_append, List.mem_append,
      List.mem_append] at hc
    rcases hc with (hc | hc) | hc
    · exact Or.inl ((IsWord.fixed rfl : IsWord "LCSF_Bridge_") c hc)
    · exact Or.inl (hprotocol.isWord c hc)
    · have hending : ".h".toList = ['.', 'h'] := rfl
      rw [hending, List.mem_cons, List.mem_singleton] at hc
      rcases hc with rfl | rfl
      · exact Or.inr rfl
      · exact Or.inl (isNameRest_iff.mp rfl)
  have hblank := (isWord_includeGuard hfile).blank_not_mem
  rw [Bool.eq_false_iff, ne_eq, definesName, List.isPrefixOf_iff_prefix]
  simp only [String.toList_append, List.append_assoc, List.prefix_append_right_inj]
  intro hstart
  exact hblank (hstart.subset (List.mem_append_right _ (List.mem_singleton_self _)))

/-- Every count of a bridge header is defined once. -/
theorem defines_of_mem_counts (hwell : WellFormed protocol) {m : CountMacro}
    (hm : m ∈ (BridgeHeader.build (Prepared.ofProtocol protocol)).counts) :
    Defines (BridgeHeader.build (Prepared.ofProtocol protocol)).lines m.name
      (toString m.count) := by
  rcases name_of_mem_counts hwell hm with ⟨hword, hid⟩
  have hname := hword.blank_not_mem
  have hidLine : definesName m.name ("#define " ++ protocolIdMacro protocol.name ++ " " ++
      Text.hexWord protocol.id) = false := by
    rw [definesName_define hname (isWord_protocolIdMacro hwell.protocol_name).blank_not_mem]
    exact beq_eq_false_iff_ne.mpr hid
  have hcounts : ∀ other ∈ (BridgeHeader.build (Prepared.ofProtocol protocol)).counts,
      definesName m.name other.line = (other.name == m.name) := fun other hother =>
    definesName_define hname (name_of_mem_counts hwell hother).1.blank_not_mem
  rw [Defines, filter_definesName, filter_isDefine_bridgeHeader, List.filter_cons_of_neg,
    List.filter_cons_of_neg, List.filter_map]
  · have hpicked := filter_key_eq_singleton (nodup_counts hwell) hm
    rw [Function.comp_def, List.filter_congr hcounts, hpicked]
    rfl
  · exact Bool.eq_false_iff.mp hidLine
  · exact Bool.eq_false_iff.mp (definesName_guard hwell.protocol_name m.name)

/-- The length of the arena is defined once in the bridge of a role. -/
theorem defines_arena (hwell : WellFormed protocol) (role : Role) :
    Defines (Bridge.build (Prepared.ofProtocol protocol) role).lines
      (Bridge.arenaMacro protocol.name)
      (toString (Bridge.build (Prepared.ofProtocol protocol) role).arena) := by
  have hword : IsWord (Bridge.arenaMacro protocol.name) :=
    ((IsWord.fixed rfl).append hwell.protocol_name.isWord.upper).append (.fixed rfl)
  have hline := filter_isDefine_bridge (Bridge.build (Prepared.ofProtocol protocol) role)
  have hprotocol : (Bridge.build (Prepared.ofProtocol protocol) role).protocol =
      protocol.name := rfl
  have hvalue := @definesName_define _ _
    (toString (Bridge.build (Prepared.ofProtocol protocol) role).arena) hword.blank_not_mem
    hword.blank_not_mem
  rw [Defines, filter_definesName, hline, hprotocol, List.filter_cons, hvalue, beq_self_eq_true,
    if_pos rfl, List.filter_nil]

/-- The number of a command's attributes is defined under its macro. -/
theorem defines_attributeCount (hwell : WellFormed protocol) {cmd : Command}
    (hcmd : cmd ∈ protocol.carriers) :
    Defines (BridgeHeader.build (Prepared.ofProtocol protocol)).lines
      (Naming.attributeCount protocol.name cmd.name) (toString cmd.attributes.length) := by
  refine defines_of_mem_counts hwell (m := ⟨_, cmd.attributes.length⟩) ?_
  rw [counts_eq hwell]
  exact List.mem_cons_of_mem _
    (List.mem_append_left _ (List.mem_map.mpr ⟨cmd, hcmd, rfl⟩))

/-- The number of a complex attribute's sub-attributes is defined under its macro. -/
theorem defines_subAttributeCount (hwell : WellFormed protocol) {p : Position}
    (hp : p ∈ protocol.positions) (hcomplex : p.node.isComplex = true) :
    Defines (BridgeHeader.build (Prepared.ofProtocol protocol)).lines
      (Naming.subAttributeCount protocol.name p.node.name)
      (toString p.node.children.length) := by
  refine defines_of_mem_counts hwell (m := ⟨_, p.node.children.length⟩) ?_
  rw [counts_eq hwell]
  exact List.mem_cons_of_mem _ (List.mem_append_right _
    (List.mem_map.mpr ⟨p, List.mem_filter.mpr ⟨hp, hcomplex⟩, rfl⟩))

end Firmware
end CommandSet
