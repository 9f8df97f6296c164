import CommandSet.Proofs.Firmware.DescriptorTables
import CommandSet.Proofs.Firmware.HeaderText
import CommandSet.Proofs.Protocol.Scopes

/-!
# Lists of attributes

The validator finds an attribute by its ordinal, so every artifact has to list the attributes
of a group in one order.  The headers take them from the sorted scopes, the descriptor tables
from the tree; the names of groups lead both to the same members.  All lists are read off the
lines of the artifacts.  The main header shows descriptions behind its ordinals, and a
description that breaks its line adds to the list.

Main definitions:

- {lit}`enumsTagged`: the enumerations under a tag.
- {lit}`allocated?`: the array that a line allocates.
- {lit}`ListsMembers`: artifacts that list the members of a group in their order.

Main results:

- Theorems {lit}`ordinals_group`, {lit}`ids_group`, {lit}`table_group`: the one list of each
  artifact that belongs to a group.
- Theorem {lit}`allocations_encoder`: the arrays that an encoder allocates.
- Theorem {lit}`lists_agreement`: all artifacts agree on every group.
-/

namespace CommandSet
namespace Firmware

open Text (lower upper)

variable {protocol : Protocol}

/-! ## Enumerations -/

/-- The enumerations under a tag. -/
def enumsTagged (tag : String) (lines : List String) : List TopBlock :=
  (topBlocks "enum " lines).filter (·.head == opening ("enum " ++ tag))

/-- What is listed of the entries of a group's scope is listed of its members. -/
theorem map_entries_scope {α : Type} (group : Group) (f : Attribute → α) :
    group.scope.entries.map (fun entry => f entry.node) = group.members.map f := by
  rw [← Group.map_node_own, Group.scope, List.map_map, List.map_map]
  rfl

/-- Where every group has an enumeration under a tag spelled from its name, behind one under another
tag, the tag picks that enumeration. -/
theorem filter_enums {β : Type} {first : TopBlock} {lists : List β} {tag : β → String}
    {block : β → TopBlock} {listed : Group → β} (hwell : WellFormed protocol)
    (hperm : lists.Perm (protocol.groups.map listed))
    (hblock : ∀ list, (block list).head = opening ("enum " ++ tag list))
    (htag : ∀ group other, tag (listed group) = tag (listed other) →
      lower group.parent = lower other.parent) {group : Group} (hgroup : group ∈ protocol.groups)
    (hfirst : first.head ≠ opening ("enum " ++ tag (listed group))) :
    (first :: lists.map block).filter
        (·.head == opening ("enum " ++ tag (listed group))) = [block (listed group)] := by
  have hkey : ∀ list, ((block list).head == opening ("enum " ++ tag (listed group))) =
      (tag list == tag (listed group)) := by
    intro list
    rw [hblock, Bool.eq_iff_iff, beq_iff_eq, beq_iff_eq, opening, opening, String.append_left_inj,
      String.append_right_inj]
  have hlists : lists.filter (fun list => tag list == tag (listed group)) = [listed group] := by
    refine filter_key_of_perm hperm ?_ (List.mem_map_of_mem hgroup)
    rw [List.map_map]
    refine List.pairwise_map.mpr ((List.pairwise_map.mp (nodup_lower_groups hwell)).imp ?_)
    intro group other hne heq
    exact hne (htag group other heq)
  rw [List.filter_cons_of_neg (by simpa using hfirst), List.filter_map, Function.comp_def]
  simp only [hkey, hlists, List.map_singleton]

/-! ## Ordinals -/

/-- The tag of the ordinals of a group. -/
def ordinalsTag (protocol parent : String) : String :=
  "_" ++ lower protocol ++ "_" ++ lower parent ++ "_att_names"

/-- The enumeration of a scope in a main header. -/
def scopeBlock (names : ScopeNames) : TopBlock :=
  ⟨opening ("enum " ++ names.tag), names.ordinals.map ScopeNames.ordinalLine⟩

theorem topBlocks_scope (names : ScopeNames) (rest : List String) :
    topBlocks "enum " (names.lines ++ rest) = scopeBlock names :: topBlocks "enum " rest := by
  have hhead : "enum ".toList.isPrefixOf (opening ("enum " ++ names.tag)).toList = true := by
    simp [opening]
  have hordinals : ∀ line ∈ names.ordinals.map ScopeNames.ordinalLine,
      "enum ".toList.isPrefixOf line.toList = false :=
    List.forall_mem_map.mpr fun _ _ => isPrefixOf_indent (by decide) _ 0 _
  have hinside : ∀ line ∈ names.ordinals.map ScopeNames.ordinalLine, closesAt 0 line = false :=
    List.forall_mem_map.mpr fun _ _ => closesAt_indent (by decide) _
  have hbehind : ∀ line ∈ (closing ++ ";") :: "" :: flagLines names,
      "enum ".toList.isPrefixOf line.toList = false := by
    have hflags : ∀ line ∈ flagLines names, "enum ".toList.isPrefixOf line.toList = false := by
      rw [flagLines]
      split
      next => exact List.forall_mem_nil _
      next =>
        rw [List.forall_mem_append, List.forall_mem_map]
        exact ⟨fun flag _ => by simp [PresenceFlag.line, List.isPrefixOf], by decide⟩
    rw [List.forall_mem_cons, List.forall_mem_cons]
    exact ⟨by decide, by decide, hflags⟩
  have hlines : names.lines ++ rest = opening ("enum " ++ names.tag) ::
      (names.ordinals.map ScopeNames.ordinalLine ++
        (closing ++ ";") :: ("" :: flagLines names ++ rest)) := by
    simp [ScopeNames.lines, flagLines]
  rw [hlines, topBlocks_block hhead hordinals hinside (by decide), ← List.cons_append,
    topBlocks_append hbehind, scopeBlock]

/-- The enumerations of a main header: that of its commands, and those of its scopes. -/
theorem topBlocks_mainHeader (prepared : Prepared) :
    topBlocks "enum " (MainHeader.build prepared none).lines =
      ⟨opening ("enum _" ++ lower prepared.protocol.name ++ "_cmd_names"),
          (MainHeader.build prepared none).commands.map fun name => indent 1 (name ++ ",")⟩ ::
        (MainHeader.build prepared none).scopes.map scopeBlock := by
  let header := MainHeader.build prepared none
  have hhead : "enum ".toList.isPrefixOf
      (opening ("enum _" ++ lower header.protocol ++ "_cmd_names")).toList = true := by
    simp [opening]
  have hcommands : ∀ line ∈ header.commands.map fun name => indent 1 (name ++ ","),
      "enum ".toList.isPrefixOf line.toList = false :=
    List.forall_mem_map.mpr fun _ _ => isPrefixOf_indent (by decide) _ 0 _
  have hinside : ∀ line ∈ header.commands.map fun name => indent 1 (name ++ ","),
      closesAt 0 line = false :=
    List.forall_mem_map.mpr fun _ _ => closesAt_indent (by decide) _
  have hending : ∀ line ∈ [closing ++ ";", ""], "enum ".toList.isPrefixOf line.toList = false := by
    decide
  have hbehind := topBlocks_eq_nil (forall_opensEnum_linesBehind prepared)
  have hscopes : topBlocks "enum " (MainHeader.titled (!header.scopes.isEmpty) "// Attributes enums"
      (header.scopes.flatMap ScopeNames.lines) ++ linesBehind header) =
        header.scopes.map scopeBlock := by
    rw [MainHeader.titled]
    split
    next =>
      rw [List.cons_append, ← List.singleton_append,
        topBlocks_append (List.forall_mem_singleton.mpr (by decide)),
        topBlocks_flatMap fun names _ => topBlocks_scope names, hbehind, List.append_nil]
    next hempty =>
      rw [Bool.not_eq_true, Bool.not_eq_false', List.isEmpty_iff] at hempty
      rw [List.nil_append, hbehind, hempty, List.map_nil]
  rw [lines_mainHeader, topBlocks_append (forall_opensEnum_linesBefore header),
    topBlocks_block hhead hcommands hinside (by decide)]
  exact congrArg (List.cons _) ((topBlocks_append hending _).trans hscopes)

theorem withoutReturn_opening (head : String) : Text.withoutReturn (opening head) = opening head :=
  Text.withoutReturn_eq_self (by simp [opening])

/-- The name of an enumerator is read in front of its description. -/
theorem enumeratorName_withoutReturn {name : String} (h : IsWord name) (description : String) :
    enumeratorName (Text.withoutReturn (ScopeNames.ordinalLine (name, description))) = name := by
  have hlist : (indent 1 (name ++ ",")).toList = (indent 1 name).toList ++ [','] := by
    simp [toList_indent]
  have hfront : (indent 1 (name ++ ",")).toList.getLast? ≠ some '\r' := by
    rw [hlist, List.getLast?_concat]
    decide
  have hindent (rest : String) :
      indent 1 (name ++ "," ++ rest) = indent 1 (name ++ ",") ++ rest := by
    simp [← String.toList_inj, toList_indent]
  obtain ⟨rest, hrest⟩ := Text.withoutReturn_append hfront
    (if description.isEmpty then "" else " // " ++ description)
  rw [ScopeNames.ordinalLine, hindent, hrest, ← hindent, enumeratorName_indent h]

/-- The enumeration of a scope in the text of a main header. -/
def shownBlock (names : ScopeNames) : TopBlock :=
  ⟨opening ("enum " ++ names.tag),
    names.ordinals.map fun ordinal => Text.withoutReturn (ScopeNames.ordinalLine ordinal)⟩

/-- The enumerations in the text of a main header. -/
theorem topBlocks_text (hwell : WellFormed protocol)
    (h : ∀ att ∈ protocol.attributes, '\n' ∉ att.description.toList) :
    topBlocks "enum " (Text.lines (MainHeader.build (Prepared.ofProtocol protocol) none).text) =
      ⟨opening ("enum _" ++ lower protocol.name ++ "_cmd_names"),
          (MainHeader.build (Prepared.ofProtocol protocol) none).commands.map fun name =>
            Text.withoutReturn (indent 1 (name ++ ","))⟩ ::
        (MainHeader.build (Prepared.ofProtocol protocol) none).scopes.map shownBlock := by
  have hscope (names : ScopeNames) : (⟨Text.withoutReturn (scopeBlock names).head,
      (scopeBlock names).body.map Text.withoutReturn⟩ : TopBlock) = shownBlock names := by
    simp [scopeBlock, shownBlock, withoutReturn_opening]
  rw [lines_text_mainHeader hwell h, topBlocks_withoutReturn (by decide), topBlocks_mainHeader,
    List.map_cons, List.map_map, List.map_map, withoutReturn_opening]
  simp only [Function.comp_def, hscope]
  rfl

/-- One enumeration of the main header belongs to a group.  If the descriptions of attributes hold
no newline, it lists the members of the group. -/
theorem ordinals_group (hwell : WellFormed protocol)
    (hdescriptions : ∀ att ∈ protocol.attributes, '\n' ∉ att.description.toList) {group : Group}
    (hgroup : group ∈ protocol.groups) :
    (enumsTagged (ordinalsTag protocol.name group.parent)
      (Text.lines (MainHeader.build (Prepared.ofProtocol protocol) none).text)).map
        (·.body.map enumeratorName) = [group.members.map fun att =>
          Naming.attributeOrdinal protocol.name group.parent att.name] := by
  have hperm := (scopes_perm_groups hwell).map (ScopeNames.ofScope protocol.name)
  rw [List.map_map] at hperm
  have htag : ∀ group other : Group, (ScopeNames.ofScope protocol.name group.scope).tag =
      (ScopeNames.ofScope protocol.name other.scope).tag →
        lower group.parent = lower other.parent := by
    intro group other heq
    simpa [ScopeNames.ofScope, Group.scope] using heq
  have hcommands : opening ("enum _" ++ lower protocol.name ++ "_cmd_names") ≠
      opening ("enum " ++ ordinalsTag protocol.name group.parent) := by
    intro heq
    have hlength := congrArg (fun text => text.toList.length) heq
    simp [opening, ordinalsTag] at hlength
  have hnamed := named_of_mem_groups hwell hgroup
  have hpicked (commands : List String) := @filter_enums protocol _
    ⟨opening ("enum _" ++ lower protocol.name ++ "_cmd_names"), commands⟩ _ ScopeNames.tag
    shownBlock _ hwell hperm (fun names => rfl) htag group hgroup hcommands
  rw [enumsTagged, topBlocks_text hwell hdescriptions]
  refine (congrArg (List.map _) (hpicked _)).trans ?_
  rw [List.map_singleton, shownBlock, Function.comp_apply, ordinals_ofScope, List.map_map,
    List.map_map]
  refine congrArg (fun names => [names]) (List.map_congr_left fun att hatt => ?_)
  exact enumeratorName_withoutReturn (isWord_attributeOrdinal hwell.protocol_name
    hnamed.parent.isWord (hnamed.members att hatt)) att.description

/-! ## Identifiers -/

/-- The tag of the identifiers of a group. -/
def idsTag (protocol parent : String) : String :=
  "_lcsf_" ++ lower protocol ++ "_" ++ lower parent ++ "_att_id"

/-- The line that gives an attribute its identifier. -/
def idLine (protocol parent : String) (att : Attribute) : String :=
  indent 1 (Naming.attributeId protocol parent att.name ++ " = " ++
    ("0x" ++ String.ofList (Text.hexCapitals att.id.toInt.toNat)) ++ ",")

/-- An identifier that is not negative is written as itself. -/
theorem toNat_toUInt16 {id : Int16} (h : 0 ≤ id) : id.toUInt16.toNat = id.toInt.toNat := by
  have hint : 0 ≤ id.toInt := Int16.le_iff_toInt_le.mp h
  have hcond := BitVec.toInt_eq_toNat_cond id.toBitVec
  have hlt := id.toBitVec.isLt
  have hbits : id.toInt = id.toBitVec.toInt := rfl
  have hnat : id.toUInt16.toNat = id.toBitVec.toNat := rfl
  rw [hnat]
  split at hcond <;> omega

/-- The enumeration of some identifiers in a bridge header. -/
def idsBlock (wireIds : WireIds) : TopBlock :=
  ⟨opening ("enum " ++ wireIds.tag), wireIds.ids.map fun entry =>
    indent 1 (entry.1 ++ " = " ++ Text.hexWord entry.2.toUInt16 ++ ",")⟩

theorem topBlocks_ids (wireIds : WireIds) (rest : List String) :
    topBlocks "enum " (wireIds.lines ++ rest) = idsBlock wireIds :: topBlocks "enum " rest := by
  have hhead : "enum ".toList.isPrefixOf (opening ("enum " ++ wireIds.tag)).toList = true := by
    simp [opening]
  have hids : ∀ line ∈ (idsBlock wireIds).body, "enum ".toList.isPrefixOf line.toList = false :=
    List.forall_mem_map.mpr fun _ _ => isPrefixOf_indent (by decide) _ 0 _
  have hinside : ∀ line ∈ (idsBlock wireIds).body, closesAt 0 line = false :=
    List.forall_mem_map.mpr fun _ _ => closesAt_indent (by decide) _
  have hending : ∀ line ∈ [closing ++ ";", ""], "enum ".toList.isPrefixOf line.toList = false := by
    decide
  have hlines : wireIds.lines ++ rest = opening ("enum " ++ wireIds.tag) ::
      ((idsBlock wireIds).body ++ (closing ++ ";") :: ([""] ++ rest)) := by
    simp [WireIds.lines, idsBlock]
  rw [hlines, topBlocks_block hhead hids hinside (by decide)]
  exact congrArg (List.cons _) (topBlocks_append hending rest)

/-- The lines of a bridge header in front of the enumeration of its commands. -/
def linesBeforeIds (header : BridgeHeader) : List String :=
  let guardName := includeGuard (Naming.bridgeHeaderFile header.protocol)
  banner (Naming.bridgeHeaderFile header.protocol) (header.protocol ++ " LCSF bridge module") ++
    ["#ifndef " ++ guardName, "#define " ++ guardName, "", "// *** Libraries include ***",
      "#include <lib_lcsf/lcsf_validator.h>",
      "#include \"" ++ Naming.mainHeaderFile header.protocol ++ "\"", "",
      "// *** Definitions ***", "// --- Public Constants ---", "", "// Lcsf protocol identifier",
      "#define " ++ protocolIdMacro header.protocol ++ " " ++ Text.hexWord header.id, "",
      "// Command identifier enum"]

/-- The lines of a bridge header behind its enumerations. -/
def linesBehindIds (header : BridgeHeader) : List String :=
  ["// Command number", header.commands.line, ""] ++
    BridgeHeader.countLines "// Command attribute number" header.attributeCounts ++
    BridgeHeader.countLines "// Attribute sub-attribute number" header.subAttributeCounts ++
    ["// --- Public Variables ---",
      "extern const lcsf_protocol_desc_t LCSF_" ++ header.protocol ++ "_ProtDesc;", "",
      "// --- Public Function Prototypes ---", "bool " ++ receiveSignature header.protocol ++ ";",
      "int " ++ encodeSignature header.protocol ++ ";", "",
      "#endif // " ++ includeGuard (Naming.bridgeHeaderFile header.protocol)]

theorem lines_bridgeHeader (header : BridgeHeader) : header.lines =
    linesBeforeIds header ++ (header.commandIds.lines ++
      ((if header.attributeIds.isEmpty then []
        else "// Attribute identifier enums" :: header.attributeIds.flatMap WireIds.lines) ++
          linesBehindIds header)) := by
  simp [BridgeHeader.lines, linesBeforeIds, linesBehindIds]

theorem linesBeforeIds_start (header : BridgeHeader) :
    ∀ line ∈ linesBeforeIds header, "enum ".toList.isPrefixOf line.toList = false := by
  simp [linesBeforeIds, banner, List.isPrefixOf]

theorem linesBehindIds_start (header : BridgeHeader) :
    ∀ line ∈ linesBehindIds header, "enum ".toList.isPrefixOf line.toList = false := by
  have hmacro (m : CountMacro) : "enum ".toList.isPrefixOf m.line.toList = false := by
    simp [CountMacro.line, List.isPrefixOf]
  have hcounts {title : String} (htitle : "enum ".toList.isPrefixOf title.toList = false)
      (macros : List CountMacro) : ∀ line ∈ BridgeHeader.countLines title macros,
        "enum ".toList.isPrefixOf line.toList = false := by
    rw [BridgeHeader.countLines]
    split
    next => exact List.forall_mem_nil _
    next =>
      simp only [List.forall_mem_append, List.forall_mem_singleton, List.forall_mem_map]
      exact ⟨⟨htitle, fun m _ => hmacro m⟩, by decide⟩
  simp only [linesBehindIds, List.forall_mem_append]
  refine ⟨⟨⟨?_, hcounts (by decide) _⟩, hcounts (by decide) _⟩, ?_⟩
  · simp only [List.forall_mem_cons]
    exact ⟨by decide, hmacro _, by decide, List.forall_mem_nil _⟩
  · unfold receiveSignature encodeSignature
    simp [List.isPrefixOf]

/-- The enumerations of a bridge header: that of its commands, and those of its scopes. -/
theorem topBlocks_bridgeHeader (header : BridgeHeader) :
    topBlocks "enum " header.lines =
      idsBlock header.commandIds :: header.attributeIds.map idsBlock := by
  have hbehind := topBlocks_eq_nil (linesBehindIds_start header)
  have hscopes : topBlocks "enum " ((if header.attributeIds.isEmpty then []
      else "// Attribute identifier enums" :: header.attributeIds.flatMap WireIds.lines) ++
        linesBehindIds header) = header.attributeIds.map idsBlock := by
    split
    next hempty => rw [List.nil_append, hbehind, List.isEmpty_iff.mp hempty, List.map_nil]
    next =>
      rw [List.cons_append, ← List.singleton_append,
        topBlocks_append (List.forall_mem_singleton.mpr (by decide)),
        topBlocks_flatMap fun ids _ => topBlocks_ids ids, hbehind, List.append_nil]
  rw [lines_bridgeHeader, topBlocks_append (linesBeforeIds_start header), topBlocks_ids, hscopes]

/-- One enumeration of the bridge header belongs to a group, and gives its members their
identifiers. -/
theorem ids_group (hwell : WellFormed protocol) {group : Group}
    (hgroup : group ∈ protocol.groups) :
    (enumsTagged (idsTag protocol.name group.parent)
      (BridgeHeader.build (Prepared.ofProtocol protocol)).lines).map (·.body) =
        [group.members.map (idLine protocol.name group.parent)] := by
  let header := BridgeHeader.build (Prepared.ofProtocol protocol)
  have hperm := (scopes_perm_groups hwell).map (WireIds.ofScope protocol.name)
  rw [List.map_map] at hperm
  have htag : ∀ group other : Group, (WireIds.ofScope protocol.name group.scope).tag =
      (WireIds.ofScope protocol.name other.scope).tag →
        lower group.parent = lower other.parent := by
    intro group other heq
    simpa [WireIds.ofScope, Group.scope] using heq
  have hcommands : (idsBlock header.commandIds).head ≠
      opening ("enum " ++ idsTag protocol.name group.parent) := by
    intro heq
    have hlength := congrArg (fun text => text.toList.length) heq
    simp [header, idsBlock, BridgeHeader.build, WireIds.ofCommands, Prepared.ofProtocol, opening,
      idsTag] at hlength
  have hline : ∀ att ∈ group.members, idLine protocol.name group.parent att =
      indent 1 (Naming.attributeId protocol.name group.parent att.name ++ " = " ++
        Text.hexWord att.id.toUInt16 ++ ",") := by
    intro att hatt
    have hmem := mem_attributes_of_mem_members hwell.children hgroup hatt
    rw [idLine, Text.hexWord, toNat_toUInt16 (hwell.attribute_ids_nonneg att hmem)]
  have hpicked := @filter_enums protocol _ (idsBlock header.commandIds) _ WireIds.tag idsBlock _
    hwell hperm (fun ids => rfl) htag group hgroup hcommands
  rw [enumsTagged, topBlocks_bridgeHeader]
  refine (congrArg (List.map _) hpicked).trans ?_
  rw [List.map_singleton, List.map_congr_left hline, ← map_entries_scope, Function.comp_apply,
    idsBlock, WireIds.ofScope, List.map_map]
  rfl

/-! ## Descriptor tables -/

/-- One table of the descriptor belongs to a group, and lists its members. -/
theorem table_group (hwell : WellFormed protocol) {group : Group}
    (hgroup : group ∈ protocol.groups) :
    (attributeTables (Descriptor.build (Prepared.ofProtocol protocol)).lines).filter
        (·.name == tableName protocol.name group.parent) = [group.table protocol.name] := by
  have hnames :
      (((definedGroups protocol).map (Group.table protocol.name)).map (·.name)).Nodup := by
    rw [List.map_map]
    exact nodup_tableNames hwell
  rw [attributeTables_build hwell]
  exact filter_key_eq_singleton hnames (List.mem_map_of_mem (mem_definedGroups.mpr hgroup))

/-- The length of a group's table is defined. -/
theorem defines_count (hwell : WellFormed protocol) {group : Group}
    (hgroup : group ∈ protocol.groups) :
    Defines (BridgeHeader.build (Prepared.ofProtocol protocol)).lines (group.count protocol.name)
      (toString group.members.length) := by
  rcases (mem_groups_iff hwell.children).mp hgroup with ⟨cmd, hcmd, rfl⟩ | hbelow
  · exact defines_attributeCount hwell hcmd
  · obtain ⟨parent, hparent, att, hatt, hcomplex, rfl⟩ := hbelow
    rw [← Group.map_node_own, List.mem_map] at hatt
    obtain ⟨p, hp, rfl⟩ := hatt
    rw [count_below protocol.name (named_of_mem_groups hwell hparent).ancestors_ne_nil]
    exact defines_subAttributeCount hwell ((own_sublist_positions hparent).subset hp) hcomplex

/-! ## Allocated arrays -/

/-- Where an assignment puts an array that it allocates, and the length of the array. -/
def allocation? (protocol : String) (sides : String × String) : Option (String × String) :=
  (between? ("LCSF_Bridge_" ++ protocol ++ "AllocateAtt(") ");" sides.2.toList).map (sides.1, ·)

/-- The array that a line allocates. -/
def allocated? (protocol line : String) : Option (String × String) :=
  (sides? line).bind (allocation? protocol)

end Firmware

/-- What an encoder allocates for a complex attribute: where the array is put, and its length. -/
def Position.array (protocol : String) (p : Position) : String × String :=
  ((p.element protocol Naming.transmitRoot).slotText .subArray,
    Naming.subAttributeCount protocol p.node.name)

namespace Firmware

open Text (lower)

variable {protocol : Protocol}

theorem allocation_call (protocol target count : String) :
    allocation? protocol (target, allocateCall protocol count ++ ";") = some (target, count) := by
  have hcall : allocateCall protocol count ++ ";" =
      "LCSF_Bridge_" ++ protocol ++ "AllocateAtt(" ++ count ++ ");" := by
    unfold allocateCall
    simp [← String.toList_inj]
  rw [allocation?, hcall, between_append, Option.map_some]

/-- Only what starts as a call does allocates. -/
theorem allocation_eq_none (protocol target : String) {value : String}
    (h : value.toList.head? ≠ some 'L' ∨ '(' ∉ value.toList) :
    allocation? protocol (target, value) = none := by
  rw [allocation?, between_eq_none, Option.map_none]
  intro hcall
  rcases h with hhead | hbrace
  · obtain ⟨rest, hrest⟩ := hcall
    exact hhead (by simp [← hrest])
  · refine hbrace (hcall.subset ?_)
    simp

/-- What is allocated among the assignments of an attribute. -/
theorem filterMap_allocation {protocol : String} {p : Position} {storage : Storage}
    (hprotocol : IsName protocol) (hname : IsName p.node.name)
    (hstorage : p.node.dataType.storage = some storage) :
    (p.encodeSides protocol storage).filterMap (allocation? protocol) =
      if p.node.isComplex then [p.array protocol] else [] := by
  have hnested : p.node.isComplex = true ↔ storage = .nested := by
    rw [← Attribute.storage_eq_nested_iff, hstorage, Option.some_inj]
  have hplace (target member : String) :
      allocation? protocol (target, (p.place member).text ++ ";") = none :=
    allocation_eq_none _ _ (.inl (by simp [Place.text]))
  have hother (target : String) {value : String} (h : value.toList.head? ≠ some 'L') :=
    allocation_eq_none protocol target (.inl h)
  cases storage with
  | scalar scalar =>
      rw [if_neg (by simp [hnested])]
      simp [Position.encodeSides, hother]
  | bytes =>
      rw [if_neg (by simp [hnested])]
      simp [Position.encodeSides, hplace]
  | text =>
      rw [if_neg (by simp [hnested])]
      simp [Position.encodeSides, hplace, hother]
  | nested =>
      have hcount : '(' ∉ (Naming.subAttributeCount protocol p.node.name ++ ";").toList := by
        rw [String.toList_append, List.mem_append, not_or]
        exact ⟨(isWord_subAttributeCount hprotocol hname).avoids (by decide : ∀ c ∈ ['('], _) _
          (List.mem_singleton_self _), by decide⟩
      rw [if_pos (hnested.mpr rfl)]
      simp [Position.encodeSides, allocation_eq_none _ _ (.inr hcount), allocation_call,
        Position.array]

/-- The arrays that an encoder allocates: its own, and one for each complex attribute. -/
theorem allocations_encoder (hwell : WellFormed protocol) {cmd : Command}
    (hcmd : cmd ∈ protocol.commands) :
    (Encoder.ofCommand protocol.name cmd).lines.filterMap (allocated? protocol.name) =
      ("*pAttArrayPtr", cmd.group.count protocol.name) ::
        (cmd.positions.filter (·.node.isComplex)).map (Position.array protocol.name) := by
  have habsent (target : String) : allocation? protocol.name (target, "NULL;") = none :=
    allocation_eq_none _ _ (.inl (by decide))
  have hvalues : (cmd.positions.flatMap (·.stored fun p storage =>
      (p.encodeSides protocol.name storage).filterMap (allocation? protocol.name))) =
        cmd.positions.flatMap fun p =>
          if p.node.isComplex then [p.array protocol.name] else [] := by
    refine List.flatMap_congr fun p hp => ?_
    obtain ⟨-, hnames, storage, hstorage⟩ := stores_position hwell hcmd hp
    rw [Position.stored_eq hstorage]
    exact filterMap_allocation hwell.protocol_name (isName_node hnames) hstorage
  refine (read_encoder hwell hcmd habsent).trans ?_
  rw [allocation_call, hvalues, flatMap_kept]
  rfl

/-! ## All artifacts -/

/-- The enumerations of the headers, the descriptor table and the count of a group list its
members in their order. -/
structure ListsMembers (protocol : Protocol) (prepared : Prepared) (group : Group) : Prop where
  /-- A description with a newline may add to the enumerators. -/
  ordinals : (∀ att ∈ protocol.attributes, '\n' ∉ att.description.toList) →
    (enumsTagged (ordinalsTag protocol.name group.parent)
      (Text.lines (MainHeader.build prepared none).text)).map (·.body.map enumeratorName) =
        [group.members.map fun att => Naming.attributeOrdinal protocol.name group.parent att.name]
  ids : (enumsTagged (idsTag protocol.name group.parent) (BridgeHeader.build prepared).lines).map
    (·.body) = [group.members.map (idLine protocol.name group.parent)]
  table : (attributeTables (Descriptor.build prepared).lines).filter
    (·.name == tableName protocol.name group.parent) = [group.table protocol.name]
  count : Defines (BridgeHeader.build prepared).lines (group.count protocol.name)
    (toString group.members.length)

/-- All artifacts of a prepared protocol agree on the attributes of every group, but for the
enumerators that descriptions may add, and encoders allocate arrays under the counts of the
tables. -/
theorem lists_agreement {prepared : Prepared} (hprepare : prepare protocol = .ok prepared) :
    (∀ group ∈ protocol.groups, ListsMembers protocol prepared group) ∧
    ∀ role, ∀ cmd ∈ protocol.encoded role,
      (Encoder.ofCommand protocol.name cmd).lines <:+: (Bridge.build prepared role).lines ∧
        (Encoder.ofCommand protocol.name cmd).lines.filterMap (allocated? protocol.name) =
          ("*pAttArrayPtr", cmd.group.count protocol.name) ::
            (cmd.positions.filter (·.node.isComplex)).map fun p =>
              ((p.element protocol.name Naming.transmitRoot).slotText .subArray,
                p.below.count protocol.name) := by
  obtain ⟨rfl, hwell⟩ := wellFormed_of_prepare hprepare
  constructor
  · intro group hgroup
    constructor
    case ordinals => exact fun hdescriptions => ordinals_group hwell hdescriptions hgroup
    case ids => exact ids_group hwell hgroup
    case table => exact table_group hwell hgroup
    case count => exact defines_count hwell hgroup
  · intro role cmd hcmd
    have hmem := List.mem_of_mem_filter hcmd
    refine ⟨@encoder_emitted (Prepared.ofProtocol protocol) role cmd hcmd, ?_⟩
    rw [allocations_encoder hwell hmem]
    refine congrArg (List.cons _) (List.map_congr_left fun p hp => ?_)
    have hposition := (stores_position hwell hmem (List.mem_of_mem_filter hp)).1
    have hgroup := (group_of_mem_positions hwell.children hposition).1
    rw [Position.below, count_below protocol.name
      (named_of_mem_groups hwell hgroup).ancestors_ne_nil, Position.array]

theorem lists_agreement_meter :
    prepare meter = .ok (Prepared.ofProtocol meter) ∧
    (∀ group ∈ meter.groups, ListsMembers meter (Prepared.ofProtocol meter) group) ∧
    ∀ role, ∀ cmd ∈ meter.encoded role,
      (Encoder.ofCommand meter.name cmd).lines <:+:
          (Bridge.build (Prepared.ofProtocol meter) role).lines ∧
        (Encoder.ofCommand meter.name cmd).lines.filterMap (allocated? meter.name) =
          ("*pAttArrayPtr", cmd.group.count meter.name) ::
            (cmd.positions.filter (·.node.isComplex)).map fun p =>
              ((p.element meter.name Naming.transmitRoot).slotText .subArray,
                p.below.count meter.name) :=
  ⟨prepare_meter, lists_agreement prepare_meter⟩

/-! ## A description of two lines -/

private def spare : Protocol :=
  ⟨"Valve", 3, [⟨"Open", 1, .aToB,
    [⟨"Angle", 1, false, .uint8, [], "0 is closed\nVALVE_SPARE,"⟩], ""⟩]⟩

private def spareHeader : MainHeader :=
  MainHeader.build (Prepared.ofProtocol spare) none

/-- The lines of this header in front of its only ordinal. -/
private def spareFront : List String :=
  linesBefore spareHeader ++ opening ("enum _" ++ lower "Valve" ++ "_cmd_names") ::
    (spareHeader.commands.map (fun name => indent 1 (name ++ ",")) ++ (closing ++ ";") ::
      ["", "// Attributes enums", opening ("enum " ++ ordinalsTag "Valve" "Open")])

private theorem lines_spare : spareHeader.lines = spareFront ++
    ScopeNames.ordinalLine ("VALVE_OPEN_ATT_ANGLE", "0 is closed\nVALVE_SPARE,") ::
      (closing ++ ";") :: "" :: linesBehind spareHeader := by
  have hscopes : spareHeader.scopes = [⟨ordinalsTag "Valve" "Open",
      [("VALVE_OPEN_ATT_ANGLE", "0 is closed\nVALVE_SPARE,")], []⟩] := rfl
  rw [lines_mainHeader, hscopes, spareFront]
  simp [MainHeader.titled, ScopeNames.lines]
  rfl

/-- The lines of its text from the ordinal on. -/
private def spareRest : List String :=
  [indent 1 "VALVE_OPEN_ATT_ANGLE, // 0 is closed", "VALVE_SPARE,"] ++
    (closing ++ ";") :: ([""] ++ linesBehind spareHeader)

private theorem lines_text_spare :
    Text.lines spareHeader.text = (spareFront ++ spareRest).map Text.withoutReturn := by
  have hwell : WellFormed spare := (wellFormed_of_prepare (rfl : prepare spare = _)).2
  have hbroken : (ScopeNames.ordinalLine
      ("VALVE_OPEN_ATT_ANGLE", "0 is closed\nVALVE_SPARE,")).toList =
        (indent 1 "VALVE_OPEN_ATT_ANGLE, // 0 is closed").toList ++
          '\n' :: "VALVE_SPARE,".toList := by
    decide
  have hplain {line : String} (h : Avoids ['\n'] line) : '\n' ∉ line.toList :=
    h '\n' (List.mem_singleton_self _)
  obtain ⟨hhead, hcommands⟩ := newline_commands hwell
  rw [MainHeader.text, lines_spare, Text.unlines_newline spareFront _ hbroken]
  refine Text.lines_unlines_of_newline_free (List.forall_mem_append.mpr ⟨?front, ?rest⟩)
  case front =>
    rw [spareFront, List.forall_mem_append, List.forall_mem_cons, List.forall_mem_append,
      List.forall_mem_map]
    exact ⟨fun line hline => hplain (newline_linesBefore hwell line hline), hplain hhead,
      fun name hname => hplain (hcommands name hname), by decide⟩
  case rest =>
    simp only [List.forall_mem_cons]
    exact ⟨by decide, by decide, by decide, by decide, newline_linesBehind hwell⟩

private theorem topBlocks_spare : topBlocks "enum " (spareFront ++ spareRest) =
    [⟨opening ("enum _" ++ lower "Valve" ++ "_cmd_names"),
        spareHeader.commands.map fun name => indent 1 (name ++ ",")⟩,
      ⟨opening ("enum " ++ ordinalsTag "Valve" "Open"),
        [indent 1 "VALVE_OPEN_ATT_ANGLE, // 0 is closed", "VALVE_SPARE,"]⟩] := by
  have hcommands : ∀ line ∈ spareHeader.commands.map fun name => indent 1 (name ++ ","),
      "enum ".toList.isPrefixOf line.toList = false ∧ closesAt 0 line = false :=
    List.forall_mem_map.mpr fun _ _ =>
      ⟨isPrefixOf_indent (by decide) _ 0 _, closesAt_indent (by decide) _⟩
  have hbehind : ∀ line ∈ (closing ++ ";") :: ([""] ++ linesBehind spareHeader),
      "enum ".toList.isPrefixOf line.toList = false :=
    List.forall_mem_cons.mpr ⟨by decide, List.forall_mem_append.mpr
      ⟨by decide, forall_opensEnum_linesBehind (Prepared.ofProtocol spare)⟩⟩
  have hscope : topBlocks "enum " (opening ("enum " ++ ordinalsTag "Valve" "Open") :: spareRest) =
      ⟨opening ("enum " ++ ordinalsTag "Valve" "Open"),
        [indent 1 "VALVE_OPEN_ATT_ANGLE, // 0 is closed", "VALVE_SPARE,"]⟩ ::
          topBlocks "enum " ((closing ++ ";") :: ([""] ++ linesBehind spareHeader)) :=
    topBlocks_block (by decide) (by decide) (by decide) (by decide) _
  have hending : ∀ line ∈ [closing ++ ";", "", "// Attributes enums"],
      "enum ".toList.isPrefixOf line.toList = false := by
    decide
  have hlines : spareFront ++ spareRest = linesBefore spareHeader ++
      opening ("enum _" ++ lower "Valve" ++ "_cmd_names") ::
        (spareHeader.commands.map (fun name => indent 1 (name ++ ",")) ++ (closing ++ ";") ::
          (["", "// Attributes enums"] ++
            opening ("enum " ++ ordinalsTag "Valve" "Open") :: spareRest)) := by
    simp [spareFront]
  rw [topBlocks_eq_nil hbehind] at hscope
  rw [hlines, topBlocks_append (forall_opensEnum_linesBefore spareHeader),
    topBlocks_block (by decide) (fun line hline => (hcommands line hline).1)
      (fun line hline => (hcommands line hline).2) (by decide)]
  exact congrArg (List.cons _) ((topBlocks_append hending _).trans hscope)

/-- A description with a newline is accepted, and what is behind the newline is an enumerator. -/
theorem not_lists_agreement_spare :
    prepare spare = .ok (Prepared.ofProtocol spare) ∧
      (enumsTagged (ordinalsTag "Valve" "Open")
        (Text.lines (MainHeader.build (Prepared.ofProtocol spare) none).text)).map
          (·.body.map enumeratorName) ≠ [["VALVE_OPEN_ATT_ANGLE"]] := by
  refine ⟨rfl, ?_⟩
  have hblocks := lines_text_spare
  rw [spareHeader] at hblocks
  rw [enumsTagged, hblocks, topBlocks_withoutReturn (by decide), topBlocks_spare]
  decide

end Firmware
end CommandSet
