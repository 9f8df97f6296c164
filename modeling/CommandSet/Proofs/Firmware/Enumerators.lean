import CommandSet.Proofs.Firmware.Counts
import CommandSet.Proofs.Firmware.Handlers
import CommandSet.Proofs.Protocol.Groups
import CommandSet.Proofs.Protocol.Scopes

/-!
# Constants of the main header

The main header gives names to numbers: enumerators for the commands, their count and the
attributes, and macros for the presence flags.  All of them are read off its lines here.

Main definitions:

- {lit}`enumerators`, {lit}`flagName?`: the constants that lines define.
- {lit}`constants`: all of them.
- {lit}`Group.words`: what the constants of a group end in.

Main results:

- Theorem {lit}`enumerators_mainHeader`: the enumerators of a main header.
- Theorem {lit}`constants_perm`: all constants of a main header, by commands and groups.
-/

namespace CommandSet
namespace Firmware

open Text (lower upper)

/-! ## Enumerations -/

/-- Lines that open an enumeration. -/
def opensEnum (line : String) : Bool :=
  "enum ".toList.isPrefixOf line.toList

/-- Lines that close a block. -/
def closesBlock (line : String) : Bool :=
  closing.toList.isPrefixOf line.toList

/-- The name on the line of an enumerator: what is in front of the comma. -/
def enumeratorName (line : String) : String :=
  String.ofList ((line.toList.dropWhile (· == ' ')).takeWhile (· != ','))

/-- The enumerators on some lines; {lit}`inside` says whether an enumeration is open. -/
def enumeratorsFrom (inside : Bool) : List String → List String
  | [] => []
  | line :: rest =>
      if inside then
        if closesBlock line then enumeratorsFrom false rest
        else enumeratorName line :: enumeratorsFrom true rest
      else enumeratorsFrom (opensEnum line) rest

/-- The enumerators that lines define. -/
def enumerators (lines : List String) : List String :=
  enumeratorsFrom false lines

/-- Lines that open no enumeration define no enumerator. -/
theorem enumerators_append {front : List String} (h : ∀ line ∈ front, opensEnum line = false)
    (rest : List String) : enumerators (front ++ rest) = enumerators rest := by
  induction front with
  | nil => rfl
  | cons line front ih =>
      rw [List.forall_mem_cons] at h
      rw [List.cons_append, enumerators, enumeratorsFrom, h.1]
      exact ih h.2

theorem enumerators_eq_nil {lines : List String} (h : ∀ line ∈ lines, opensEnum line = false) :
    enumerators lines = [] := by
  have happend := enumerators_append h []
  rwa [List.append_nil] at happend

/-- An enumeration defines a name on each line up to the one that closes it. -/
theorem enumerators_block {head last : String} {body : List String} (hhead : opensEnum head = true)
    (hbody : ∀ line ∈ body, closesBlock line = false) (hlast : closesBlock last = true)
    (rest : List String) :
    enumerators (head :: (body ++ last :: rest)) =
      body.map enumeratorName ++ enumerators rest := by
  have hinside : enumeratorsFrom true (body ++ last :: rest) =
      body.map enumeratorName ++ enumerators rest := by
    induction body with
    | nil =>
        rw [List.nil_append, enumeratorsFrom, hlast]
        rfl
    | cons line body ih =>
        rw [List.forall_mem_cons] at hbody
        rw [List.cons_append, enumeratorsFrom, hbody.1, ih hbody.2]
        rfl
  rw [enumerators, enumeratorsFrom, hhead, ← hinside]
  rfl

/-- The line of an enumerator shows its name. -/
theorem enumeratorName_indent {name : String} (h : IsWord name) (level : Nat) (rest : String) :
    enumeratorName (indent level (name ++ "," ++ rest)) = name := by
  have hblank : ∀ c ∈ name.toList, (c == ' ') = false := fun c hc =>
    beq_eq_false_iff_ne.mpr fun heq => h.blank_not_mem (heq ▸ hc)
  have hcomma : ∀ c ∈ name.toList, (c != ',') = true := fun c hc =>
    bne_iff_ne.mpr fun heq => (by decide : ¬IsNameRest ',') (heq ▸ h c hc)
  have hlist : (indent level (name ++ "," ++ rest)).toList =
      List.replicate (4 * level) ' ' ++ (name.toList ++ ',' :: rest.toList) := by
    simp [toList_indent, String.toList_append]
  have hdrop : (name.toList ++ ',' :: rest.toList).dropWhile (· == ' ') =
      name.toList ++ ',' :: rest.toList := by
    cases hname : name.toList with
    | nil => rfl
    | cons c tail =>
        rw [List.cons_append, List.dropWhile_cons_of_neg]
        rw [hblank c (hname ▸ List.mem_cons_self)]
        exact Bool.false_ne_true
  rw [enumeratorName, hlist, List.dropWhile_append_of_pos (by simp), hdrop,
    List.takeWhile_append_of_pos hcomma, List.takeWhile_cons_of_neg (by decide), List.append_nil,
    String.ofList_toList]

@[simp]
theorem closesBlock_indent (level : Nat) (text : String) :
    closesBlock (indent (level + 1) text) = false := by
  simp [closesBlock, closing, toList_indent, Nat.mul_succ, List.replicate_succ, List.isPrefixOf]

@[simp]
theorem opensEnum_indent (level : Nat) (text : String) :
    opensEnum (indent (level + 1) text) = false := by
  simp [opensEnum, toList_indent, Nat.mul_succ, List.replicate_succ, List.isPrefixOf]

/-! ## Enumerators of the main header -/

@[simp]
theorem opensEnum_empty : opensEnum "" = false := by
  simp [opensEnum]

theorem forall_opensEnum_banner (file brief : String) :
    ∀ line ∈ banner file brief, opensEnum line = false := by
  simp [banner, opensEnum, List.isPrefixOf]

theorem forall_opensEnum_record (record : Record) :
    ∀ line ∈ record.lines, opensEnum line = false := by
  have hopening : opensEnum (opening ("typedef " ++ record.kind.word ++ " " ++
      Naming.structTag record.typeName)) = false := by
    simp [opensEnum, opening, List.isPrefixOf]
  have hclosing : opensEnum (closing ++ " " ++ record.typeName ++ ";") = false := by
    simp [opensEnum, closing, List.isPrefixOf]
  simp only [Record.lines, List.forall_mem_append, List.forall_mem_cons, List.forall_mem_map]
  simp [hopening, hclosing, opensEnum_empty]

theorem forall_opensEnum_structs {title : String} (htitle : opensEnum title = false)
    (shown : Bool) (records : List Record) :
    ∀ line ∈ MainHeader.titled shown title (records.flatMap Record.lines),
      opensEnum line = false := by
  intro line hline
  cases shown with
  | false => exact absurd hline List.not_mem_nil
  | true =>
      rcases List.mem_cons.mp hline with rfl | hline
      · exact htitle
      · obtain ⟨record, -, hrecord⟩ := List.mem_flatMap.mp hline
        exact forall_opensEnum_record record line hrecord

theorem forall_opensEnum_docBlock (doc : DocBlock) :
    ∀ line ∈ doc.lines, opensEnum line = false := by
  simp only [DocBlock.lines, List.forall_mem_append, List.forall_mem_cons, List.forall_mem_map]
  simp [opensEnum, List.isPrefixOf]

/-- The flags of a scope, with the blank line after them. -/
def flagLines (names : ScopeNames) : List String :=
  if names.flags.isEmpty then [] else names.flags.map PresenceFlag.line ++ [""]

theorem enumerators_scope (names : ScopeNames) (rest : List String) :
    enumerators (names.lines ++ rest) =
      names.ordinals.map (enumeratorName ∘ ScopeNames.ordinalLine) ++ enumerators rest := by
  have hopening : opensEnum (opening ("enum " ++ names.tag)) = true := by
    simp [opensEnum, opening, List.isPrefixOf]
  have hordinals : ∀ line ∈ names.ordinals.map ScopeNames.ordinalLine,
      closesBlock line = false := by
    rw [List.forall_mem_map]
    exact fun ordinal _ => closesBlock_indent 0 _
  have hflags : ∀ line ∈ "" :: flagLines names, opensEnum line = false := by
    have hmacros : ∀ line ∈ names.flags.map PresenceFlag.line, opensEnum line = false := by
      rw [List.forall_mem_map]
      simp [opensEnum, PresenceFlag.line, List.isPrefixOf]
    rw [flagLines]
    split
    · simp
    · simp only [List.forall_mem_cons, List.forall_mem_append]
      simpa using hmacros
  have hlines : names.lines ++ rest = opening ("enum " ++ names.tag) ::
      (names.ordinals.map ScopeNames.ordinalLine ++
        (closing ++ ";") :: ("" :: flagLines names ++ rest)) := by
    simp [ScopeNames.lines, flagLines]
  rw [hlines, enumerators_block hopening hordinals (by decide), enumerators_append hflags,
    List.map_map]

theorem enumerators_scopes (scopes : List ScopeNames) (rest : List String) :
    enumerators (scopes.flatMap ScopeNames.lines ++ rest) =
      scopes.flatMap (fun names => names.ordinals.map (enumeratorName ∘ ScopeNames.ordinalLine)) ++
        enumerators rest := by
  induction scopes with
  | nil => rfl
  | cons names scopes ih =>
      rw [List.flatMap_cons, List.append_assoc, enumerators_scope, ih, List.flatMap_cons,
        List.append_assoc]

theorem forall_opensEnum_publicFunctions (protocol : String) :
    ∀ line ∈ (defaultPublicFunctions protocol).flatMap MainHeader.declarationLines,
      opensEnum line = false := by
  intro line hline
  obtain ⟨function, hfunction, hline⟩ := List.mem_flatMap.mp hline
  rw [MainHeader.declarationLines, List.mem_append, List.mem_cons, List.mem_singleton] at hline
  rcases hline with hdoc | rfl | rfl
  · simp only [defaultPublicFunctions, List.mem_cons, List.not_mem_nil, or_false] at hfunction
    rcases hfunction with rfl | rfl <;> exact forall_opensEnum_docBlock _ line hdoc
  · obtain ⟨rest, hrest⟩ := toList_prototype_default hfunction
    simp [opensEnum, hrest, List.isPrefixOf]
  · exact opensEnum_empty

/-- The lines of a main header in front of the enumeration of its commands. -/
def linesBefore (header : MainHeader) : List String :=
  banner (Naming.mainHeaderFile header.protocol) (header.protocol ++ " protocol module") ++
    ["#ifndef " ++ includeGuard (Naming.mainHeaderFile header.protocol),
      "#define " ++ includeGuard (Naming.mainHeaderFile header.protocol), "",
      "// *** Libraries include ***", "#include <stdbool.h>", "#include <stddef.h>",
      "#include <stdint.h>", "", "// *** Definitions ***", "// --- Public Types ---", "",
      "// Command name enum"]

/-- The lines of a main header behind its scopes. -/
def linesBehind (header : MainHeader) : List String :=
  MainHeader.titled header.nesting "// Attribute with sub-attributes structures"
      (header.nested.flatMap Record.lines) ++
    MainHeader.titled (!header.payloads.isEmpty) "// Command data structures"
      (header.payloads.flatMap Record.lines) ++
    ["// Command payload union"] ++ header.union.lines ++
    ["// --- Public Function Prototypes ---", ""] ++
    header.publicFunctions.flatMap MainHeader.declarationLines ++
    ["#endif // " ++ includeGuard (Naming.mainHeaderFile header.protocol)]

/-- A main header enumerates its commands, then the attributes of its scopes. -/
theorem lines_mainHeader (header : MainHeader) :
    header.lines = linesBefore header ++
      opening ("enum _" ++ lower header.protocol ++ "_cmd_names") ::
        (header.commands.map (fun name => indent 1 (name ++ ",")) ++ (closing ++ ";") :: "" ::
          (MainHeader.titled (!header.scopes.isEmpty) "// Attributes enums"
            (header.scopes.flatMap ScopeNames.lines) ++ linesBehind header)) := by
  simp [MainHeader.lines, linesBefore, linesBehind]

theorem forall_opensEnum_linesBefore (header : MainHeader) :
    ∀ line ∈ linesBefore header, opensEnum line = false := by
  rw [linesBefore, List.forall_mem_append]
  refine ⟨forall_opensEnum_banner _ _, ?_⟩
  simp [opensEnum, List.isPrefixOf]

theorem forall_opensEnum_linesBehind (prepared : Prepared) :
    ∀ line ∈ linesBehind (MainHeader.build prepared none), opensEnum line = false := by
  have hfixed : ∀ line ∈ ["// Command payload union", "// --- Public Function Prototypes ---", ""],
      opensEnum line = false := by
    decide
  simp only [linesBehind, List.forall_mem_append]
  refine ⟨⟨⟨⟨⟨⟨?_, ?_⟩, ?_⟩, ?_⟩, ?_⟩, ?_⟩, ?_⟩
  · exact forall_opensEnum_structs (by decide) _ _
  · exact forall_opensEnum_structs (by decide) _ _
  · exact fun line hline => hfixed line (List.mem_cons.mpr (Or.inl (List.mem_singleton.mp hline)))
  · exact forall_opensEnum_record _
  · exact fun line hline => hfixed line (List.mem_cons_of_mem _ hline)
  · exact forall_opensEnum_publicFunctions _
  · simp [opensEnum, List.isPrefixOf]

/-- A main header enumerates its commands, then the attributes of every scope. -/
theorem enumerators_mainHeader {header : MainHeader}
    (hbehind : ∀ line ∈ linesBehind header, opensEnum line = false) :
    enumerators header.lines =
      header.commands.map (fun name => enumeratorName (indent 1 (name ++ ","))) ++
        header.scopes.flatMap fun names =>
          names.ordinals.map fun ordinal => enumeratorName (ScopeNames.ordinalLine ordinal) := by
  have hopening : opensEnum (opening ("enum _" ++ lower header.protocol ++ "_cmd_names")) =
      true := by
    simp [opensEnum, opening, List.isPrefixOf]
  have hcommands : ∀ line ∈ header.commands.map fun name => indent 1 (name ++ ","),
      closesBlock line = false := by
    rw [List.forall_mem_map]
    exact fun name _ => closesBlock_indent 0 _
  have hblank : ∀ line ∈ [""], opensEnum line = false := by decide
  have htitle : ∀ line ∈ ["// Attributes enums"], opensEnum line = false := by decide
  have hscopes : enumerators (MainHeader.titled (!header.scopes.isEmpty) "// Attributes enums"
      (header.scopes.flatMap ScopeNames.lines) ++ linesBehind header) =
      header.scopes.flatMap fun names =>
        names.ordinals.map fun ordinal => enumeratorName (ScopeNames.ordinalLine ordinal) := by
    cases hempty : header.scopes.isEmpty with
    | true =>
        simpa [MainHeader.titled, List.isEmpty_iff.mp hempty] using enumerators_eq_nil hbehind
    | false =>
        rw [Bool.not_false, MainHeader.titled, if_pos rfl, ← List.singleton_append,
          List.append_assoc, enumerators_append htitle, enumerators_scopes,
          enumerators_eq_nil hbehind, List.append_nil]
        rfl
  rw [lines_mainHeader, enumerators_append (forall_opensEnum_linesBefore header),
    enumerators_block hopening hcommands (by decide), List.map_map, ← List.singleton_append,
    enumerators_append hblank, hscopes]
  rfl

/-! ## Flags of the main header -/

/-- The presence flag that a line defines: a macro whose name ends in {lit}`_FLAG`. -/
def flagName? (line : String) : Option String :=
  let name := (line.toList.drop "#define ".length).takeWhile (· != ' ')
  if isDefine line && "_FLAG".toList.isSuffixOf name then some (String.ofList name) else none

theorem filterMap_flagName (lines : List String) :
    lines.filterMap flagName? = (lines.filter isDefine).filterMap flagName? := by
  rw [List.filterMap_filter]
  refine List.filterMap_congr fun line _ => ?_
  cases hdefine : isDefine line with
  | false => simp [flagName?, hdefine]
  | true => rfl

/-- The name of a main header is a word but for its dot. -/
theorem mem_mainHeaderFile {protocol : String} (h : IsName protocol) :
    ∀ c ∈ (Naming.mainHeaderFile protocol).toList, IsNameRest c ∨ c = '.' := by
  intro c hc
  rw [Naming.mainHeaderFile, String.toList_append, List.mem_append] at hc
  rcases hc with hc | hc
  · exact Or.inl (h.isWord c hc)
  · have hending : "_Main.h".toList = "_Main".toList ++ ['.', 'h'] := rfl
    rw [hending, List.mem_append, List.mem_cons, List.mem_singleton] at hc
    rcases hc with hc | rfl | rfl
    · exact Or.inl ((IsWord.fixed rfl : IsWord "_Main") c hc)
    · exact Or.inr rfl
    · exact Or.inl (isNameRest_iff.mp rfl)

/-- An include guard is in small letters, so it is no flag. -/
theorem flagName_guard {protocol : String} (h : IsName protocol) :
    flagName? ("#define " ++ includeGuard (Naming.mainHeaderFile protocol)) = none := by
  have hcapital := capital_not_mem_includeGuard (mem_mainHeaderFile h) (rfl : 'F'.isUpper = true)
  have hsuffix : "_FLAG".toList.isSuffixOf ((includeGuard (Naming.mainHeaderFile protocol)).toList
      |>.takeWhile (· != ' ')) = false := by
    rw [Bool.eq_false_iff, ne_eq, List.isSuffixOf_iff_suffix]
    intro hsuffix
    refine hcapital ((List.takeWhile_prefix _).subset (hsuffix.subset ?_))
    decide
  have hdrop : (("#define " ++ includeGuard (Naming.mainHeaderFile protocol)).toList.drop
      "#define ".length) = (includeGuard (Naming.mainHeaderFile protocol)).toList := by
    rw [String.toList_append, ← String.length_toList, List.drop_left]
  rw [flagName?, hdrop, hsuffix, Bool.and_false]
  rfl

theorem flagName_flag {flag : PresenceFlag} (h : IsWord flag.name)
    (hflag : "_FLAG".toList <:+ flag.name.toList) : flagName? flag.line = some flag.name := by
  have hblank : ∀ c ∈ flag.name.toList, (c != ' ') = true := fun c hc =>
    bne_iff_ne.mpr fun heq => h.blank_not_mem (heq ▸ hc)
  have hname : (flag.line.toList.drop "#define ".length).takeWhile (· != ' ') =
      flag.name.toList := by
    have hlist : flag.line.toList =
        "#define ".toList ++
          (flag.name.toList ++ ' ' :: (flag.width.flagValue flag.index).toList) := by
      simp [PresenceFlag.line, String.toList_append]
    rw [hlist, ← String.length_toList, List.drop_left, List.takeWhile_append_of_pos hblank,
      List.takeWhile_cons_of_neg (by decide), List.append_nil]
  rw [flagName?, hname, isDefine_flag, List.isSuffixOf_iff_suffix.mpr hflag, Bool.and_self,
    if_pos rfl, String.ofList_toList]

/-! ## All constants -/

/-- The constants that the lines of a main header define: its enumerators and its presence
flags. -/
def constants (lines : List String) : List String :=
  enumerators lines ++ lines.filterMap flagName?

/-- The constant of a command. -/
def commandConstant (protocol word : String) : String :=
  upper protocol ++ "_CMD_" ++ word

/-- A constant of an attribute under some parent. -/
def attributeConstant (protocol parent word : String) : String :=
  upper protocol ++ "_" ++ upper parent ++ "_ATT_" ++ word

end Firmware

/-- What the constants of the commands end in, the count last. -/
def Protocol.commandWords (protocol : Protocol) : List String :=
  protocol.commands.map (fun cmd => Text.upper cmd.name) ++ ["COUNT"]

/-- What the constants of a group end in: the names of its attributes, and those of the optional
ones with the ending of a flag. -/
def Group.words (group : Group) : List String :=
  group.members.map (fun att => Text.upper att.name) ++
    (group.members.filter (·.optional)).map fun att => Text.upper att.name ++ "_FLAG"

namespace Firmware

variable {protocol : Protocol}

theorem ordinals_ofScope (protocol : String) (group : Group) :
    (ScopeNames.ofScope protocol group.scope).ordinals =
      group.members.map fun att =>
        (Naming.attributeOrdinal protocol group.parent att.name, att.description) := by
  dsimp only [ScopeNames.ofScope, Group.scope]
  rw [← Group.map_node_own, List.map_map, List.map_map]
  rfl

theorem names_flags_ofScope (protocol : String) (group : Group) :
    (ScopeNames.ofScope protocol group.scope).flags.map (·.name) =
      (group.members.filter (·.optional)).map fun att =>
        Naming.attributeFlag protocol group.parent att.name := by
  dsimp only [ScopeNames.ofScope, Group.scope]
  rw [← Group.map_node_own, List.filter_map, List.filter_map, List.map_map, List.map_map,
    List.map_map]
  rfl

theorem isWord_commandConstant {protocol word : String} (hprotocol : IsName protocol)
    (hword : IsWord word) : IsWord (commandConstant protocol word) :=
  (hprotocol.isWord.upper.append (.fixed rfl)).append hword

theorem isWord_of_mem_commandWords (hwell : WellFormed protocol) {word : String}
    (hword : word ∈ protocol.commandWords) : IsWord word := by
  rw [Protocol.commandWords, List.mem_append, List.mem_map, List.mem_singleton] at hword
  rcases hword with ⟨cmd, hcmd, rfl⟩ | rfl
  · exact (hwell.command_names cmd hcmd).isWord.upper
  · exact .fixed rfl

/-- The commands of a main header. -/
theorem commands_mainHeader (prepared : Prepared) :
    (MainHeader.build prepared none).commands =
      prepared.protocol.commandWords.map (commandConstant prepared.protocol.name) := by
  have hcount : Naming.commandCount prepared.protocol.name =
      commandConstant prepared.protocol.name "COUNT" := by
    simp [Naming.commandCount, commandConstant, ← String.toList_inj]
  rw [MainHeader.build, Protocol.commandWords, List.map_append, List.map_map, hcount]
  rfl

theorem enumeratorNames_commands (hwell : WellFormed protocol) :
    (protocol.commandWords.map (commandConstant protocol.name)).map (fun name =>
        enumeratorName (indent 1 (name ++ ","))) =
      protocol.commandWords.map (commandConstant protocol.name) := by
  rw [List.map_map]
  refine List.map_congr_left fun word hword => ?_
  have hname := enumeratorName_indent
    (isWord_commandConstant hwell.protocol_name (isWord_of_mem_commandWords hwell hword)) 1 ""
  rwa [String.append_empty] at hname

theorem enumeratorNames_group (hwell : WellFormed protocol) {group : Group}
    (hgroup : group ∈ protocol.groups) :
    (ScopeNames.ofScope protocol.name group.scope).ordinals.map (fun ordinal =>
        enumeratorName (ScopeNames.ordinalLine ordinal)) =
      group.members.map fun att => Naming.attributeOrdinal protocol.name group.parent att.name := by
  rw [ordinals_ofScope, List.map_map]
  refine List.map_congr_left fun att hatt => ?_
  have hnamed := named_of_mem_groups hwell hgroup
  exact enumeratorName_indent (isWord_attributeOrdinal hwell.protocol_name hnamed.parent.isWord
    (hnamed.members att hatt)) 1 _

theorem flagNames_group (hwell : WellFormed protocol) {group : Group}
    (hgroup : group ∈ protocol.groups) :
    ((ScopeNames.ofScope protocol.name group.scope).flags.map PresenceFlag.line).filterMap
        flagName? =
      (group.members.filter (·.optional)).map fun att =>
        Naming.attributeFlag protocol.name group.parent att.name := by
  rw [List.filterMap_map, ← names_flags_ofScope, ← List.filterMap_eq_map]
  refine List.filterMap_congr fun flag hflag => ?_
  obtain ⟨att, hatt, hname⟩ : ∃ att ∈ group.members.filter (·.optional),
      Naming.attributeFlag protocol.name group.parent att.name = flag.name := by
    rw [← List.mem_map, ← names_flags_ofScope]
    exact List.mem_map_of_mem hflag
  have hnamed := named_of_mem_groups hwell hgroup
  refine flagName_flag ?_ ?_
  · rw [← hname]
    exact isWord_attributeFlag hwell.protocol_name hnamed.parent.isWord
      (hnamed.members att (List.mem_of_mem_filter hatt))
  · rw [← hname, Naming.attributeFlag, String.toList_append]
    exact List.suffix_append _ _

/-- The constants of a well-formed protocol, by commands and groups. -/
theorem constants_perm (hwell : WellFormed protocol) :
    (constants (MainHeader.build (Prepared.ofProtocol protocol) none).lines).Perm
      (protocol.commandWords.map (commandConstant protocol.name) ++
        protocol.groups.flatMap fun group =>
          group.words.map (attributeConstant protocol.name group.parent)) := by
  have hscopes : (MainHeader.build (Prepared.ofProtocol protocol) none).scopes.Perm
      (protocol.groups.map fun group => ScopeNames.ofScope protocol.name group.scope) := by
    have hperm := (scopes_perm_groups hwell).map (ScopeNames.ofScope protocol.name)
    rwa [List.map_map] at hperm
  have henumerators :
      (enumerators (MainHeader.build (Prepared.ofProtocol protocol) none).lines).Perm
        (protocol.commandWords.map (commandConstant protocol.name) ++
        protocol.groups.flatMap fun group => group.members.map fun att =>
          Naming.attributeOrdinal protocol.name group.parent att.name) := by
    rw [enumerators_mainHeader (forall_opensEnum_linesBehind _), commands_mainHeader]
    refine List.Perm.append (.of_eq (enumeratorNames_commands hwell)) ?_
    refine (hscopes.flatMap_right _).trans (.of_eq ?_)
    rw [List.flatMap_map]
    exact List.flatMap_congr fun group hgroup => enumeratorNames_group hwell hgroup
  have hflags : ((MainHeader.build (Prepared.ofProtocol protocol) none).lines.filterMap
      flagName?).Perm (protocol.groups.flatMap fun group =>
        (group.members.filter (·.optional)).map fun att =>
          Naming.attributeFlag protocol.name group.parent att.name) := by
    have hguard := @flagName_guard (Prepared.ofProtocol protocol).protocol.name hwell.protocol_name
    rw [filterMap_flagName, filter_isDefine_mainHeader, List.filterMap_cons_none hguard,
      List.map_flatMap, List.filterMap_flatMap]
    refine (hscopes.flatMap_right _).trans (.of_eq ?_)
    rw [List.flatMap_map]
    exact List.flatMap_congr fun group hgroup => flagNames_group hwell hgroup
  have hwords (group : Group) : group.words.map (attributeConstant protocol.name group.parent) =
      group.members.map (fun att => Naming.attributeOrdinal protocol.name group.parent att.name) ++
        (group.members.filter (·.optional)).map fun att =>
          Naming.attributeFlag protocol.name group.parent att.name := by
    rw [Group.words, List.map_append, List.map_map, List.map_map]
    refine congrArg _ (List.map_congr_left fun att _ => ?_)
    simp [attributeConstant, Naming.attributeFlag, Naming.attributeOrdinal, ← String.toList_inj]
  simp only [constants, hwords]
  refine (henumerators.append hflags).trans ?_
  rw [List.append_assoc]
  exact (List.flatMap_append_perm protocol.groups _ _).append_left _

end Firmware
end CommandSet
