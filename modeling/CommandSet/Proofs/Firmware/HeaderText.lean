import CommandSet.Proofs.Firmware.Declarations
import CommandSet.Proofs.Firmware.Functions
import CommandSet.Proofs.Firmware.Remarks

/-!
# Text of the main header

The lines of a main header are lines of its text as long as no description breaks one of them.

Main results:

- Theorem {lit}`newline_record`: the definition of a struct keeps to its lines.
- Theorems {lit}`newline_linesBefore`, {lit}`newline_linesBehind`: so does all that a main header
  has around its enumerations.
- Theorem {lit}`lines_text_mainHeader`: the lines of the text of a main header.
-/

namespace CommandSet

theorem IsWord.avoids_newline {text : String} (h : IsWord text) : Avoids ['\n'] text :=
  h.avoids (List.forall_mem_singleton.mpr (by decide))

namespace Firmware

/-! ## Structs -/

theorem mem_of_mem_dropTypeEnding {name : List Char} {c : Char}
    (h : c ∈ Naming.dropTypeEnding name) : c ∈ name := by
  unfold Naming.dropTypeEnding at h
  split at h
  · exact List.mem_cons_of_mem _ (List.mem_cons_of_mem _ h)
  · exact h

theorem isWord_structTag {typeName : String} (h : IsWord typeName) :
    IsWord (Naming.structTag typeName) := by
  refine IsWord.append (.fixed rfl : IsWord "_") fun c hc => ?_
  rw [String.toList_ofList, List.mem_reverse] at hc
  exact h c (List.mem_reverse.mp (mem_of_mem_dropTypeEnding hc))

theorem newline_declaration {member : Member} (h : member.Spelled) :
    Avoids ['\n'] member.declaration := by
  have hname := h.name.avoids_newline
  obtain ⟨type, name⟩ := member
  cases type with
  | number scalar =>
      have hscalar : Avoids ['\n'] scalar.cName := by cases scalar <;> decide
      simp only [Member.declaration, avoids_append]
      exact ⟨⟨⟨hscalar, by decide⟩, hname⟩, by decide⟩
  | bytePointer | textPointer =>
      simp only [Member.declaration, avoids_append]
      exact ⟨⟨by decide, hname⟩, by decide⟩
  | record typeName =>
      have htype := (h.record typeName rfl).1.avoids_newline
      simp only [Member.declaration, avoids_append]
      exact ⟨⟨⟨htype, by decide⟩, hname⟩, by decide⟩
  | presence width =>
      rw [Member.declaration]
      cases width with
      | bytes n =>
          have hcount := (isWord_toString n).avoids_newline
          simp only [PresenceWidth.declaration, avoids_append]
          exact ⟨⟨by decide, hcount⟩, by decide⟩
      | u8 => exact (by decide : Avoids ['\n'] PresenceWidth.u8.declaration)
      | u16 => exact (by decide : Avoids ['\n'] PresenceWidth.u16.declaration)
      | u32 => exact (by decide : Avoids ['\n'] PresenceWidth.u32.declaration)

/-- The definition of a struct keeps to its lines. -/
theorem newline_record {record : Record} (htype : IsWord record.typeName)
    (hmembers : ∀ member ∈ record.members, member.Spelled) :
    ∀ line ∈ record.lines, Avoids ['\n'] line := by
  have htag := (isWord_structTag htype).avoids_newline
  have hkind : Avoids ['\n'] record.kind.word := by cases record.kind <;> decide
  rw [Record.lines, List.forall_mem_append, List.forall_mem_append, List.forall_mem_singleton,
    List.forall_mem_map]
  refine ⟨⟨?_, fun member hmember => ?_⟩, ?_⟩
  · simp only [opening, avoids_append]
    exact ⟨⟨⟨⟨by decide, hkind⟩, by decide⟩, htag⟩, by decide⟩
  · exact (avoids_indent (by decide)).mpr (newline_declaration (hmembers member hmember))
  · rw [List.forall_mem_cons, List.forall_mem_singleton, avoids_append, avoids_append]
    exact ⟨⟨⟨by decide, htype.avoids_newline⟩, by decide⟩, by decide⟩

variable {protocol : Protocol}

theorem isWord_typeName (hprotocol : IsName protocol.name) {group : Group} (h : group.Named) :
    IsWord (group.typeName protocol.name) := by
  have hname : ∀ name ∈ group.ancestors.reverse, IsWord (Text.lower name) := fun name hmem =>
    (h.ancestors name (List.mem_reverse.mp hmem)).isWord.lower
  have hstem : IsWord group.typeStem := by
    rw [Group.typeStem]
    split
    next name parent rest hsplit =>
      rw [hsplit, List.forall_mem_cons, List.forall_mem_cons] at hname
      exact (hname.2.1.append (.fixed rfl)).append hname.1
    next name hsplit =>
      rw [hsplit, List.forall_mem_singleton] at hname
      exact hname
    next => exact .fixed rfl
  exact ((hprotocol.isWord.lower.append (.fixed rfl)).append hstem).append (.fixed rfl)

/-- The structs and the union of a protocol keep to their lines. -/
theorem newline_records (hwell : WellFormed protocol) :
    ∀ record ∈ protocol.records, ∀ line ∈ record.lines, Avoids ['\n'] line := by
  intro record hrecord
  refine newline_record ?_ (spelled_members hwell record hrecord)
  rw [Protocol.records, List.mem_append, List.mem_map, List.mem_singleton] at hrecord
  rcases hrecord with ⟨group, hgroup, rfl⟩ | rfl
  · exact isWord_typeName hwell.protocol_name
      (named_of_mem_groups hwell (mem_definedGroups.mp hgroup))
  · exact hwell.protocol_name.isWord.lower.append (.fixed rfl)

/-! ## Other parts -/

/-- The declaration made of a signature keeps to its line. -/
theorem newline_prototype {signature : String} (h : Avoids codeBreaks signature) :
    Avoids ['\n'] (Recovery.prototypeOf (Text.unlines [opening signature])) := by
  have hlist : (Text.unlines [opening signature]).toList =
      (signature ++ " ").toList ++ ['{', '\n'] := by
    simp [Text.toList_unlines, opening]
  have havoids : Avoids codeBreaks (signature ++ " ") := avoids_append.mpr ⟨h, by decide⟩
  have hplain : ∀ c ∈ (signature ++ " ").toList, (c != '{') = true := fun c hc =>
    bne_iff_ne.mpr fun heq => havoids '{' (by decide) (heq ▸ hc)
  rw [Recovery.prototypeOf, hlist, List.takeWhile_append_of_pos hplain,
    List.takeWhile_cons_of_neg (by decide), List.append_nil, avoids_append, Avoids,
    List.forall_mem_singleton, String.toList_ofList]
  exact ⟨fun hmem => havoids '\n' (by decide) ((Text.trimEnd_isPrefix _).subset hmem), by decide⟩

/-- The declarations of fresh public functions keep to their lines. -/
theorem newline_publicFunctions {protocol : String} (h : IsName protocol) :
    ∀ line ∈ (defaultPublicFunctions protocol).flatMap MainHeader.declarationLines,
      '\n' ∉ line.toList := by
  have hdoc : ∀ function ∈ defaultPublicFunctions protocol, ∀ line ∈ function.doc,
      '\n' ∉ line.toList := by
    intro function hfunction line hline
    obtain ⟨found, hlegible, rfl⟩ := exists_legible_defaultPublicFunctions h function hfunction
    exact (hlegible.lines line (by
      rw [Recovery.FoundFunction.text]
      exact List.mem_append_left _ (List.mem_append_right _ hline))).newline
  have hprototype : ∀ function ∈ defaultPublicFunctions protocol,
      '\n' ∉ function.prototype.toList := by
    rw [defaultPublicFunctions, List.forall_mem_cons, List.forall_mem_singleton]
    exact ⟨newline_prototype (avoids_initSignature h) _ (List.mem_singleton_self _),
      newline_prototype (avoids_executeSignature h) _ (List.mem_singleton_self _)⟩
  rw [List.forall_mem_flatMap]
  intro function hfunction
  rw [MainHeader.declarationLines, List.forall_mem_append, List.forall_mem_cons,
    List.forall_mem_singleton]
  exact ⟨hdoc function hfunction, hprototype function hfunction, by decide⟩

theorem newline_flagValue (width : PresenceWidth) (index : Nat) :
    Avoids ['\n'] (width.flagValue index) := by
  have hindex := (isWord_toString (width.bit index)).avoids_newline
  cases width <;> simp only [PresenceWidth.flagValue, avoids_append] <;>
    exact ⟨⟨⟨⟨by decide, by decide⟩, by decide⟩, hindex⟩, by decide⟩

/-- The constants of a scope keep to their lines if their descriptions do. -/
theorem newline_scope {names : ScopeNames} (h : names.OneLine) :
    ∀ line ∈ names.lines, Avoids ['\n'] line := by
  have hordinal : ∀ ordinal ∈ names.ordinals, Avoids ['\n'] (ScopeNames.ordinalLine ordinal) := by
    intro ordinal hordinal
    obtain ⟨hname, hdescription⟩ := h.ordinals ordinal hordinal
    rw [ScopeNames.ordinalLine, avoids_indent (by decide), avoids_append, avoids_append]
    refine ⟨⟨hname.avoids_newline, by decide⟩, ?_⟩
    split
    · decide
    · exact avoids_append.mpr ⟨by decide, List.forall_mem_singleton.mpr hdescription⟩
  rw [ScopeNames.lines, List.forall_mem_append, List.forall_mem_append, List.forall_mem_append,
    List.forall_mem_singleton, List.forall_mem_map]
  refine ⟨⟨⟨?_, hordinal⟩, by decide⟩, ?_⟩
  · rw [opening, avoids_append, avoids_append]
    exact ⟨⟨by decide, h.tag.avoids_newline⟩, by decide⟩
  · split
    · exact List.forall_mem_nil _
    · rw [List.forall_mem_append, List.forall_mem_map]
      refine ⟨fun flag hflag => ?_, by decide⟩
      rw [PresenceFlag.line, avoids_append, avoids_append, avoids_append]
      exact ⟨⟨⟨by decide, (h.flags flag hflag).avoids_newline⟩, by decide⟩,
        newline_flagValue _ _⟩

theorem newline_titled {shown : Bool} {title : String} {content : List String}
    (htitle : '\n' ∉ title.toList) (h : shown = true → ∀ line ∈ content, '\n' ∉ line.toList) :
    ∀ line ∈ MainHeader.titled shown title content, '\n' ∉ line.toList := by
  cases shown with
  | false => exact List.forall_mem_nil _
  | true => exact List.forall_mem_cons.mpr ⟨htitle, h rfl⟩

/-! ## The whole header -/

section Header

variable (hwell : WellFormed protocol)

include hwell

/-- The lines in front of the enumerations hold no newline. -/
theorem newline_linesBefore :
    ∀ line ∈ linesBefore (MainHeader.build (Prepared.ofProtocol protocol) none),
      Avoids ['\n'] line := by
  have hprotocol := hwell.protocol_name
  have hname := hprotocol.isWord.avoids_newline
  have hguard := (isWord_includeGuard (mem_mainHeaderFile hprotocol)).avoids_newline
  have hfile : Avoids ['\n'] (Naming.mainHeaderFile protocol.name) :=
    avoids_append.mpr ⟨hname, by decide⟩
  simp only [linesBefore, banner, List.forall_mem_append, List.forall_mem_cons]
  refine ⟨⟨by decide, ?file, ?brief, by decide, by decide, by decide, by decide,
    List.forall_mem_nil _⟩, ?start, ?definition, by decide, by decide, by decide, by decide,
    by decide, by decide, by decide, by decide, by decide, by decide, List.forall_mem_nil _⟩
  case file => exact avoids_append.mpr ⟨by decide, hfile⟩
  case brief => exact avoids_append.mpr ⟨by decide, avoids_append.mpr ⟨hname, by decide⟩⟩
  case start => exact avoids_append.mpr ⟨by decide, hguard⟩
  case definition => exact avoids_append.mpr ⟨by decide, hguard⟩

/-- The enumeration of commands holds no newline. -/
theorem newline_commands :
    Avoids ['\n'] (opening ("enum _" ++ Text.lower protocol.name ++ "_cmd_names")) ∧
      ∀ name ∈ (MainHeader.build (Prepared.ofProtocol protocol) none).commands,
        Avoids ['\n'] (indent 1 (name ++ ",")) := by
  have hprotocol := hwell.protocol_name
  constructor
  · have hlower := hprotocol.isWord.lower.avoids_newline
    simp only [opening, avoids_append]
    exact ⟨⟨⟨by decide, hlower⟩, by decide⟩, by decide⟩
  · rw [commands_mainHeader, List.forall_mem_map]
    intro word hword
    have hconstant := isWord_commandConstant hprotocol
      (@isWord_of_mem_commandWords protocol hwell word hword)
    exact (avoids_indent (by decide)).mpr
      (avoids_append.mpr ⟨hconstant.avoids_newline, by decide⟩)

/-- The lines behind the enumerations hold no newline. -/
theorem newline_linesBehind :
    ∀ line ∈ linesBehind (MainHeader.build (Prepared.ofProtocol protocol) none),
      '\n' ∉ line.toList := by
  have hplain {line : String} (h : Avoids ['\n'] line) : '\n' ∉ line.toList :=
    h '\n' (List.mem_singleton_self _)
  have hguard := (isWord_includeGuard (mem_mainHeaderFile hwell.protocol_name)).avoids_newline
  have hstructs : ∀ record ∈ (MainHeader.build (Prepared.ofProtocol protocol) none).structs,
      ∀ line ∈ record.lines, '\n' ∉ line.toList := by
    intro record hrecord line hline
    rw [structs_build hwell] at hrecord
    exact hplain (newline_records hwell record (List.mem_append_left _ hrecord) line hline)
  rw [MainHeader.structs, List.forall_mem_append] at hstructs
  simp only [linesBehind, List.forall_mem_append]
  refine ⟨⟨⟨⟨⟨⟨?nested, ?payloads⟩, by decide⟩, ?union⟩, by decide⟩, ?functions⟩, ?guard⟩
  case nested =>
    refine newline_titled (by decide) fun hshown => List.forall_mem_flatMap.mpr ?_
    rw [if_pos hshown] at hstructs
    exact hstructs.1
  case payloads => exact newline_titled (by decide) fun _ => List.forall_mem_flatMap.mpr hstructs.2
  case union =>
    exact fun line hline => hplain (newline_records hwell _ (union_mem_records protocol) line hline)
  case functions => exact newline_publicFunctions hwell.protocol_name
  case guard =>
    exact List.forall_mem_singleton.mpr (hplain (avoids_append.mpr ⟨by decide, hguard⟩))

/-- The lines of the text of a main header, if the descriptions of attributes hold no newline. -/
theorem lines_text_mainHeader (h : ∀ att ∈ protocol.attributes, '\n' ∉ att.description.toList) :
    Text.lines (MainHeader.build (Prepared.ofProtocol protocol) none).text =
      (MainHeader.build (Prepared.ofProtocol protocol) none).lines.map Text.withoutReturn := by
  have hplain {line : String} (h : Avoids ['\n'] line) : '\n' ∉ line.toList :=
    h '\n' (List.mem_singleton_self _)
  obtain ⟨hhead, hcommands⟩ := newline_commands hwell
  refine Text.lines_unlines_of_newline_free ?_
  rw [lines_mainHeader, List.forall_mem_append, List.forall_mem_cons, List.forall_mem_append,
    List.forall_mem_cons, List.forall_mem_cons, List.forall_mem_append, List.forall_mem_map]
  refine ⟨fun line hline => hplain (newline_linesBefore hwell line hline), hplain hhead,
    fun name hname => hplain (hcommands name hname), by decide, by decide, ?_,
    newline_linesBehind hwell⟩
  exact newline_titled (by decide) fun _ => List.forall_mem_flatMap.mpr fun names hnames line
    hline => hplain (newline_scope (oneLine_scopes hwell h names hnames) line hline)

end Header

end Firmware
end CommandSet
