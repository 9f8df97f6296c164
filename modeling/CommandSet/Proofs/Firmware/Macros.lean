import CommandSet.Firmware.MainHeader
import CommandSet.Firmware.Bridge
import CommandSet.Proofs.Firmware.Comments
import CommandSet.Proofs.Protocol.Positions
import CommandSet.Proofs.Text.Words

/-!
# Macros of the firmware

Generated files define their macros on lines of their own, and few of their other lines look
like those.

Main definitions:

- {lit}`isDefine`, {lit}`definesName`: lines that define a macro.
- {lit}`Defines`: a name that stands for a value.
- {lit}`BridgeHeader.counts`: the counts that the bridge header defines.

Main results:

- Theorem {lit}`filter_isDefine_mainHeader`: the main header defines its guard and its
  presence flags.
- Theorem {lit}`filter_isDefine_bridgeHeader`: the bridge header defines its guard, the
  identifier of the protocol and its counts.
- Theorem {lit}`filter_isDefine_bridge`: a bridge defines the length of its arena.
-/

namespace CommandSet
namespace Firmware

open Text (lower)

/-! ## Lines that define macros -/

/-- Lines that define a macro. -/
def isDefine (line : String) : Bool :=
  "#define ".toList.isPrefixOf line.toList

/-- Lines that give a value to a macro of this name. -/
def definesName (name line : String) : Bool :=
  ("#define " ++ name ++ " ").toList.isPrefixOf line.toList

/-- A name stands for a value: one line defines it, with that value. -/
def Defines (lines : List String) (name value : String) : Prop :=
  lines.filter (definesName name) = ["#define " ++ name ++ " " ++ value]

theorem isDefine_of_definesName {name line : String} (h : definesName name line = true) :
    isDefine line = true := by
  rw [definesName, List.isPrefixOf_iff_prefix, String.append_assoc, String.toList_append] at h
  rw [isDefine, List.isPrefixOf_iff_prefix]
  exact (List.prefix_append _ _).trans h

/-- Only lines that define a macro give a value to one. -/
theorem filter_definesName (name : String) (lines : List String) :
    lines.filter (definesName name) = (lines.filter isDefine).filter (definesName name) := by
  rw [List.filter_filter]
  refine List.filter_congr fun line _ => ?_
  cases hdefines : definesName name line with
  | false => rfl
  | true => rw [isDefine_of_definesName hdefines, Bool.and_self]

/-- A text without the separator is told apart by what stands before the first one. -/
theorem isPrefix_append_singleton {c : Char} {name other rest : List Char} (hname : c ∉ name)
    (hother : c ∉ other) : name ++ [c] <+: other ++ c :: rest ↔ name = other := by
  induction name generalizing other with
  | nil => cases other <;> simp_all
  | cons d name ih =>
      rw [List.mem_cons, not_or] at hname
      cases other with
      | nil => simp [Ne.symm hname.1]
      | cons e other =>
          rw [List.mem_cons, not_or] at hother
          simp [List.cons_prefix_cons, ih hname.2 hother.2]

/-- A definition gives its value to the name it spells. -/
theorem definesName_define {name other value : String} (hname : ' ' ∉ name.toList)
    (hother : ' ' ∉ other.toList) :
    definesName name ("#define " ++ other ++ " " ++ value) = (other == name) := by
  rw [Bool.eq_iff_iff, beq_iff_eq, definesName, List.isPrefixOf_iff_prefix]
  simp only [String.toList_append, List.append_assoc, List.prefix_append_right_inj]
  have hsingle : " ".toList = [' '] := rfl
  rw [hsingle, List.singleton_append, isPrefix_append_singleton hname hother, String.toList_inj]
  exact eq_comm

/-! ## Parts of the headers -/

@[simp]
theorem isDefine_empty : isDefine "" = false := by
  simp [isDefine]

@[simp]
theorem isDefine_indent (level : Nat) (text : String) :
    isDefine (indent (level + 1) text) = false := by
  simp [isDefine, toList_indent, Nat.mul_succ, List.replicate_succ, List.isPrefixOf]

@[simp]
theorem isDefine_closing (text : String) : isDefine (closing ++ text) = false := by
  simp [isDefine, closing, List.isPrefixOf]

theorem filter_isDefine_map {α : Type} {text : α → String} (h : ∀ a, isDefine (text a) = false)
    (l : List α) : (l.map text).filter isDefine = [] := by
  rw [List.filter_map, List.map_eq_nil_iff, List.filter_eq_nil_iff]
  intro a _
  rw [Function.comp_apply, h]
  exact Bool.false_ne_true

@[simp]
theorem filter_isDefine_indent {α : Type} (level : Nat) (text : α → String) (l : List α) :
    (l.map fun a => indent (level + 1) (text a)).filter isDefine = [] :=
  filter_isDefine_map (fun a => isDefine_indent level (text a)) l

@[simp]
theorem filter_isDefine_banner (file brief : String) :
    (banner file brief).filter isDefine = [] := by
  simp [banner, isDefine, List.isPrefixOf]

@[simp]
theorem filter_isDefine_record (record : Record) : record.lines.filter isDefine = [] := by
  have hopening : isDefine (opening ("typedef " ++ record.kind.word ++ " " ++
      Naming.structTag record.typeName)) = false := by
    simp [isDefine, opening, List.isPrefixOf]
  have hclosing : isDefine (closing ++ " " ++ record.typeName ++ ";") = false := by
    simp [isDefine, closing, List.isPrefixOf]
  simp [Record.lines, hopening, hclosing]

@[simp]
theorem filter_isDefine_wireIds (wireIds : WireIds) : wireIds.lines.filter isDefine = [] := by
  have hopening : isDefine (opening ("enum " ++ wireIds.tag)) = false := by
    simp [isDefine, opening, List.isPrefixOf]
  rw [WireIds.lines]
  simp only [List.filter_append, filter_isDefine_indent]
  simp [hopening]

theorem isDefine_flag (flag : PresenceFlag) : isDefine flag.line = true := by
  simp [isDefine, PresenceFlag.line]

theorem isDefine_count (m : CountMacro) : isDefine m.line = true := by
  simp [isDefine, CountMacro.line]

@[simp]
theorem filter_isDefine_scope (names : ScopeNames) :
    names.lines.filter isDefine = names.flags.map PresenceFlag.line := by
  have hopening : isDefine (opening ("enum " ++ names.tag)) = false := by
    simp [isDefine, opening, List.isPrefixOf]
  have hordinals : (names.ordinals.map ScopeNames.ordinalLine).filter isDefine = [] :=
    filter_isDefine_indent 0 _ names.ordinals
  have hflags : (names.flags.map PresenceFlag.line).filter isDefine =
      names.flags.map PresenceFlag.line := by
    simp [List.filter_eq_self, isDefine_flag]
  rw [ScopeNames.lines]
  simp only [List.filter_append, hordinals]
  cases hnone : names.flags.isEmpty with
  | true => simp [hopening, List.isEmpty_iff.mp hnone]
  | false => simp [hopening, hflags]

theorem filter_isDefine_countLines {title : String} (htitle : isDefine title = false)
    (macros : List CountMacro) :
    (BridgeHeader.countLines title macros).filter isDefine = macros.map CountMacro.line := by
  have hmacros : (macros.map CountMacro.line).filter isDefine = macros.map CountMacro.line := by
    simp [List.filter_eq_self, isDefine_count]
  rw [BridgeHeader.countLines]
  cases hnone : macros.isEmpty with
  | true => simp [List.isEmpty_iff.mp hnone]
  | false => simp [htitle, hmacros]

/-- The declaration of a function starts as its signature does. -/
theorem toList_prototypeOf {c : Char} {rest : List Char} {signature : String}
    (h : signature.toList = c :: rest) (hopens : c ≠ '{') (hblank : Text.isBlank c = false) :
    (Recovery.prototypeOf signature).toList =
      c :: (Text.trimEnd (rest.takeWhile (· != '{')) ++ [';']) := by
  have htake : (c :: rest).takeWhile (· != '{') = c :: rest.takeWhile (· != '{') := by
    rw [List.takeWhile_cons, if_pos (bne_iff_ne.mpr hopens)]
  rw [Recovery.prototypeOf, h, htake, Text.trimEnd_cons hblank, String.toList_append,
    String.toList_ofList]
  rfl

/-- The declarations of a fresh module start with the type of their result. -/
theorem toList_prototype_default {protocol : String} {function : Recovery.PublicFunction}
    (h : function ∈ defaultPublicFunctions protocol) :
    ∃ rest, function.prototype.toList = 'b' :: rest := by
  have hsignature (signature : String) : ∃ rest, (Recovery.prototypeOf
      (Text.unlines [opening ("bool " ++ signature)])).toList = 'b' :: rest := by
    have hlist : (Text.unlines [opening ("bool " ++ signature)]).toList =
        'b' :: ("ool ".toList ++ signature.toList ++ [' ', '{', '\n']) := by
      simp [Text.toList_unlines, opening]
    exact ⟨_, toList_prototypeOf hlist (by decide) (by decide)⟩
  simp only [defaultPublicFunctions, List.mem_cons, List.not_mem_nil, or_false] at h
  rcases h with rfl | rfl
  · rw [Recovery.PublicFunction.prototype, initSignature, String.append_assoc]
    exact hsignature _
  · simp only [Recovery.PublicFunction.prototype, executeSignature, String.append_assoc]
    exact hsignature _

@[simp]
theorem filter_isDefine_docBlock (doc : DocBlock) : doc.lines.filter isDefine = [] := by
  have hparams : (doc.params.map fun param => " * \\param " ++ param.1 ++ " " ++ param.2).filter
      isDefine = [] := by
    refine filter_isDefine_map (fun param => ?_) doc.params
    simp [isDefine, List.isPrefixOf]
  rw [DocBlock.lines]
  simp only [List.filter_append, hparams]
  simp [isDefine, List.isPrefixOf]

theorem filter_isDefine_publicFunctions (protocol : String) :
    ((defaultPublicFunctions protocol).flatMap MainHeader.declarationLines).filter isDefine =
      [] := by
  have hprototype : ∀ function ∈ defaultPublicFunctions protocol,
      isDefine function.prototype = false := by
    intro function hfunction
    obtain ⟨rest, hrest⟩ := toList_prototype_default hfunction
    simp [isDefine, hrest, List.isPrefixOf]
  simp only [defaultPublicFunctions, List.forall_mem_cons] at hprototype
  simp [defaultPublicFunctions, MainHeader.declarationLines, hprototype]

/-! ## Whole headers -/

/-- A section of structs defines no macro. -/
theorem filter_isDefine_structs {title : String} (htitle : isDefine title = false) (shown : Bool)
    (records : List Record) :
    (MainHeader.titled shown title (records.flatMap Record.lines)).filter isDefine = [] := by
  cases shown <;> simp [MainHeader.titled, htitle, List.filter_flatMap]

/-- The section of scopes defines their flags. -/
theorem filter_isDefine_scopes {title : String} (htitle : isDefine title = false)
    (scopes : List ScopeNames) :
    (MainHeader.titled (!scopes.isEmpty) title (scopes.flatMap ScopeNames.lines)).filter isDefine =
      (scopes.flatMap (·.flags)).map PresenceFlag.line := by
  cases scopes with
  | nil => rfl
  | cons scope rest => simp [MainHeader.titled, htitle, List.filter_flatMap, List.map_flatMap]

/-- The main header defines its guard and its presence flags. -/
theorem filter_isDefine_mainHeader (prepared : Prepared) :
    (MainHeader.build prepared none).lines.filter isDefine =
      ("#define " ++ includeGuard (Naming.mainHeaderFile prepared.protocol.name)) ::
        ((MainHeader.build prepared none).scopes.flatMap (·.flags)).map PresenceFlag.line := by
  have henum : isDefine (opening ("enum _" ++ lower prepared.protocol.name ++ "_cmd_names")) =
      false := by
    simp [isDefine, opening, List.isPrefixOf]
  have hscopes : isDefine "// Attributes enums" = false := by
    simp [isDefine, List.isPrefixOf]
  have hnested : isDefine "// Attribute with sub-attributes structures" = false := by
    simp [isDefine, List.isPrefixOf]
  have hpayloads : isDefine "// Command data structures" = false := by
    simp [isDefine, List.isPrefixOf]
  have hpublic := filter_isDefine_publicFunctions prepared.protocol.name
  unfold MainHeader.lines
  simp only [List.filter_append, filter_isDefine_banner, filter_isDefine_indent,
    filter_isDefine_record, filter_isDefine_scopes hscopes, filter_isDefine_structs hnested,
    filter_isDefine_structs hpayloads]
  simp [MainHeader.build, publicFunctionsOf, hpublic, henum, List.filter_cons]
  simp [isDefine, List.isPrefixOf]

/-- The counts that a bridge header defines. -/
def BridgeHeader.counts (header : BridgeHeader) : List CountMacro :=
  header.commands :: (header.attributeCounts ++ header.subAttributeCounts)

/-- The bridge header defines its guard, the identifier of the protocol and its counts. -/
theorem filter_isDefine_bridgeHeader (header : BridgeHeader) :
    header.lines.filter isDefine =
      ("#define " ++ includeGuard (Naming.bridgeHeaderFile header.protocol)) ::
        ("#define " ++ protocolIdMacro header.protocol ++ " " ++ Text.hexWord header.id) ::
        header.counts.map CountMacro.line := by
  have hattributes : isDefine "// Command attribute number" = false := by
    simp [isDefine, List.isPrefixOf]
  have hsubAttributes : isDefine "// Attribute sub-attribute number" = false := by
    simp [isDefine, List.isPrefixOf]
  have hids : (if header.attributeIds.isEmpty then [] else
      "// Attribute identifier enums" ::
        header.attributeIds.flatMap WireIds.lines).filter isDefine = [] := by
    split <;> simp [List.filter_flatMap, isDefine, List.isPrefixOf]
  unfold BridgeHeader.lines
  simp only [List.filter_append, filter_isDefine_banner, filter_isDefine_wireIds, hids,
    filter_isDefine_countLines hattributes, filter_isDefine_countLines hsubAttributes]
  simp [isDefine_count, BridgeHeader.counts, List.filter_cons]
  simp [isDefine, List.isPrefixOf]

/-! ## Bridges -/

mutual

/-- Statements inside of a function define no macro. -/
theorem filter_isDefine_statement (level : Nat) : (statement : Statement) →
    (Statement.lines (level + 1) statement).filter isDefine = []
  | .ifPresent bit body otherwise => by
      have hbody := filter_isDefine_statements (level + 1) body
      have hotherwise := filter_isDefine_statements (level + 1) otherwise
      rw [Statement.lines]
      split <;> simp [hbody, hotherwise]
  | .ifCarried source slot body => by
      have hbody := filter_isDefine_statements (level + 1) body
      rw [Statement.lines]
      simp [hbody]
  | .remark _ | .load _ _ | .notePresent _ | .clearPresence _ _ | .setPresence _
  | .takeNumber _ _ _ | .takeLength _ _ | .takePointer _ _ | .putWidth _ _ | .putAddress _ _
  | .putLength _ _ | .putTextLength _ _ | .putPointer _ _ | .putCount _ _ | .allocate _ _ _
  | .requireArray _ | .putAbsent _ _ => by
      simp [Statement.lines]

theorem filter_isDefine_statements (level : Nat) : (statements : List Statement) →
    (Statement.allLines (level + 1) statements).filter isDefine = []
  | [] => rfl
  | statement :: rest => by
      rw [Statement.allLines, List.filter_append, filter_isDefine_statement level statement,
        filter_isDefine_statements level rest, List.append_nil]

end

theorem filter_isDefine_decoder (decoder : Decoder) : decoder.lines.filter isDefine = [] := by
  have hbody := filter_isDefine_statements 0 decoder.body
  rw [Decoder.lines]
  simp only [List.filter_append, List.filter_cons, List.filter_nil, isDefine_indent, hbody]
  simp [isDefine, opening, closing, List.isPrefixOf]

theorem filter_isDefine_encoder (encoder : Encoder) : encoder.lines.filter isDefine = [] := by
  have hbody := filter_isDefine_statements 0 encoder.body
  rw [Encoder.lines]
  simp only [List.filter_append, List.filter_cons, List.filter_nil, isDefine_indent, hbody]
  simp [isDefine, opening, closing, List.isPrefixOf]

/-- Blocks of lines that define no macro define none together. -/
theorem filter_isDefine_flatMap {α : Type} {text : α → List String}
    (h : ∀ a, (text a).filter isDefine = []) (l : List α) :
    (l.flatMap text).filter isDefine = [] := by
  rw [List.filter_flatMap, List.flatMap_eq_nil_iff]
  exact fun a _ => h a

theorem filter_isDefine_selectDecoder (protocol : String) (decoders : List Decoder) :
    (Decoder.selectLines protocol decoders).filter isDefine = [] := by
  rw [Decoder.selectLines]
  simp only [List.filter_append, List.filter_cons, List.filter_nil, isDefine_indent]
  rw [filter_isDefine_flatMap fun decoder => by simp]
  simp [isDefine, opening, closing, List.isPrefixOf]

theorem filter_isDefine_selectEncoder (protocol : String) (encoders : List Encoder) :
    (Encoder.selectLines protocol encoders).filter isDefine = [] := by
  rw [Encoder.selectLines]
  simp only [List.filter_append, List.filter_cons, List.filter_nil, isDefine_indent]
  rw [filter_isDefine_flatMap fun encoder => by simp]
  simp [isDefine, opening, closing, List.isPrefixOf]

theorem filter_isDefine_idToName (bridge : Bridge) :
    bridge.idToNameLines.filter isDefine = [] := by
  rw [Bridge.idToNameLines]
  simp only [List.filter_append, List.filter_cons, List.filter_nil, isDefine_indent]
  rw [filter_isDefine_flatMap fun key => by simp]
  simp [isDefine, opening, closing, List.isPrefixOf]

theorem filter_isDefine_allocate (protocol : String) :
    (Bridge.allocateLines protocol).filter isDefine = [] := by
  rw [Bridge.allocateLines]
  simp only [List.filter_cons, List.filter_nil, isDefine_indent]
  simp [isDefine, opening, closing, List.isPrefixOf]

theorem filter_isDefine_receive (bridge : Bridge) : bridge.receiveLines.filter isDefine = [] := by
  rw [Bridge.receiveLines]
  split <;> simp only [List.filter_append, List.filter_cons, List.filter_nil, isDefine_indent] <;>
    simp [isDefine, opening, closing, List.isPrefixOf]

theorem filter_isDefine_encodeLines (bridge : Bridge) :
    bridge.encodeLines.filter isDefine = [] := by
  rw [Bridge.encodeLines]
  split <;> simp only [List.filter_append, List.filter_cons, List.filter_nil, isDefine_indent] <;>
    simp [isDefine, opening, closing, List.isPrefixOf]

/-- Before its functions a bridge defines the length of its arena. -/
theorem filter_isDefine_definitions (bridge : Bridge) :
    bridge.definitionLines.filter isDefine =
      ["#define " ++ Bridge.arenaMacro bridge.protocol ++ " " ++ toString bridge.arena] := by
  rw [Bridge.definitionLines]
  simp only [List.filter_append, List.filter_cons, List.filter_nil, isDefine_indent,
    filter_isDefine_indent, filter_isDefine_banner]
  simp [isDefine, opening, closing, List.isPrefixOf]

theorem filter_isDefine_unless {lines : List String} (h : lines.filter isDefine = [])
    (absent : Bool) : (if absent then [] else lines).filter isDefine = [] := by
  cases absent
  · exact h
  · rfl

/-- The source of a bridge defines the length of its arena. -/
theorem filter_isDefine_bridge (bridge : Bridge) :
    bridge.lines.filter isDefine =
      ["#define " ++ Bridge.arenaMacro bridge.protocol ++ " " ++ toString bridge.arena] := by
  rw [Bridge.lines]
  simp only [List.filter_append, filter_isDefine_definitions, filter_isDefine_idToName,
    filter_isDefine_receive, filter_isDefine_encodeLines,
    filter_isDefine_flatMap filter_isDefine_decoder,
    filter_isDefine_flatMap filter_isDefine_encoder,
    filter_isDefine_unless (filter_isDefine_allocate bridge.protocol),
    filter_isDefine_unless (filter_isDefine_selectDecoder bridge.protocol bridge.decoders),
    filter_isDefine_unless (filter_isDefine_selectEncoder bridge.protocol bridge.encoders)]
  simp [isDefine, List.isPrefixOf]

end Firmware
end CommandSet
