import CommandSet.Proofs.Protocol.Validation
import CommandSet.Proofs.Text.Spellings
import CommandSet.Proofs.Typed.Items

/-!
# Identifiers in the Rust bridge

The command enumeration of the Rust bridge comes with two functions, from a variant to its
identifier on the wire and back.  Each is one match, whose arms are read off the lines of
the module; the first arm that matches counts.

Main definitions:

- {lit}`idArms`, {lit}`fromIdArms`: the arms of the two functions.
- {lit}`selected?`: what a match on a number gives.

Main results:

- Theorems {lit}`idArms_bridge`, {lit}`fromIdArms_bridge`: the arms of a protocol.
-/

namespace CommandSet
namespace Typed

/-! ## Arms -/

/-- The pattern and the result on the line of an arm. -/
def arm? (line : String) : Option (String × String) :=
  match words line with
  | [pattern, ['=', '>'], result] =>
      some (String.ofList pattern, String.ofList result.dropLast)
  | _ => none

/-- Whether a pattern matches a number. -/
def matchesNumber (n : Int) (pattern : String) : Bool :=
  pattern == "_" || literalValue? pattern.toList == some n

/-- What a match on a number gives: the result of the first arm that matches. -/
def selected? (arms : List (String × String)) (n : Int) : Option String :=
  (arms.find? fun arm => matchesNumber n arm.1).map (·.2)

theorem arm_indent {pattern result : String} (hpattern : Unbroken pattern)
    (hresult : Unbroken result) (level : Nat) :
    arm? (indent level (pattern ++ " => " ++ result ++ ",")) = some (pattern, result) := by
  have hline : pattern ++ " => " ++ result ++ "," =
      pattern ++ " " ++ ("=>" ++ " " ++ (result ++ ",")) := by
    simp [← String.toList_inj, String.toList_append]
  rw [arm?, hline, words_indent, words_three hpattern (by decide) (hresult.append (by decide))]
  simp

/-! ## The two functions -/

/-- The functions of the command enumeration. -/
def enumFunctions (lines : List String) : List String :=
  blockOf 0 "impl CmdEnum" lines

/-- The arms of the function from variants to identifiers. -/
def idArms (lines : List String) : List (String × String) :=
  (blockOf 2 "match self" (blockOf 1 "pub fn id(self) -> u16" (enumFunctions lines))).filterMap arm?

/-- The arms of the function from identifiers to variants. -/
def fromIdArms (lines : List String) : List (String × String) :=
  (blockOf 2 "match cmd_id"
    (blockOf 1 "pub fn from_id(cmd_id: u16) -> Option<Self>" (enumFunctions lines))).filterMap arm?

/-- The arms of the function from variants to identifiers, line by line. -/
def idLines (variants : List CommandVariant) : List String :=
  variants.map fun v =>
    indent 3 ("CmdEnum::" ++ v.variant ++ " => " ++ Text.hexWord v.id.toUInt16 ++ ",")

/-- The arms of the function from identifiers to variants, line by line. -/
def fromIdLines (variants : List CommandVariant) : List String :=
  variants.map (fun v =>
    indent 3 (Text.hexWord v.id.toUInt16 ++ " => Some(CmdEnum::" ++ v.variant ++ "),")) ++
    [indent 3 "_ => None,"]

/-- The lines of the two functions. -/
def functionLines (variants : List CommandVariant) : List String :=
  [indent 1 "/// Wire identifier of the command.", indent 1 (opening "pub fn id(self) -> u16"),
    indent 2 (opening "match self")] ++ idLines variants ++
    [indent 2 closing, indent 1 closing, "",
      indent 1 (opening "pub fn from_id(cmd_id: u16) -> Option<Self>"),
      indent 2 (opening "match cmd_id")] ++ fromIdLines variants ++
    [indent 2 closing, indent 1 closing]

theorem closesAt_idLines {level : Nat} (hlevel : level < 3) (variants : List CommandVariant) :
    ∀ line ∈ idLines variants, closesAt level line = false :=
  List.forall_mem_map.mpr fun _ _ => closesAt_indent hlevel _

theorem closesAt_fromIdLines {level : Nat} (hlevel : level < 3) (variants : List CommandVariant) :
    ∀ line ∈ fromIdLines variants, closesAt level line = false := by
  rw [fromIdLines, List.forall_mem_append, List.forall_mem_map, List.forall_mem_singleton]
  exact ⟨fun _ _ => closesAt_indent hlevel _, closesAt_indent hlevel _⟩

/-- The functions are read off the module. -/
theorem enumFunctions_bridge (bridge : Bridge) :
    enumFunctions bridge.lines = functionLines bridge.commands := by
  let front := bridge.headLines ++
    (["/// Command names", "#[derive(Debug, Clone, Copy, PartialEq, Eq)]",
      opening "pub enum CmdEnum"] ++
        (bridge.commands.map fun v => indent 1 (v.variant ++ ",")) ++ [closing, ""])
  have hlines : ∃ rest, bridge.lines = front ++ opening "impl CmdEnum" ::
      (functionLines bridge.commands ++ (closing ++ "") :: rest) := by
    rw [Bridge.lines_eq]
    simp only [CommandVariant.enumLines, functionLines, idLines, fromIdLines, front,
      List.append_assoc, List.cons_append, List.nil_append, String.append_empty]
    exact ⟨_, rfl⟩
  have henum : StartAs ["pub enum CmdEnum"]
      (["/// Command names", "#[derive(Debug, Clone, Copy, PartialEq, Eq)]",
        opening "pub enum CmdEnum"] ++
          (bridge.commands.map fun v => indent 1 (v.variant ++ ",")) ++ [closing, ""]) := by
    refine @startAs_of_eq _ [opening "pub enum CmdEnum"] _ ?_ (by decide)
    rw [List.filter_append, List.filter_append, filter_startsItem_indent]
    decide
  have hfront : opening "impl CmdEnum" ∉ front.filter startsItem :=
    (bridge.startAs_head.append henum).not_mem (by decide)
  have hbody : ∀ line ∈ functionLines bridge.commands, closesAt 0 line = false := by
    simp only [functionLines, List.forall_mem_append]
    simp only [List.forall_mem_cons]
    have hone (text : String) : closesAt 0 (indent 1 text) = false :=
      closesAt_indent Nat.one_pos text
    have htwo (text : String) : closesAt 0 (indent 2 text) = false :=
      closesAt_indent Nat.two_pos text
    exact ⟨⟨⟨⟨⟨hone _, hone _, htwo _, List.forall_mem_nil _⟩, closesAt_idLines (by decide) _⟩,
      ⟨htwo _, hone _, rfl, hone _, htwo _, List.forall_mem_nil _⟩⟩,
        closesAt_fromIdLines (by decide) _⟩, htwo _, hone _, List.forall_mem_nil _⟩
  obtain ⟨rest, hlines⟩ := hlines
  rw [enumFunctions, hlines, blockOf_item (startsItem_append _ _ _) hfront hbody]

/-- A function that is one match is read arm by arm. -/
theorem block_match {function scrutinee : String} {front arms rest : List String}
    (hfront : ∀ line ∈ front, line ≠ indent 1 (opening function))
    (harms : ∀ level < 3, ∀ line ∈ arms, closesAt level line = false) :
    blockOf 2 scrutinee (blockOf 1 function (front ++ indent 1 (opening function) ::
      ((indent 2 (opening scrutinee) :: (arms ++ [indent 2 closing])) ++
        indent 1 closing :: rest))) = arms := by
  have hbody : ∀ line ∈ indent 2 (opening scrutinee) :: (arms ++ [indent 2 closing]),
      closesAt 1 line = false := by
    rw [List.forall_mem_cons, List.forall_mem_append, List.forall_mem_singleton]
    exact ⟨closesAt_indent (by decide) _, harms 1 (by decide), closesAt_indent (by decide) _⟩
  rw [blockOf_append hfront hbody (closesAt_indent_closing 1)]
  exact @blockOf_append 2 scrutinee (indent 2 closing) [] arms (List.forall_mem_nil _)
    (harms 2 (by decide)) (closesAt_indent_closing 2) []

/-! ## Arms of the two functions -/

section Variants

variable {variants : List CommandVariant}

theorem filterMap_idLines (h : ∀ v ∈ variants, IsWord v.variant) :
    (idLines variants).filterMap arm? =
      variants.map fun v => ("CmdEnum::" ++ v.variant, Text.hexWord v.id.toUInt16) := by
  refine filterMap_lines fun v hv => ?_
  have hvariant : Unbroken ("CmdEnum::" ++ v.variant) :=
    (by decide : Unbroken "CmdEnum::").append (h v hv).blank_not_mem
  exact arm_indent hvariant (unbroken_hexWord _) 3

theorem filterMap_fromIdLines (h : ∀ v ∈ variants, IsWord v.variant) :
    (fromIdLines variants).filterMap arm? =
      variants.map (fun v => (Text.hexWord v.id.toUInt16, "Some(CmdEnum::" ++ v.variant ++ ")")) ++
        [("_", "None")] := by
  have hother : [indent 3 "_ => None,"].filterMap arm? = [("_", "None")] := by decide
  rw [fromIdLines, List.filterMap_append, hother]
  congr 1
  refine filterMap_lines fun v hv => ?_
  have hvariant : Unbroken ("Some(CmdEnum::" ++ v.variant ++ ")") :=
    ((by decide : Unbroken "Some(CmdEnum::").append (h v hv).blank_not_mem).append
      (by decide)
  have hline : Text.hexWord v.id.toUInt16 ++ " => Some(CmdEnum::" ++ v.variant ++ ")," =
      Text.hexWord v.id.toUInt16 ++ " => " ++ ("Some(CmdEnum::" ++ v.variant ++ ")") ++ "," := by
    simp [← String.toList_inj, String.toList_append]
  rw [hline]
  exact arm_indent (unbroken_hexWord _) hvariant 3

end Variants

variable {protocol : Protocol}

theorem isWord_variant (hwell : WellFormed protocol) :
    ∀ v ∈ protocol.commands.map CommandVariant.ofCommand, IsWord v.variant :=
  List.forall_mem_map.mpr fun cmd hcmd => isWord_capitalized (hwell.command_names cmd hcmd).isWord

theorem idArms_bridge (hwell : WellFormed protocol) (role : Role) :
    idArms (Bridge.build (Prepared.ofProtocol protocol) role).lines =
      protocol.commands.map fun cmd =>
        ("CmdEnum::" ++ capitalized cmd.name, Text.hexWord cmd.id.toUInt16) := by
  let variants := protocol.commands.map CommandVariant.ofCommand
  have hmatch := @block_match "pub fn id(self) -> u16" "match self"
    [indent 1 "/// Wire identifier of the command."] (idLines variants)
    ("" :: indent 1 (opening "pub fn from_id(cmd_id: u16) -> Option<Self>") ::
      indent 2 (opening "match cmd_id") :: (fromIdLines variants ++
        [indent 2 closing, indent 1 closing]))
    (by decide) (fun level hlevel => closesAt_idLines hlevel _)
  have hlines : blockOf 2 "match self" (blockOf 1 "pub fn id(self) -> u16"
      (functionLines variants)) = idLines variants := by
    rw [← hmatch]
    simp [functionLines]
  rw [idArms, enumFunctions_bridge]
  refine (congrArg (List.filterMap arm?) hlines).trans ?_
  rw [filterMap_idLines (isWord_variant hwell), List.map_map]
  rfl

theorem fromIdArms_bridge (hwell : WellFormed protocol) (role : Role) :
    fromIdArms (Bridge.build (Prepared.ofProtocol protocol) role).lines =
      protocol.commands.map (fun cmd =>
        (Text.hexWord cmd.id.toUInt16, "Some(CmdEnum::" ++ capitalized cmd.name ++ ")")) ++
        [("_", "None")] := by
  let variants := protocol.commands.map CommandVariant.ofCommand
  let front := [indent 1 "/// Wire identifier of the command.",
    indent 1 (opening "pub fn id(self) -> u16"), indent 2 (opening "match self")] ++
      idLines variants ++ [indent 2 closing, indent 1 closing, ""]
  have hfront : ∀ line ∈ front,
      line ≠ indent 1 (opening "pub fn from_id(cmd_id: u16) -> Option<Self>") := by
    simp only [front, List.forall_mem_append]
    refine ⟨⟨by decide, ?_⟩, by decide⟩
    exact List.forall_mem_map.mpr fun v _ => indent_ne (by decide) (by decide) _
  have hmatch := @block_match "pub fn from_id(cmd_id: u16) -> Option<Self>" "match cmd_id" front
    (fromIdLines variants) [] hfront (fun level hlevel => closesAt_fromIdLines hlevel _)
  have hlines : blockOf 2 "match cmd_id" (blockOf 1 "pub fn from_id(cmd_id: u16) -> Option<Self>"
      (functionLines variants)) = fromIdLines variants := by
    rw [← hmatch]
    simp [functionLines, front]
  rw [fromIdArms, enumFunctions_bridge]
  refine (congrArg (List.filterMap arm?) hlines).trans ?_
  rw [filterMap_fromIdLines (isWord_variant hwell), List.map_map]
  rfl

end Typed
end CommandSet
