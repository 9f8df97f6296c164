import CommandSet.Proofs.Text.Between
import CommandSet.Proofs.Typed.CommandArms
import CommandSet.Proofs.Typed.Items

/-!
# Matches in Rust modules

The arms of a generated match on a command and a payload, and the variants of the two
enumerations they select by, are read off the lines of the modules.

Main definitions:

- {lit}`commandVariants`, {lit}`payloadVariants`: the variants of the two enumerations.
- {lit}`pairArm?`: the arm on a line.

Main results:

- Theorem {lit}`pairArm_line`: an arm is read off the line that shows it.
- Theorems {lit}`commandVariants_bridge`, {lit}`payloadVariants_bridge`: the variants of a
  protocol.
-/

namespace CommandSet
namespace Typed

/-! ## Patterns -/

/-- The pattern for a command that a text shows. -/
def commandPattern? (text : List Char) : Option CommandPattern :=
  if text = ['_'] then some .any else (between? "CmdEnum::" "" text).map .only

/-- The pattern for a payload that a text shows. -/
def payloadPattern? (text : List Char) : Option PayloadPattern :=
  if text = ['_'] then some .any
  else if text = "CmdPayload::Empty".toList then some .empty
  else (between? "CmdPayload::" "(cmd_payload)" text).map .carried

theorem commandPattern_text (pattern : CommandPattern) :
    commandPattern? pattern.text.toList = some pattern := by
  cases pattern with
  | any => rfl
  | only variant =>
      have hbetween := between_append "CmdEnum::" variant ""
      rw [String.append_empty] at hbetween
      have hne : ("CmdEnum::" ++ variant).toList ≠ ['_'] := by simp
      rw [CommandPattern.text, commandPattern?, if_neg hne, hbetween]
      rfl

theorem payloadPattern_text (pattern : PayloadPattern) :
    payloadPattern? pattern.text.toList = some pattern := by
  cases pattern with
  | any => rfl
  | empty => rfl
  | carried variant =>
      have hany : ("CmdPayload::" ++ variant ++ "(cmd_payload)").toList ≠ ['_'] := by simp
      have hempty : ("CmdPayload::" ++ variant ++ "(cmd_payload)").toList ≠
          "CmdPayload::Empty".toList := by
        intro heq
        have hlast := congrArg (fun text => text.reverse.head?) heq
        simp at hlast
      rw [PayloadPattern.text, payloadPattern?, if_neg hany, if_neg hempty, between_append]
      rfl

/-! ## Arms -/

/-- The result of an arm: its words without the comma behind them. -/
def resultText (result : List (List Char)) : String :=
  String.ofList (List.intercalate [' '] result).dropLast

/-- The pattern for a pair, from its two words. -/
def pairPattern? (command payload : List Char) : Option (CommandPattern × PayloadPattern) := do
  let command ← between? "(" "," command
  let payload ← between? "" ")" payload
  some (← commandPattern? command.toList, ← payloadPattern? payload.toList)

/-- The arm on a line of a match on a command and a payload. -/
def pairArm? (line : String) : Option (Arm String) :=
  match words line with
  | command :: payload :: result =>
      if command = ['_'] then some ⟨.any, .any, resultText result⟩
      else (pairPattern? command payload).map fun pattern =>
        ⟨pattern.1, pattern.2, resultText (result.drop 1)⟩
  | _ => none

/-- Patterns whose variants are words. -/
def CommandPattern.IsWord : CommandPattern → Prop
  | any => True
  | only variant => CommandSet.IsWord variant

/-- Patterns whose variants are words. -/
def PayloadPattern.IsWord : PayloadPattern → Prop
  | carried variant => CommandSet.IsWord variant
  | _ => True

theorem CommandPattern.IsWord.unbroken {pattern : CommandPattern} (h : pattern.IsWord) :
    Unbroken pattern.text := by
  cases pattern with
  | any => decide
  | only variant => exact (by decide : Unbroken "CmdEnum::").append h.blank_not_mem

theorem PayloadPattern.IsWord.unbroken {pattern : PayloadPattern} (h : pattern.IsWord) :
    Unbroken pattern.text := by
  cases pattern with
  | any => decide
  | empty => decide
  | carried variant =>
      exact ((by decide : Unbroken "CmdPayload::").append h.blank_not_mem).append (by decide)

/-- Results that are the words they are made of. -/
def Joined (result : String) : Prop :=
  resultText (words (result ++ ",")) = result

theorem joined_of_unbroken {result : String} (h : Unbroken result) : Joined result := by
  rw [Joined, words_unbroken (h.append (by decide))]
  simp [resultText, List.intercalate]

/-- An arm is read off the line that shows it. -/
theorem pairArm_line {α : Type} {render : α → String} {arm : Arm α}
    (hcommand : arm.command.IsWord) (hpayload : arm.payload.IsWord)
    (hresult : Joined (render arm.result)) (level : Nat) :
    pairArm? (indent level (arm.line render)) =
      some ⟨arm.command, arm.payload, render arm.result⟩ := by
  obtain ⟨command, payload, result⟩ := arm
  by_cases hany : command = .any ∧ payload = .any
  · obtain ⟨rfl, rfl⟩ := hany
    have hline : Arm.line render ⟨.any, .any, result⟩ =
        "_" ++ " " ++ ("=>" ++ " " ++ (render result ++ ",")) := by
      simp [Arm.line, Arm.pattern, ← String.toList_inj]
    rw [pairArm?, words_indent, hline, words_append (by decide), words_append (by decide)]
    have hwild : "_".toList = ['_'] := by decide
    dsimp only
    rw [if_pos hwild]
    exact congrArg (fun text => some (Arm.mk _ _ text)) hresult
  · have hpattern : Arm.pattern ⟨command, payload, result⟩ =
        "(" ++ command.text ++ ", " ++ payload.text ++ ")" := by
      cases command <;> cases payload <;> first | rfl | exact absurd ⟨rfl, rfl⟩ hany
    have hline : Arm.line render ⟨command, payload, result⟩ = ("(" ++ command.text ++ ",") ++ " " ++
        ((payload.text ++ ")") ++ " " ++ ("=>" ++ " " ++ (render result ++ ","))) := by
      simp [Arm.line, hpattern, ← String.toList_inj]
    have hfirst : Unbroken ("(" ++ command.text ++ ",") :=
      ((by decide : Unbroken "(").append hcommand.unbroken.2).append (by decide)
    have hsecond : Unbroken (payload.text ++ ")") := hpayload.unbroken.append (by decide)
    have hpair : pairPattern? ("(" ++ command.text ++ ",").toList (payload.text ++ ")").toList =
        some (command, payload) := by
      have hempty : payload.text ++ ")" = "" ++ payload.text ++ ")" := by
        rw [String.empty_append]
      unfold pairPattern?
      rw [hempty, between_append, between_append]
      simp only [Option.bind_eq_bind, Option.bind_some, commandPattern_text, payloadPattern_text]
    have hne : ("(" ++ command.text ++ ",").toList ≠ ['_'] := by
      simp
    rw [pairArm?, words_indent, hline, words_append hfirst, words_append hsecond,
      words_append (by decide)]
    dsimp only
    rw [if_neg hne, hpair, Option.map_some, List.drop_succ_cons, List.drop_zero]
    exact congrArg (fun text => some (Arm.mk _ _ text)) hresult

/-- The arms of a match are selected before their results are written. -/
theorem firstMatch_map {α : Type} (render : α → String) (arms : List (Arm α)) (command : String)
    (payload : PayloadVariant) :
    firstMatch? (arms.map fun arm => ⟨arm.command, arm.payload, render arm.result⟩)
      command payload = (firstMatch? arms command payload).map render := by
  rw [firstMatch?, firstMatch?, List.find?_map, Option.map_map, Option.map_map]
  rfl

/-- A match that selects is exhaustive. -/
theorem exists_accepts_of_firstMatch {α : Type} {arms : List (Arm α)} {command : String}
    {payload : PayloadVariant} {result : α} (h : firstMatch? arms command payload = some result) :
    ∃ arm ∈ arms, arm.accepts command payload = true := by
  obtain ⟨arm, hfind, -⟩ := Option.map_eq_some_iff.mp h
  exact ⟨arm, List.mem_of_find?_eq_some hfind, (List.find?_eq_some_iff_append.mp hfind).1⟩

/-! ## Enumerations -/

/-- The variant that a line of the command enumeration declares. -/
def commandVariant? (line : String) : Option String :=
  match words line with
  | [word] => (word.dropSuffix? [',']).map String.ofList
  | _ => none

/-- The variants of the command enumeration. -/
def commandVariants (lines : List String) : List String :=
  (blockOf 0 "pub enum CmdEnum" lines).filterMap commandVariant?

/-- The variant that a line of the payload type declares. -/
def payloadVariant? (line : String) : Option PayloadVariant :=
  match words line with
  | [word] =>
      if word = "Empty,".toList then some .empty
      else some (.carried (String.ofList (word.takeWhile (· != '('))))
  | _ => none

/-- The variants of the payload type. -/
def payloadVariants (lines : List String) : List PayloadVariant :=
  (blockOf 0 "pub enum CmdPayload" lines).filterMap payloadVariant?

theorem words_variant {text : String} (h : IsWord text) :
    words (text ++ ",") = [text.toList ++ [',']] := by
  have hunbroken : Unbroken (text ++ ",") := by
    refine ⟨by simp, ?_⟩
    simpa using h.blank_not_mem
  rw [words_unbroken hunbroken]
  simp

theorem commandVariant_indent {variant : String} (h : IsWord variant) (level : Nat) :
    commandVariant? (indent level (variant ++ ",")) = some variant := by
  rw [commandVariant?, words_indent, words_variant h]
  dsimp only
  rw [dropSuffix_append, Option.map_some, String.ofList_toList]

theorem payloadVariant_indent {variant typeName : String} (hvariant : IsWord variant)
    (htype : IsWord typeName) (level : Nat) :
    payloadVariant? (indent level (variant ++ "(" ++ typeName ++ "),")) =
      some (.carried variant) := by
  have htext : (variant ++ "(" ++ typeName ++ "),").toList =
      variant.toList ++ '(' :: (typeName.toList ++ [')', ',']) := by
    simp
  have hunbroken : Unbroken (variant ++ "(" ++ typeName ++ "),") := by
    refine ⟨by simp [htext], ?_⟩
    simpa [htext] using ⟨hvariant.blank_not_mem, htype.blank_not_mem⟩
  have hne : (variant ++ "(" ++ typeName ++ "),").toList ≠ "Empty,".toList := by
    intro heq
    have hend := congrArg (fun text => text.reverse[1]?) heq
    simp at hend
  have hname : ∀ c ∈ variant.toList, (c != '(') = true := by
    intro c hc
    rw [bne_iff_ne]
    rintro rfl
    exact (by decide : ¬IsNameRest '(') (hvariant _ hc)
  rw [payloadVariant?, words_indent, words_unbroken hunbroken]
  dsimp only
  rw [if_neg hne, htext, List.takeWhile_append_of_pos hname, List.takeWhile_cons_of_neg (by decide),
    List.append_nil, String.ofList_toList]

/-! ## Variants of a bridge -/

theorem commandVariants_lines {bridge : Bridge}
    (hvariants : ∀ v ∈ bridge.commands, IsWord v.variant) :
    commandVariants bridge.lines = bridge.commands.map (·.variant) := by
  let front := bridge.headLines ++
    ["/// Command names", "#[derive(Debug, Clone, Copy, PartialEq, Eq)]"]
  let body := bridge.commands.map fun v => indent 1 (v.variant ++ ",")
  have hlines : ∃ rest, bridge.lines = front ++ opening "pub enum CmdEnum" ::
      (body ++ (closing ++ "") :: rest) := by
    rw [Bridge.lines_eq]
    simp only [CommandVariant.enumLines, front, body, List.append_assoc, List.cons_append,
      List.nil_append, String.append_empty]
    exact ⟨_, rfl⟩
  have hfront : opening "pub enum CmdEnum" ∉ front.filter startsItem :=
    (bridge.startAs_head.append ((startAs_comment rfl _).append (startAs_comment rfl _))).not_mem
      (by decide)
  have hbody : ∀ line ∈ body, closesAt 0 line = false :=
    List.forall_mem_map.mpr fun v _ => closesAt_indent (by decide) _
  obtain ⟨rest, hlines⟩ := hlines
  rw [commandVariants, hlines, blockOf_item (startsItem_append _ _ _) hfront hbody]
  exact filterMap_lines fun v hv => commandVariant_indent (hvariants v hv) 1

theorem payloadVariants_lines {bridge : Bridge}
    (hvariants : ∀ v ∈ bridge.variants, IsWord v.1 ∧ IsWord v.2) :
    payloadVariants bridge.lines =
      .empty :: bridge.variants.map fun v => .carried v.1 := by
  let front := bridge.headLines ++ (CommandVariant.enumLines bridge.commands ++
    (bridge.structLines ++ ["/// Payload of any command", "#[derive(Debug, Clone, PartialEq)]"]))
  let entries := bridge.variants.map fun v => indent 1 (v.1 ++ "(" ++ v.2 ++ "),")
  let body := indent 1 (PayloadVariant.empty.name ++ ",") :: entries
  have hlines : ∃ rest, bridge.lines = front ++ opening "pub enum CmdPayload" ::
      (body ++ (closing ++ "") :: rest) := by
    rw [Bridge.lines_eq]
    simp only [Bridge.payloadLines, front, body, entries, List.append_assoc, List.cons_append,
      List.nil_append, String.append_empty]
    exact ⟨_, rfl⟩
  have hfront : opening "pub enum CmdPayload" ∉ front.filter startsItem :=
    (bridge.startAs_head.append ((startAs_enum _).append
      (bridge.startAs_structs.append ((startAs_comment rfl _).append
        (startAs_comment rfl _))))).not_mem (by decide)
  have hbody : ∀ line ∈ body, closesAt 0 line = false :=
    List.forall_mem_cons.mpr
      ⟨by decide, List.forall_mem_map.mpr fun v _ => closesAt_indent (by decide) _⟩
  have hempty : payloadVariant? (indent 1 (PayloadVariant.empty.name ++ ",")) = some .empty := by
    decide
  have hentries : entries.filterMap payloadVariant? = bridge.variants.map fun v => .carried v.1 :=
    filterMap_lines fun v hv => payloadVariant_indent (hvariants v hv).1 (hvariants v hv).2 1
  obtain ⟨rest, hlines⟩ := hlines
  rw [payloadVariants, hlines, blockOf_item (startsItem_append _ _ _) hfront hbody,
    List.filterMap_cons_some hempty,
    hentries]

variable {protocol : Protocol}

/-- The variants of the command enumeration are the commands. -/
theorem commandVariants_bridge (hwell : WellFormed protocol) (role : Role) :
    commandVariants (Bridge.build (Prepared.ofProtocol protocol) role).lines =
      protocol.commands.map fun cmd => capitalized cmd.name := by
  rw [commandVariants_lines (isWord_variant hwell)]
  exact List.map_map

/-- The variants of the payload type are the empty one and the commands with attributes. -/
theorem payloadVariants_bridge (hwell : WellFormed protocol) (role : Role) :
    payloadVariants (Bridge.build (Prepared.ofProtocol protocol) role).lines =
      .empty :: protocol.carriers.map fun cmd => .carried (capitalized cmd.name) := by
  rw [payloadVariants_lines]
  · exact congrArg (List.cons _) List.map_map
  · refine List.forall_mem_map.mpr fun cmd hcmd => ?_
    have hname := hwell.command_names cmd (List.mem_of_mem_filter hcmd)
    exact ⟨isWord_capitalized hname.isWord, isWord_typedCommandPayload hname⟩

end Typed
end CommandSet
