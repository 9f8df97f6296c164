import CommandSet.Proofs.Generation.CommandIds
import CommandSet.Proofs.Typed.Matches
import CommandSet.Typed.MainModule

/-!
# Dispatching in Rust

The dispatcher of a main module and the decoding function of a bridge select by the command,
the dispatcher also by the payload.  Both are read off their modules as matches in which the
first matching arm counts.

Main definitions:

- {lit}`dispatchArms`: the arms of the dispatcher.
- {lit}`decodeMatch?`, {lit}`decodeResult?`: the arms of decoding, and what it gives.
- {lit}`yielded?`: the payload that an expression yields.
- {lit}`Dispatches`: every command and payload is handled as its role has to.

Main result:

- Theorem {lit}`dispatches_prepared`: they are for every protocol that code is generated from.
-/

namespace CommandSet
namespace Typed

/-! ## The dispatcher -/

/-- The arms of the dispatcher. -/
def dispatchArms (lines : List String) : List (Arm String) :=
  (blockOf 1 "match (cmd_name, payload)"
    (blockOf 0 "pub fn execute(cmd_name: CmdEnum, payload: &CmdPayload) -> bool" lines)).filterMap
      pairArm?

/-- Handlers are the only items of a main module before its dispatcher. -/
theorem filter_startsItem_handler (handler : Handler) :
    ∃ text, handler.lines.filter startsItem = ["fn " ++ text] := by
  unfold Handler.lines
  cases handler.payload with
  | none =>
      refine ⟨Handler.name handler.command ++ ("() -> bool" ++ r" {"), ?_⟩
      simp only [List.filter_append, List.filter_cons, List.filter_nil, startsItem_indent, opening,
        closing, String.append_assoc]
      repeat rw [startsItem_append]
      repeat rw [startsItem_ofList]
      rfl
  | some payload =>
      refine ⟨Handler.name handler.command ++ ("(payload: &" ++ (payload.1 ++
        (") -> bool" ++ r" {"))), ?_⟩
      simp only [List.filter_append, List.filter_cons, List.filter_nil, startsItem_indent,
        filter_startsItem_indent, opening, closing, String.append_assoc]
      repeat rw [startsItem_append]
      repeat rw [startsItem_ofList]
      rfl

theorem startAs_handlers (handlers : List Handler) :
    StartAs ["fn "] (handlers.flatMap Handler.lines) := by
  intro line hline
  rw [List.filter_flatMap, List.mem_flatMap] at hline
  obtain ⟨handler, -, hmem⟩ := hline
  obtain ⟨text, hhandler⟩ := filter_startsItem_handler handler
  obtain rfl := List.mem_singleton.mp (hhandler ▸ hmem)
  exact ⟨_, List.mem_singleton_self _, toList_prefix_append _ _⟩

/-- A main module starts with imports. -/
theorem MainModule.startAs_imports (module : MainModule) :
    StartAs ["use "] (moduleBanner (module.protocol ++ " protocol module (role " ++
      module.role.label ++ ")") ++
        ["use super::" ++ Naming.typedBridgeModule module.protocol ++ r"::{" ++
            String.intercalate ", " module.importedItems ++ r"};",
          "use lcsf_lib::lcsf_transcoder;", "use lcsf_lib::lcsf_validator::LcsfValidCmd;",
          ""]) := by
  have hitems : ∃ rest, (moduleBanner (module.protocol ++ " protocol module (role " ++
      module.role.label ++ ")") ++
        ["use super::" ++ Naming.typedBridgeModule module.protocol ++ r"::{" ++
            String.intercalate ", " module.importedItems ++ r"};",
          "use lcsf_lib::lcsf_transcoder;", "use lcsf_lib::lcsf_validator::LcsfValidCmd;",
            ""]).filter startsItem = ["use super::" ++ rest, "use lcsf_lib::lcsf_transcoder;",
              "use lcsf_lib::lcsf_validator::LcsfValidCmd;"] := by
    simp only [moduleBanner, List.filter_append, List.filter_cons, List.filter_nil,
      String.append_assoc]
    repeat rw [startsItem_append]
    repeat rw [startsItem_ofList]
    exact ⟨_, rfl⟩
  obtain ⟨rest, hitems⟩ := hitems
  refine startAs_of_eq hitems ?_
  simp only [List.forall_mem_cons, String.toList_append]
  repeat rw [String.toList_ofList]
  exact ⟨⟨_, rfl⟩, ⟨_, rfl⟩, ⟨_, rfl⟩, List.forall_mem_nil _⟩

/-- Results of dispatching are one word. -/
theorem joined_executeResult {result : ExecuteResult}
    (h : ∀ command payload, result = .call command payload → IsWord command) :
    Joined result.text := by
  refine joined_of_unbroken ?_
  cases result with
  | refuse => decide
  | call command payload =>
      have hname := (isWord_snakeCase (h command payload rfl)).blank_not_mem
      have hhandler : Unbroken (Handler.name command) :=
        (by decide : Unbroken "execute_").append hname
      cases payload
      · exact hhandler.append (by decide : ' ' ∉ "()".toList)
      · exact hhandler.append (by decide : ' ' ∉ "(cmd_payload)".toList)

/-- The arms of the dispatcher are read off the main module. -/
theorem dispatchArms_lines {module : MainModule}
    (harms : ∀ arm ∈ module.arms, arm.command.IsWord ∧ arm.payload.IsWord ∧
      Joined arm.result.text) :
    dispatchArms module.lines =
      module.arms.map fun arm => ⟨arm.command, arm.payload, arm.result.text⟩ := by
  let front := moduleBanner (module.protocol ++ " protocol module (role " ++ module.role.label ++
      ")") ++
    ["use super::" ++ Naming.typedBridgeModule module.protocol ++ r"::{" ++
        String.intercalate ", " module.importedItems ++ r"};",
      "use lcsf_lib::lcsf_transcoder;", "use lcsf_lib::lcsf_validator::LcsfValidCmd;", ""] ++
    module.handlers.flatMap Handler.lines ++ ["/// Dispatch a decoded command to its handler."]
  let arms := module.arms.map fun arm => indent 2 (arm.line ExecuteResult.text)
  let body := indent 1 (opening "match (cmd_name, payload)") :: (arms ++ [indent 1 closing])
  have hlines : ∃ rest, module.lines = front ++
      opening "pub fn execute(cmd_name: CmdEnum, payload: &CmdPayload) -> bool" ::
        (body ++ (closing ++ "") :: rest) := by
    simp only [MainModule.lines, front, body, arms, List.append_assoc, List.cons_append,
      List.nil_append, String.append_empty]
    exact ⟨_, rfl⟩
  have hfront : opening "pub fn execute(cmd_name: CmdEnum, payload: &CmdPayload) -> bool" ∉
      front.filter startsItem :=
    ((module.startAs_imports.append (startAs_handlers _)).append
      (startAs_comment rfl _)).not_mem (by decide)
  have harm {level : Nat} (hlevel : level < 2) : ∀ line ∈ arms, closesAt level line = false :=
    List.forall_mem_map.mpr fun arm _ => closesAt_indent hlevel _
  have hbody : ∀ line ∈ body, closesAt 0 line = false := by
    rw [List.forall_mem_cons, List.forall_mem_append]
    exact ⟨by decide, harm (by decide), by decide⟩
  have hmatch : blockOf 1 "match (cmd_name, payload)" body = arms :=
    @blockOf_append 1 "match (cmd_name, payload)" (indent 1 closing) [] arms (List.forall_mem_nil _)
      (harm (by decide)) (closesAt_indent_closing 1) []
  obtain ⟨rest, hlines⟩ := hlines
  rw [dispatchArms, hlines, blockOf_item (startsItem_append _ _ _) hfront hbody, hmatch]
  exact filterMap_lines fun arm harm =>
    pairArm_line (harms arm harm).1 (harms arm harm).2.1 (harms arm harm).2.2 2

/-! ## Decoding -/

/-- The lines of the function that decodes a command. -/
def decodeBody (lines : List String) : List String :=
  blockOf 0 "pub fn decode(valid_cmd: &LcsfValidCmd) -> Option<(CmdEnum, CmdPayload)>" lines

/-- The arm on a line of a match on a command. -/
def commandArm? (line : String) : Option (CommandPattern × String) :=
  (arm? line).bind fun arm =>
    (commandPattern? arm.1.toList).map fun pattern => (pattern, arm.2)

/-- The arms by which decoding selects, if it has a match. -/
def decodeMatch? (lines : List String) : Option (List (CommandPattern × String)) :=
  if indent 1 (opening "let payload = match cmd_name") ∈ decodeBody lines then
    some ((blockOf 1 "let payload = match cmd_name" (decodeBody lines)).filterMap commandArm?)
  else none

/-- The expression for the payload of a command. -/
def decodeResult? (lines : List String) (command : String) : Option String :=
  match decodeMatch? lines with
  | some arms => (arms.find? (·.1.accepts command)).map (·.2)
  | none => (decodeBody lines).findSome? fun line => between? "    let payload = " ";" line.toList

/-- The payload that an expression yields, with the function that decodes what it carries. -/
def yielded? (text : List Char) : Option (PayloadVariant × Option String) :=
  if text = "CmdPayload::Empty".toList then some (.empty, none)
  else do
    let rest ← text.dropPrefix? "CmdPayload::".toList
    let decoder ← between? "(" "(&valid_cmd.att_arr)?)" (rest.dropWhile (· != '('))
    some (.carried (String.ofList (rest.takeWhile (· != '('))), some decoder)

theorem yielded_empty : yielded? DecodeResult.empty.text.toList = some (.empty, none) := by
  decide

theorem yielded_decoded {variant stem : String} (hvariant : IsWord variant) :
    yielded? (DecodeResult.decoded variant stem).text.toList =
      some (.carried variant, some (Decoder.name stem)) := by
  let call := "(" ++ Decoder.name stem ++ "(&valid_cmd.att_arr)?)"
  have htext : (DecodeResult.decoded variant stem).text.toList =
      "CmdPayload::".toList ++ (variant.toList ++ call.toList) := by
    have hparts : (DecodeResult.decoded variant stem).text = "CmdPayload::" ++ variant ++ "(" ++
        Decoder.name stem ++ "(&valid_cmd.att_arr)?)" := rfl
    simp only [call, hparts, String.toList_append, List.append_assoc]
  have hne : "CmdPayload::".toList ++ (variant.toList ++ call.toList) ≠
      "CmdPayload::Empty".toList := by
    intro heq
    have hlast := congrArg List.getLast? heq
    simp only [call, String.toList_append, ← List.append_assoc] at hlast
    repeat rw [String.toList_ofList] at hlast
    rw [List.getLast?_append] at hlast
    have hletters : some ')' = some 'y' := hlast
    exact absurd hletters (by decide)
  have hname : ∀ c ∈ variant.toList, (c != '(') = true := by
    intro c hc
    rw [bne_iff_ne]
    rintro rfl
    exact (by decide : ¬IsNameRest '(') (hvariant _ hc)
  have hcall : call.toList = '(' :: (Decoder.name stem ++ "(&valid_cmd.att_arr)?)").toList := by
    simp only [call, String.append_assoc]
    rw [String.toList_append, String.toList_ofList, List.singleton_append]
  rw [yielded?, htext, if_neg hne, dropPrefix_append, Option.bind_eq_bind, Option.bind_some,
    Option.bind_eq_bind]
  have htake : (variant.toList ++ call.toList).takeWhile (· != '(') = variant.toList := by
    rw [hcall, List.takeWhile_append_of_pos hname, List.takeWhile_cons_of_neg (by decide),
      List.append_nil]
  have hdrop : (variant.toList ++ call.toList).dropWhile (· != '(') = call.toList := by
    rw [hcall, List.dropWhile_append_of_pos hname, List.dropWhile_cons_of_neg (by decide)]
  rw [htake, hdrop, between_append, Option.bind_some, String.ofList_toList]

theorem commandArm_indent {pattern : CommandPattern} {result : String} (hpattern : pattern.IsWord)
    (hresult : Unbroken result) (level : Nat) :
    commandArm? (indent level (pattern.text ++ " => " ++ result ++ ",")) =
      some (pattern, result) := by
  rw [commandArm?, arm_indent hpattern.unbroken hresult, Option.bind_some, commandPattern_text,
    Option.map_some]

/-- The arms of decoding, line by line. -/
def decodeArmLines (arms : List (CommandPattern × DecodeResult)) : List String :=
  arms.map fun arm => indent 2 (arm.1.text ++ " => " ++ arm.2.text ++ ",")

/-- The lines that select a payload. -/
def selectionLines (bridge : Bridge) : List String :=
  if bridge.decoders.isEmpty then [indent 1 "let payload = CmdPayload::Empty;"]
  else
    [indent 1 (opening "let payload = match cmd_name")] ++ decodeArmLines bridge.decodeArms ++
      [indent 1 (closing ++ ";")]

/-- The lines of decoding are read off the bridge. -/
theorem decodeBody_lines (bridge : Bridge) :
    decodeBody bridge.lines = indent 1 "let cmd_name = CmdEnum::from_id(valid_cmd.cmd_id)?;" ::
      (selectionLines bridge ++ [indent 1 "Some((cmd_name, payload))"]) := by
  let front := bridge.headLines ++ (CommandVariant.enumLines bridge.commands ++
    (bridge.structLines ++ (Bridge.payloadLines bridge.variants ++ (bridge.tableLines ++
      ["/// Decode a validated command into its name and typed payload."]))))
  let body := indent 1 "let cmd_name = CmdEnum::from_id(valid_cmd.cmd_id)?;" ::
      (selectionLines bridge ++ [indent 1 "Some((cmd_name, payload))"])
  have hlines : ∃ rest, bridge.lines = front ++
      opening "pub fn decode(valid_cmd: &LcsfValidCmd) -> Option<(CmdEnum, CmdPayload)>" ::
        (body ++ (closing ++ "") :: rest) := by
    rw [Bridge.lines_eq]
    simp only [Bridge.decodeLines, selectionLines, decodeArmLines, front, body, List.append_assoc,
      List.cons_append, List.nil_append, String.append_empty]
    exact ⟨_, rfl⟩
  have hfront : opening "pub fn decode(valid_cmd: &LcsfValidCmd) -> Option<(CmdEnum, CmdPayload)>" ∉
      front.filter startsItem :=
    (bridge.startAs_head.append ((startAs_enum _).append (bridge.startAs_structs.append
      ((startAs_payload _).append (bridge.startAs_tableLines.append
        (startAs_comment rfl _)))))).not_mem (by decide)
  have hselection : ∀ line ∈ selectionLines bridge, closesAt 0 line = false := by
    unfold selectionLines
    split
    · exact List.forall_mem_singleton.mpr (closesAt_indent Nat.one_pos _)
    · rw [List.forall_mem_append, List.forall_mem_append, List.forall_mem_singleton,
        List.forall_mem_singleton]
      exact ⟨⟨closesAt_indent Nat.one_pos _,
        List.forall_mem_map.mpr fun arm _ => closesAt_indent Nat.two_pos _⟩,
          closesAt_indent Nat.one_pos _⟩
  have hbody : ∀ line ∈ body, closesAt 0 line = false := by
    rw [List.forall_mem_cons, List.forall_mem_append, List.forall_mem_singleton]
    exact ⟨closesAt_indent Nat.one_pos _, hselection, closesAt_indent Nat.one_pos _⟩
  obtain ⟨rest, hlines⟩ := hlines
  rw [decodeBody, hlines, blockOf_item (startsItem_append _ _ _) hfront hbody]

/-- Without decoders, decoding has no match. -/
theorem decodeMatch_of_isEmpty {bridge : Bridge} (h : bridge.decoders.isEmpty = true) :
    decodeMatch? bridge.lines = none := by
  rw [decodeMatch?, decodeBody_lines, selectionLines, if_pos h]
  decide

theorem decodeMatch_of_not_isEmpty {bridge : Bridge} (h : bridge.decoders.isEmpty = false)
    (harms : ∀ arm ∈ bridge.decodeArms, arm.1.IsWord ∧ Unbroken arm.2.text) :
    decodeMatch? bridge.lines = some (bridge.decodeArms.map fun arm => (arm.1, arm.2.text)) := by
  have hmem : indent 1 (opening "let payload = match cmd_name") ∈ decodeBody bridge.lines := by
    rw [decodeBody_lines, selectionLines, h]
    simp
  have hfirst : ∀ line ∈ [indent 1 "let cmd_name = CmdEnum::from_id(valid_cmd.cmd_id)?;"],
      line ≠ indent 1 (opening "let payload = match cmd_name") := by
    decide
  have harmLines : ∀ line ∈ decodeArmLines bridge.decodeArms, closesAt 1 line = false :=
    List.forall_mem_map.mpr fun arm _ => closesAt_indent (by decide) _
  have hblock := blockOf_append hfirst harmLines (closesAt_closing 1 ";")
    [indent 1 "Some((cmd_name, payload))"]
  have hbody : decodeBody bridge.lines =
      [indent 1 "let cmd_name = CmdEnum::from_id(valid_cmd.cmd_id)?;"] ++
        indent 1 (opening "let payload = match cmd_name") ::
          (decodeArmLines bridge.decodeArms ++
            indent 1 (closing ++ ";") :: [indent 1 "Some((cmd_name, payload))"]) := by
    rw [decodeBody_lines, selectionLines, h]
    simp
  rw [decodeMatch?, if_pos hmem, hbody, hblock]
  refine congrArg some (filterMap_lines fun arm harm => ?_)
  exact commandArm_indent (harms arm harm).1 (harms arm harm).2 2

theorem decodeResult_of_isEmpty {bridge : Bridge} (h : bridge.decoders.isEmpty = true)
    (command : String) : decodeResult? bridge.lines command = some "CmdPayload::Empty" := by
  rw [decodeResult?, decodeMatch_of_isEmpty h, decodeBody_lines, selectionLines, if_pos h]
  dsimp only
  decide

theorem decodeResult_of_not_isEmpty {bridge : Bridge} (h : bridge.decoders.isEmpty = false)
    (harms : ∀ arm ∈ bridge.decodeArms, arm.1.IsWord ∧ Unbroken arm.2.text) (command : String) :
    decodeResult? bridge.lines command =
      (bridge.decodeArms.find? (·.1.accepts command)).map (·.2.text) := by
  rw [decodeResult?, decodeMatch_of_not_isEmpty h harms]
  dsimp only
  rw [List.find?_map, Option.map_map]
  rfl

/-! ## Selection -/

/-- Whether a role executes a command that comes with a payload: it receives the command, and
the payload is the command's own if it has attributes. -/
def executes (role : Role) (cmd : Command) (payload : PayloadVariant) : Bool :=
  cmd.isReceivable role && (!cmd.hasAttributes || payload == .carried (capitalized cmd.name))

section Selection

variable {protocol : Protocol} {cmd other : Command}

theorem eq_of_capitalized_eq (hwell : WellFormed protocol) (hcmd : cmd ∈ protocol.commands)
    (hother : other ∈ protocol.commands) (h : capitalized cmd.name = capitalized other.name) :
    cmd = other :=
  List.inj_on_of_nodup_map (nodup_capitalized_commands hwell) hcmd hother h

/-- Among the arms of some commands, that of a command is the first that accepts it. -/
theorem find?_ownArm {α : Type} {entries : List Command} {arm : Command → α} {accepts : α → Bool}
    (hwell : WellFormed protocol) (hentries : entries.Sublist protocol.commands)
    (hcmd : cmd ∈ entries)
    (haccepts : ∀ entry ∈ entries,
      accepts (arm entry) = (capitalized entry.name == capitalized cmd.name)) (others : List α) :
    (entries.map arm ++ others).find? accepts = some (arm cmd) :=
  find?_arm ((nodup_capitalized_commands hwell).sublist (hentries.map _)) haccepts hcmd rfl others

theorem accepts_executeArm (payload : PayloadVariant) :
    (executeArm cmd).accepts (capitalized other.name) payload =
      (capitalized cmd.name == capitalized other.name &&
        (!cmd.hasAttributes || payload.name == capitalized cmd.name)) := by
  unfold executeArm Arm.accepts
  cases cmd.hasAttributes <;> rfl

/-- Payloads are told apart by their names where no command is named like the empty one. -/
theorem name_beq_capitalized (hempty : capitalized cmd.name ≠ "Empty") (payload : PayloadVariant) :
    (payload.name == capitalized cmd.name) = (payload == .carried (capitalized cmd.name)) := by
  cases payload with
  | empty => simpa [PayloadVariant.name] using hempty.symm
  | carried variant =>
      by_cases h : variant = capitalized cmd.name <;> simp [PayloadVariant.name, h]

/-- The arm of a received command accepts what the role executes of that command. -/
theorem accepts_executeArm_eq (hwell : WellFormed protocol)
    (hempty : ∀ cmd ∈ protocol.commands, capitalized cmd.name ≠ "Empty") {role : Role}
    (hcmd : cmd ∈ protocol.commands) {entry : Command} (hentry : entry ∈ protocol.received role)
    (payload : PayloadVariant) :
    (executeArm entry).accepts (capitalized cmd.name) payload =
      (capitalized entry.name == capitalized cmd.name && executes role cmd payload) := by
  obtain ⟨hmem, hreceived⟩ := List.mem_filter.mp hentry
  rw [accepts_executeArm]
  by_cases h : capitalized entry.name = capitalized cmd.name
  · obtain rfl := eq_of_capitalized_eq hwell hmem hcmd h
    rw [name_beq_capitalized (hempty _ hcmd), executes, hreceived, Bool.true_and]
  · rw [beq_false_of_ne h, Bool.false_and, Bool.false_and]

/-- The last arm is left out only where every command is executed. -/
theorem executeArms_of_not_executes {role : Role} (hcmd : cmd ∈ protocol.commands)
    {payload : PayloadVariant} (hrefused : executes role cmd payload = false) :
    executeArms protocol.commands (protocol.received role) =
      (protocol.received role).map executeArm ++ [⟨.any, .any, .refuse⟩] := by
  rw [executeArms, if_neg]
  intro hall
  rw [Bool.and_eq_true, beq_iff_eq, List.all_eq_true] at hall
  have hreceivable := List.length_filter_eq_length_iff.mp hall.1 cmd hcmd
  rw [executes, hreceivable, hall.2 cmd (List.mem_filter.mpr ⟨hcmd, hreceivable⟩)] at hrefused
  contradiction

/-- A command that is executed finds its own arm, any other the last one. -/
theorem firstMatch_executeArms (hwell : WellFormed protocol)
    (hempty : ∀ cmd ∈ protocol.commands, capitalized cmd.name ≠ "Empty") (role : Role)
    (hcmd : cmd ∈ protocol.commands) (payload : PayloadVariant) :
    firstMatch? (executeArms protocol.commands (protocol.received role)) (capitalized cmd.name)
      payload = some (if executes role cmd payload then .call cmd.name cmd.hasAttributes
        else .refuse) := by
  have haccepts (entry : Command) (hentry : entry ∈ protocol.received role) :
      (executeArm entry).accepts (capitalized cmd.name) payload =
        (capitalized entry.name == capitalized cmd.name && executes role cmd payload) :=
    accepts_executeArm_eq hwell hempty hcmd hentry payload
  cases hexecutes : executes role cmd payload with
  | true =>
      simp only [hexecutes, Bool.and_true] at haccepts
      have hsub : (protocol.received role).Sublist protocol.commands := List.filter_sublist
      have hreceived : cmd ∈ protocol.received role :=
        List.mem_filter.mpr ⟨hcmd, (Bool.and_eq_true_iff.mp hexecutes).1⟩
      have hfind (others : List (Arm ExecuteResult)) :
          ((protocol.received role).map executeArm ++ others).find?
            (·.accepts (capitalized cmd.name) payload) = some (executeArm cmd) :=
        find?_ownArm hwell hsub hreceived haccepts others
      rw [firstMatch?, executeArms, hfind]
      rfl
  | false =>
      have hnone : ((protocol.received role).map executeArm).find?
          (·.accepts (capitalized cmd.name) payload) = none := by
        rw [List.find?_eq_none, List.forall_mem_map]
        intro entry hentry
        rw [haccepts entry hentry, hexecutes, Bool.and_false]
        exact Bool.false_ne_true
      rw [firstMatch?, executeArms_of_not_executes hcmd hexecutes, List.find?_append, hnone]
      rfl

/-- Decoding gives a received command with attributes its own payload, any other none. -/
theorem find?_decodeArms (hwell : WellFormed protocol) (role : Role)
    (hcmd : cmd ∈ protocol.commands) :
    ((decodeArms protocol.commands (protocol.decoded role)).find?
      (·.1.accepts (capitalized cmd.name))).map (·.2) =
        some (if cmd.isReceivable role && cmd.hasAttributes then
          .decoded (capitalized cmd.name) (commandStem cmd.name) else .empty) := by
  let arm (entry : Command) : CommandPattern × DecodeResult :=
    (.only (capitalized entry.name), .decoded (capitalized entry.name) (commandStem entry.name))
  let accepts (arm : CommandPattern × DecodeResult) : Bool := arm.1.accepts (capitalized cmd.name)
  have haccepts : ∀ entry ∈ protocol.decoded role,
      accepts (arm entry) = (capitalized entry.name == capitalized cmd.name) :=
    fun entry _ => rfl
  split
  next hdecoded =>
    have hmem : cmd ∈ protocol.decoded role := List.mem_filter.mpr ⟨hcmd, hdecoded⟩
    have hsub : (protocol.decoded role).Sublist protocol.commands := List.filter_sublist
    have hfind (others : List (CommandPattern × DecodeResult)) :
        ((protocol.decoded role).map arm ++ others).find? accepts = some (arm cmd) :=
      find?_ownArm hwell hsub hmem haccepts others
    rw [decodeArms, hfind]
    rfl
  next hother =>
    have hkey : capitalized cmd.name ∉
        (protocol.decoded role).map fun entry => capitalized entry.name := by
      rw [List.mem_map]
      rintro ⟨entry, hentry, h⟩
      obtain rfl := eq_of_capitalized_eq hwell (List.mem_of_mem_filter hentry) hcmd h
      exact hother (List.mem_filter.mp hentry).2
    have hlength : (protocol.decoded role).length < protocol.commands.length :=
      List.length_filter_lt_length_iff_exists.mpr ⟨cmd, hcmd, hother⟩
    have hfind (others : List (CommandPattern × DecodeResult)) :
        ((protocol.decoded role).map arm ++ others).find? accepts = others.find? accepts :=
      find?_other haccepts hkey others
    rw [decodeArms, hfind, if_pos hlength]
    rfl

end Selection

/-! ## All selections -/

/-- The name of the handler of a command. -/
def handlerName (cmd : Command) : String :=
  "execute_" ++ snakeCase cmd.name

/-- The first line of the handler of a command. -/
def handlerHead (cmd : Command) : String :=
  opening ("fn " ++ handlerName cmd ++
    (if cmd.hasAttributes then "(payload: &" ++ Naming.typedCommandPayload cmd.name ++ ")"
    else "()") ++ " -> bool")

/-- The call of the handler of a command. -/
def handlerCall (cmd : Command) : String :=
  handlerName cmd ++ if cmd.hasAttributes then "(cmd_payload)" else "()"

/-- The modules of a role select as they should: both matches are exhaustive over the variants
that the bridge declares, the dispatcher calls a handler exactly where the role executes the
command, and decoding yields the payload of a command exactly where the role receives one. -/
structure Dispatches (protocol : Protocol) (role : Role) (bridge main : List String) : Prop where
  commands : commandVariants bridge = protocol.commands.map fun cmd => capitalized cmd.name
  commands_nodup : (commandVariants bridge).Nodup
  payloads : payloadVariants bridge =
    .empty :: protocol.carriers.map fun cmd => .carried (capitalized cmd.name)
  payloads_nodup : ((payloadVariants bridge).map PayloadVariant.name).Nodup
  exhaustive : ∀ command ∈ commandVariants bridge, ∀ payload ∈ payloadVariants bridge,
    ∃ arm ∈ dispatchArms main, arm.accepts command payload = true
  handlers_nodup : ((protocol.received role).map handlerName).Nodup
  /-- The handler of a received command stands below the comment with its name. -/
  handlers : ∀ cmd ∈ protocol.received role, ∃ note,
    ["/// Execute command " ++ cmd.name ++ note, handlerHead cmd] <:+: main
  selects : ∀ cmd ∈ protocol.commands, ∀ payload ∈ payloadVariants bridge,
    firstMatch? (dispatchArms main) (capitalized cmd.name) payload =
      some (if executes role cmd payload then handlerCall cmd else "false")
  decode_exhaustive : ∀ arms, decodeMatch? bridge = some arms →
    ∀ command ∈ commandVariants bridge, ∃ arm ∈ arms, arm.1.accepts command = true
  decodes : ∀ cmd ∈ protocol.commands,
    (decodeResult? bridge (capitalized cmd.name)).bind (yielded? ·.toList) =
      some (if cmd.isReceivable role && cmd.hasAttributes then
        (.carried (capitalized cmd.name), some ("decode_" ++ snakeCase cmd.name ++ "_payload"))
      else (.empty, none))
  decode_ends : (decodeBody bridge).getLast? = some (indent 1 "Some((cmd_name, payload))")

section WellFormed

variable {protocol : Protocol}

theorem dispatchArms_mainModule (hwell : WellFormed protocol) (role : Role) :
    dispatchArms (MainModule.build (Prepared.ofProtocol protocol) role).lines =
      (executeArms protocol.commands (protocol.received role)).map fun arm =>
        ⟨arm.command, arm.payload, arm.result.text⟩ := by
  have hword : ∀ cmd ∈ protocol.received role, IsWord cmd.name := fun cmd hcmd =>
    (hwell.command_names cmd (List.mem_of_mem_filter hcmd)).isWord
  refine @dispatchArms_lines (MainModule.build (Prepared.ofProtocol protocol) role) ?_
  refine List.forall_mem_append.mpr ⟨List.forall_mem_map.mpr fun cmd hcmd => ?_, ?_⟩
  · refine ⟨isWord_capitalized (hword cmd hcmd), ?_, joined_executeResult ?_⟩
    · unfold executeArm
      dsimp only
      split
      · exact isWord_capitalized (hword cmd hcmd)
      · exact trivial
    · rintro command payload hcall
      obtain ⟨rfl, -⟩ := ExecuteResult.call.inj hcall
      exact hword cmd hcmd
  · split
    · exact List.forall_mem_nil _
    · exact List.forall_mem_singleton.mpr ⟨trivial, trivial, joined_executeResult nofun⟩

theorem selects_mainModule (hwell : WellFormed protocol)
    (hempty : ∀ cmd ∈ protocol.commands, capitalized cmd.name ≠ "Empty") (role : Role)
    {cmd : Command} (hcmd : cmd ∈ protocol.commands) (payload : PayloadVariant) :
    firstMatch? (dispatchArms (MainModule.build (Prepared.ofProtocol protocol) role).lines)
      (capitalized cmd.name) payload =
        some (if executes role cmd payload then handlerCall cmd else "false") := by
  rw [dispatchArms_mainModule hwell role, firstMatch_map,
    firstMatch_executeArms hwell hempty role hcmd payload, Option.map_some]
  split
  · rfl
  · rfl

theorem isEmpty_decoders (prepared : Prepared) (role : Role) :
    (Bridge.build prepared role).decoders.isEmpty = (prepared.protocol.decoded role).isEmpty := by
  unfold Bridge.build
  dsimp only
  cases prepared.protocol.decoded role <;> rfl

theorem decodeArms_isWord (hwell : WellFormed protocol) (role : Role) :
    ∀ arm ∈ decodeArms protocol.commands (protocol.decoded role),
      arm.1.IsWord ∧ Unbroken arm.2.text := by
  refine List.forall_mem_append.mpr ⟨List.forall_mem_map.mpr fun cmd hcmd => ?_, ?_⟩
  · have hname := (hwell.command_names cmd (List.mem_of_mem_filter hcmd)).isWord
    have hvariant := (isWord_capitalized hname).blank_not_mem
    have hstem := (isWord_snakeCase hname).blank_not_mem
    have hdecoder : ' ' ∉ (Decoder.name (commandStem cmd.name)).toList := by
      simp [Decoder.name, commandStem, hstem]
    refine ⟨isWord_capitalized hname, ?_⟩
    exact ((((by decide : Unbroken "CmdPayload::").append hvariant).append (by decide)).append
      hdecoder).append (by decide)
  · split
    · exact List.forall_mem_singleton.mpr ⟨trivial, by decide⟩
    · exact List.forall_mem_nil _

theorem decodeResult_bridge (hwell : WellFormed protocol) (role : Role) {cmd : Command}
    (hcmd : cmd ∈ protocol.commands) :
    decodeResult? (Bridge.build (Prepared.ofProtocol protocol) role).lines (capitalized cmd.name) =
      some (if cmd.isReceivable role && cmd.hasAttributes then
        DecodeResult.decoded (capitalized cmd.name) (commandStem cmd.name)
      else .empty).text := by
  cases hdecoders : (Bridge.build (Prepared.ofProtocol protocol) role).decoders.isEmpty with
  | true =>
      rw [decodeResult_of_isEmpty hdecoders]
      rw [isEmpty_decoders, List.isEmpty_iff] at hdecoders
      have hnot := List.filter_eq_nil_iff.mp hdecoders cmd hcmd
      rw [if_neg hnot]
      rfl
  | false =>
      have harms := decodeArms_isWord hwell role
      rw [decodeResult_of_not_isEmpty hdecoders harms]
      have hfind := congrArg (Option.map DecodeResult.text) (find?_decodeArms hwell role hcmd)
      rwa [Option.map_map] at hfind

theorem decodeMatch_exhaustive (hwell : WellFormed protocol) (role : Role)
    {arms : List (CommandPattern × String)}
    (harms : decodeMatch? (Bridge.build (Prepared.ofProtocol protocol) role).lines = some arms)
    {cmd : Command} (hcmd : cmd ∈ protocol.commands) :
    ∃ arm ∈ arms, arm.1.accepts (capitalized cmd.name) = true := by
  have hresult := decodeResult_bridge hwell role hcmd
  rw [decodeResult?, harms] at hresult
  obtain ⟨arm, hfind, -⟩ := Option.map_eq_some_iff.mp hresult
  exact ⟨arm, List.mem_of_find?_eq_some hfind, (List.find?_eq_some_iff_append.mp hfind).1⟩

theorem handler_mainModule {role : Role} {cmd : Command} (hcmd : cmd ∈ protocol.received role) :
    ∃ note, ["/// Execute command " ++ cmd.name ++ note, handlerHead cmd] <:+:
      (MainModule.build (Prepared.ofProtocol protocol) role).lines := by
  let handler := Handler.ofCommand cmd
  let note := if cmd.description.isEmpty then "" else " (" ++ cmd.description ++ ")"
  have hlines : ["/// Execute command " ++ cmd.name ++ note, handlerHead cmd] <+:
      handler.lines := by
    unfold handlerHead handlerName handler Handler.ofCommand Handler.lines
    dsimp only
    cases cmd.hasAttributes with
    | true =>
        refine ⟨_, congrArg (List.cons _) (congrArg₂ List.cons ?_ rfl)⟩
        simp [Handler.name, opening, ← String.toList_inj]
    | false =>
        refine ⟨_, congrArg (List.cons _) (congrArg₂ List.cons ?_ rfl)⟩
        simp [Handler.name, opening, ← String.toList_inj]
  have hhandler : handler.lines <:+: ((protocol.received role).map Handler.ofCommand).flatMap
      Handler.lines :=
    Text.isInfix_flatMap_of_mem (List.mem_map_of_mem hcmd) Handler.lines
  have hmodule : ((protocol.received role).map Handler.ofCommand).flatMap Handler.lines <:+:
      (MainModule.build (Prepared.ofProtocol protocol) role).lines := by
    unfold MainModule.lines
    simp only [List.append_assoc]
    exact (List.prefix_append _ _).isInfix.trans
      ((List.suffix_append _ _).trans (List.suffix_append _ _)).isInfix
  exact ⟨note, hlines.isInfix.trans (hhandler.trans hmodule)⟩

theorem dispatches_wellFormed (hwell : WellFormed protocol)
    (hempty : ∀ cmd ∈ protocol.commands, capitalized cmd.name ≠ "Empty") (role : Role) :
    Dispatches protocol role (Bridge.build (Prepared.ofProtocol protocol) role).lines
      (MainModule.build (Prepared.ofProtocol protocol) role).lines := by
  have hcommands := commandVariants_bridge hwell role
  have hpayloads := payloadVariants_bridge hwell role
  constructor
  case commands => exact hcommands
  case commands_nodup =>
    rw [hcommands]
    exact nodup_capitalized_commands hwell
  case payloads => exact hpayloads
  case payloads_nodup =>
    have hcarriers : (protocol.carriers.map fun cmd => capitalized cmd.name).Nodup :=
      (nodup_capitalized_commands hwell).sublist (List.filter_sublist.map _)
    rw [hpayloads, List.map_cons, List.map_map, List.nodup_cons]
    refine ⟨fun hmem => ?_, hcarriers⟩
    obtain ⟨cmd, hcmd, h⟩ := List.mem_map.mp hmem
    exact hempty cmd (List.mem_of_mem_filter hcmd) h
  case exhaustive =>
    rw [hcommands, List.forall_mem_map]
    intro cmd hcmd payload _
    exact exists_accepts_of_firstMatch (selects_mainModule hwell hempty role hcmd payload)
  case handlers_nodup =>
    have hscopes := hwell.scopes.snakeCase
    rw [Protocol.scopeNames, List.map_append, List.map_map] at hscopes
    exact nodup_map_append "execute_"
      ((List.nodup_append.mp hscopes).1.sublist (List.filter_sublist.map _))
  case handlers => exact fun cmd hcmd => handler_mainModule hcmd
  case selects => exact fun cmd hcmd payload _ => selects_mainModule hwell hempty role hcmd payload
  case decode_exhaustive =>
    intro arms harms
    rw [hcommands, List.forall_mem_map]
    exact fun cmd hcmd => decodeMatch_exhaustive hwell role harms hcmd
  case decodes =>
    intro cmd hcmd
    rw [decodeResult_bridge hwell role hcmd, Option.bind_some]
    split
    · exact yielded_decoded (isWord_capitalized (hwell.command_names cmd hcmd).isWord)
    · exact yielded_empty
  case decode_ends =>
    rw [decodeBody_lines, ← List.cons_append, List.getLast?_concat]

end WellFormed

/-- The modules of every protocol that code is generated from select as they should, if no
command is named like the empty payload. -/
theorem dispatches_prepared {protocol : Protocol} {prepared : Prepared}
    (hprepare : prepare protocol = .ok prepared)
    (hempty : ∀ cmd ∈ protocol.commands, capitalized cmd.name ≠ "Empty") (role : Role) :
    Dispatches protocol role (Bridge.build prepared role).lines
      (MainModule.build prepared role).lines := by
  obtain ⟨rfl, hwell⟩ := wellFormed_of_prepare hprepare
  exact dispatches_wellFormed hwell hempty role

theorem dispatches_meter :
    prepare meter = .ok (Prepared.ofProtocol meter) ∧
      (∀ cmd ∈ meter.commands, capitalized cmd.name ≠ "Empty") ∧ ∀ role,
        Dispatches meter role (Bridge.build (Prepared.ofProtocol meter) role).lines
          (MainModule.build (Prepared.ofProtocol meter) role).lines :=
  ⟨prepare_meter, by decide, dispatches_prepared prepare_meter (by decide)⟩

end Typed
end CommandSet
