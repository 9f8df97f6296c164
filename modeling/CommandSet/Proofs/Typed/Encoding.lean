import CommandSet.Proofs.Typed.Dispatch

/-!
# Encoding in Rust

The encoding function of a bridge selects by the command and its payload, in one match whose
first matching arm counts, and builds a command unless that arm returns.

Main definitions:

- {lit}`encodeMatch`, {lit}`encodeCall?`: the arms of encoding, and what a call gives.
- {lit}`Encodes`: what the function gives for every command and payload.

Main results:

- Theorem {lit}`encodes_prepared`: a command with its own payload is built where the role sends
  it, a command without payload always, and no other.
- Theorem {lit}`not_refused_horn`: so a command is built without the attributes it has.
-/

namespace CommandSet
namespace Typed

/-! ## The function -/

/-- The lines of the function that encodes a command. -/
def encodeBody (lines : List String) : List String :=
  blockOf 0 "pub fn encode(cmd_name: CmdEnum, payload: &CmdPayload) -> Option<LcsfValidCmd>" lines

/-- The arms by which encoding selects. -/
def encodeMatch (lines : List String) : List (Arm String) :=
  (blockOf 1 "let att_arr = match (cmd_name, payload)" (encodeBody lines)).filterMap pairArm?

/-- What a call gives: the expression for the attributes of the command that is built, nothing
where the arm returns. -/
def encodeCall? (lines : List String) (command : String) (payload : PayloadVariant) :
    Option (Option String) :=
  (firstMatch? (encodeMatch lines) command payload).map fun result =>
    if result = "return None" then none else some result

/-- The lines that build a command from its attributes. -/
def commandLines : List String :=
  [indent 1 r"Some(LcsfValidCmd {", indent 2 "cmd_id: cmd_name.id(),", indent 2 "att_arr,",
    indent 1 (closing ++ ")")]

/-- The arms of encoding, line by line. -/
def encodeArmLines (arms : List (Arm EncodeResult)) : List String :=
  arms.map fun arm => indent 2 (arm.line EncodeResult.text)

/-- The lines of encoding are read off the bridge. -/
theorem encodeBody_lines (bridge : Bridge) :
    encodeBody bridge.lines = indent 1 (opening "let att_arr = match (cmd_name, payload)") ::
      (encodeArmLines bridge.encodeArms ++ indent 1 (closing ++ ";") :: commandLines) := by
  let front := bridge.headLines ++ (CommandVariant.enumLines bridge.commands ++
    (bridge.structLines ++ (Bridge.payloadLines bridge.variants ++
      (bridge.tableLines ++ (bridge.decodeLines ++
      ["/// Build the validated command for `cmd_name`, `None` if the payload does not match."])))))
  let body := indent 1 (opening "let att_arr = match (cmd_name, payload)") ::
    (encodeArmLines bridge.encodeArms ++ indent 1 (closing ++ ";") :: commandLines)
  have hlines : bridge.lines = front ++
      opening "pub fn encode(cmd_name: CmdEnum, payload: &CmdPayload) -> Option<LcsfValidCmd>" ::
        (body ++ (closing ++ "") :: []) := by
    rw [Bridge.lines_eq]
    simp only [Bridge.encodeLines, encodeArmLines, commandLines, front, body, List.append_assoc,
      List.cons_append, List.nil_append, String.append_empty]
  have hfront :
      opening "pub fn encode(cmd_name: CmdEnum, payload: &CmdPayload) -> Option<LcsfValidCmd>" ∉
        front.filter startsItem :=
    (bridge.startAs_head.append ((startAs_enum _).append (bridge.startAs_structs.append
      ((startAs_payload _).append (bridge.startAs_tableLines.append (bridge.startAs_decode.append
        (startAs_comment rfl _))))))).not_mem (by decide)
  have hbody : ∀ line ∈ body, closesAt 0 line = false := by
    simp only [body, commandLines, List.forall_mem_cons, List.forall_mem_append]
    exact ⟨closesAt_indent Nat.one_pos _,
      List.forall_mem_map.mpr fun arm _ => closesAt_indent Nat.two_pos _,
      closesAt_indent Nat.one_pos _, closesAt_indent Nat.one_pos _, closesAt_indent Nat.two_pos _,
      closesAt_indent Nat.two_pos _, closesAt_indent Nat.one_pos _, List.forall_mem_nil _⟩
  rw [encodeBody, hlines, blockOf_item (startsItem_append _ _ _) hfront hbody]

/-- The arms of encoding are read off the bridge. -/
theorem encodeMatch_lines {bridge : Bridge}
    (harms : ∀ arm ∈ bridge.encodeArms, arm.command.IsWord ∧ arm.payload.IsWord ∧
      Joined arm.result.text) :
    encodeMatch bridge.lines =
      bridge.encodeArms.map fun arm => ⟨arm.command, arm.payload, arm.result.text⟩ := by
  have harmLines : ∀ line ∈ encodeArmLines bridge.encodeArms, closesAt 1 line = false :=
    List.forall_mem_map.mpr fun arm _ => closesAt_indent (by decide) _
  have hblock : blockOf 1 "let att_arr = match (cmd_name, payload)" (encodeBody bridge.lines) =
      encodeArmLines bridge.encodeArms := by
    rw [encodeBody_lines]
    exact @blockOf_append 1 "let att_arr = match (cmd_name, payload)" (indent 1 (closing ++ ";")) []
      (encodeArmLines bridge.encodeArms) (List.forall_mem_nil _) harmLines (closesAt_closing 1 ";")
      commandLines
  rw [encodeMatch, hblock]
  exact filterMap_lines fun arm harm =>
    pairArm_line (harms arm harm).1 (harms arm harm).2.1 (harms arm harm).2.2 2

/-! ## Selection -/

/-- Whether a payload is the own one of a command that a role sends. -/
def sends (role : Role) (cmd : Command) (payload : PayloadVariant) : Bool :=
  cmd.isTransmittable role && cmd.hasAttributes && payload == .carried (capitalized cmd.name)

section Selection

variable {protocol : Protocol} {cmd : Command}

/-- The arm of a command that is sent. -/
def encodeArm (cmd : Command) : Arm EncodeResult :=
  ⟨.only (capitalized cmd.name), .carried (capitalized cmd.name), .encoded (commandStem cmd.name)⟩

theorem accepts_encodeArm (cmd other : Command) (payload : PayloadVariant) :
    (encodeArm cmd).accepts (capitalized other.name) payload =
      (capitalized cmd.name == capitalized other.name && payload.name == capitalized cmd.name) :=
  rfl

/-- The arm of a command accepts what the role sends of that command. -/
theorem accepts_encodeArm_eq (hwell : WellFormed protocol)
    (hempty : ∀ cmd ∈ protocol.commands, capitalized cmd.name ≠ "Empty") {role : Role}
    (hcmd : cmd ∈ protocol.commands) {entry : Command} (hentry : entry ∈ protocol.encoded role)
    (payload : PayloadVariant) :
    (encodeArm entry).accepts (capitalized cmd.name) payload =
      (capitalized entry.name == capitalized cmd.name && sends role cmd payload) := by
  obtain ⟨hmem, hsent⟩ := List.mem_filter.mp hentry
  rw [accepts_encodeArm]
  by_cases h : capitalized entry.name = capitalized cmd.name
  · obtain rfl := eq_of_capitalized_eq hwell hmem hcmd h
    rw [name_beq_capitalized (hempty _ hcmd), sends, hsent, Bool.true_and]
  · rw [beq_false_of_ne h, Bool.false_and, Bool.false_and]

/-- A command with its own payload finds its own arm, any command without payload the empty one,
and everything else the last one. -/
theorem firstMatch_encodeArms (hwell : WellFormed protocol)
    (hempty : ∀ cmd ∈ protocol.commands, capitalized cmd.name ≠ "Empty") (role : Role)
    (hcmd : cmd ∈ protocol.commands) {payload : PayloadVariant}
    (hpayload : payload ∈ PayloadVariant.empty :: protocol.carriers.map fun entry =>
      .carried (capitalized entry.name)) :
    firstMatch? (encodeArms (!protocol.carriers.isEmpty) (protocol.encoded role))
      (capitalized cmd.name) payload =
        some (if payload = .empty then .empty
          else if sends role cmd payload then .encoded (commandStem cmd.name) else .mismatch) := by
  have harms : encodeArms (!protocol.carriers.isEmpty) (protocol.encoded role) =
      (protocol.encoded role).map encodeArm ++ (⟨.any, .empty, .empty⟩ ::
        if !protocol.carriers.isEmpty then [⟨.any, .any, .mismatch⟩] else []) := by
    rw [encodeArms, List.append_assoc]
    rfl
  have haccepts (entry : Command) (hentry : entry ∈ protocol.encoded role) :
      (encodeArm entry).accepts (capitalized cmd.name) payload =
        (capitalized entry.name == capitalized cmd.name && sends role cmd payload) :=
    accepts_encodeArm_eq hwell hempty hcmd hentry payload
  cases hsends : sends role cmd payload with
  | true =>
      simp only [hsends, Bool.and_true] at haccepts
      rw [sends, Bool.and_eq_true, beq_iff_eq] at hsends
      obtain ⟨hsent, rfl⟩ := hsends
      have hsub : (protocol.encoded role).Sublist protocol.commands := List.filter_sublist
      have hmem : cmd ∈ protocol.encoded role := List.mem_filter.mpr ⟨hcmd, hsent⟩
      have hfind (others : List (Arm EncodeResult)) :
          ((protocol.encoded role).map encodeArm ++ others).find?
            (·.accepts (capitalized cmd.name) (.carried (capitalized cmd.name))) =
              some (encodeArm cmd) :=
        find?_ownArm hwell hsub hmem haccepts others
      rw [firstMatch?, harms, hfind]
      simp [encodeArm]
  | false =>
      have hnone : ((protocol.encoded role).map encodeArm).find?
          (·.accepts (capitalized cmd.name) payload) = none := by
        rw [List.find?_eq_none, List.forall_mem_map]
        intro entry hentry
        rw [haccepts entry hentry, hsends, Bool.and_false]
        exact Bool.false_ne_true
      rw [firstMatch?, harms, List.find?_append, hnone, Option.none_or]
      rw [List.mem_cons, List.mem_map] at hpayload
      rcases hpayload with rfl | ⟨other, hother, rfl⟩
      · rfl
      · -- some command has attributes, so the last arm is there
        have hcarriers : (!protocol.carriers.isEmpty) = true := by
          rw [Bool.not_eq_true', List.isEmpty_eq_false_iff]
          exact List.ne_nil_of_mem hother
        have hname := hempty other (List.mem_of_mem_filter hother)
        rw [hcarriers, List.find?_cons_of_neg (by simpa [Arm.accepts, CommandPattern.accepts,
          PayloadPattern.accepts, PayloadVariant.name] using hname)]
        rfl

end Selection

/-! ## Calls -/

/-- The call of the encoder of a command. -/
def encoderCall (cmd : Command) : String :=
  "encode_" ++ snakeCase cmd.name ++ "_payload(cmd_payload)"

/-- The encoding function of a role is one match, exhaustive over the variants that the bridge
declares.  It builds a command that the role sends from its own payload, every command from an
empty payload and then without attributes, and nothing else. -/
structure Encodes (protocol : Protocol) (role : Role) (bridge : List String) : Prop where
  commands : commandVariants bridge = protocol.commands.map fun cmd => capitalized cmd.name
  payloads : payloadVariants bridge =
    .empty :: protocol.carriers.map fun cmd => .carried (capitalized cmd.name)
  exhaustive : ∀ command ∈ commandVariants bridge, ∀ payload ∈ payloadVariants bridge,
    ∃ arm ∈ encodeMatch bridge, arm.accepts command payload = true
  calls : ∀ cmd ∈ protocol.commands, ∀ payload ∈ payloadVariants bridge,
    encodeCall? bridge (capitalized cmd.name) payload =
      some (if payload = .empty then some "Vec::new()"
        else if sends role cmd payload then some (encoderCall cmd) else none)
  /-- What the match gives are the attributes of the command with the identifier of its name. -/
  builds : commandLines <:+ encodeBody bridge

section WellFormed

variable {protocol : Protocol}

theorem encodeArms_isWord (hwell : WellFormed protocol) (role : Role) (attributes : Bool) :
    ∀ arm ∈ encodeArms attributes (protocol.encoded role),
      arm.command.IsWord ∧ arm.payload.IsWord ∧ Joined arm.result.text := by
  refine List.forall_mem_append.mpr ⟨List.forall_mem_append.mpr
    ⟨List.forall_mem_map.mpr fun cmd hcmd => ?_, ?_⟩, ?_⟩
  · have hname := (hwell.command_names cmd (List.mem_of_mem_filter hcmd)).isWord
    have hstem := (isWord_snakeCase hname).blank_not_mem
    have hencoder : Unbroken (EncodeResult.encoded (commandStem cmd.name)).text := by
      refine ⟨by simp [EncodeResult.text, Encoder.name], ?_⟩
      simp [EncodeResult.text, Encoder.name, commandStem, hstem]
    exact ⟨isWord_capitalized hname, isWord_capitalized hname, joined_of_unbroken hencoder⟩
  · exact List.forall_mem_singleton.mpr ⟨trivial, trivial, joined_of_unbroken (by decide)⟩
  · split
    · have hmismatch : resultText (words ("return None" ++ ",")) = "return None" := by decide
      exact List.forall_mem_singleton.mpr ⟨trivial, trivial, hmismatch⟩
    · exact List.forall_mem_nil _

theorem encodeCall_bridge (hwell : WellFormed protocol)
    (hempty : ∀ cmd ∈ protocol.commands, capitalized cmd.name ≠ "Empty") (role : Role)
    {cmd : Command} (hcmd : cmd ∈ protocol.commands) {payload : PayloadVariant}
    (hpayload : payload ∈ PayloadVariant.empty :: protocol.carriers.map fun entry =>
      .carried (capitalized entry.name)) :
    encodeCall? (Bridge.build (Prepared.ofProtocol protocol) role).lines (capitalized cmd.name)
      payload = some (if payload = .empty then some "Vec::new()"
        else if sends role cmd payload then some (encoderCall cmd) else none) := by
  let bridge := Bridge.build (Prepared.ofProtocol protocol) role
  have harms := @encodeMatch_lines bridge (encodeArms_isWord hwell role _)
  have hselected : firstMatch? bridge.encodeArms (capitalized cmd.name) payload = some
      (if payload = .empty then .empty
        else if sends role cmd payload then .encoded (commandStem cmd.name) else .mismatch) :=
    firstMatch_encodeArms hwell hempty role hcmd hpayload
  have hencoder : (EncodeResult.encoded (commandStem cmd.name)).text = encoderCall cmd := by
    simp [EncodeResult.text, Encoder.name, encoderCall, commandStem, ← String.toList_inj]
  have hreturns : encoderCall cmd ≠ "return None" := by
    rw [Ne, encoderCall, ← String.toList_inj]
    simp
  rw [encodeCall?, harms, firstMatch_map, hselected, Option.map_some, Option.map_some]
  split
  · rfl
  · split
    · rw [hencoder, if_neg hreturns]
    · rfl

theorem encodes_wellFormed (hwell : WellFormed protocol)
    (hempty : ∀ cmd ∈ protocol.commands, capitalized cmd.name ≠ "Empty") (role : Role) :
    Encodes protocol role (Bridge.build (Prepared.ofProtocol protocol) role).lines := by
  have hcommands := commandVariants_bridge hwell role
  have hpayloads := payloadVariants_bridge hwell role
  constructor
  case commands => exact hcommands
  case payloads => exact hpayloads
  case exhaustive =>
    rw [hcommands, hpayloads, List.forall_mem_map]
    intro cmd hcmd payload hpayload
    have hcall := encodeCall_bridge hwell hempty role hcmd hpayload
    obtain ⟨result, hmatch, -⟩ := Option.map_eq_some_iff.mp hcall
    exact exists_accepts_of_firstMatch hmatch
  case calls =>
    rw [hpayloads]
    exact fun cmd hcmd payload hpayload => encodeCall_bridge hwell hempty role hcmd hpayload
  case builds =>
    rw [encodeBody_lines]
    exact (List.suffix_cons _ _).trans (List.suffix_append _ _) |>.trans (List.suffix_cons _ _)

end WellFormed

/-- The encoding function of every protocol that code is generated from, if no command is named
like the empty payload. -/
theorem encodes_prepared {protocol : Protocol} {prepared : Prepared}
    (hprepare : prepare protocol = .ok prepared)
    (hempty : ∀ cmd ∈ protocol.commands, capitalized cmd.name ≠ "Empty") (role : Role) :
    Encodes protocol role (Bridge.build prepared role).lines := by
  obtain ⟨rfl, hwell⟩ := wellFormed_of_prepare hprepare
  exact encodes_wellFormed hwell hempty role

theorem encodes_meter :
    prepare meter = .ok (Prepared.ofProtocol meter) ∧
      (∀ cmd ∈ meter.commands, capitalized cmd.name ≠ "Empty") ∧ ∀ role,
        Encodes meter role (Bridge.build (Prepared.ofProtocol meter) role).lines :=
  ⟨prepare_meter, by decide, encodes_prepared prepare_meter (by decide)⟩

/-! ## Commands without their attributes -/

private def horn : Protocol :=
  ⟨"Horn", 4, [⟨"Blow", 1, .aToB, [⟨"pitch", 1, false, .uint8, [], ""⟩], ""⟩]⟩

/-- A command is built from an empty payload, by a role that sends it with an attribute and by
one that never sends it. -/
theorem not_refused_horn :
    prepare horn = .ok (Prepared.ofProtocol horn) ∧
      ∀ role, encodeCall? (Bridge.build (Prepared.ofProtocol horn) role).lines "Blow" .empty =
        some (some "Vec::new()") := by
  have hwell : WellFormed horn := (wellFormed_of_prepare (rfl : prepare horn = _)).2
  refine ⟨rfl, fun role => ?_⟩
  exact encodeCall_bridge hwell (by decide) role (List.mem_singleton_self _) List.mem_cons_self

end Typed
end CommandSet
