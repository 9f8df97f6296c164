import CommandSet.Proofs.Recovery.ReadBack

/-!
# Handlers that are written back

A handler is recovered under the name of a command of the protocol, but only the commands
that a role receives have handlers in its module.  The handler of any other command is read
and not written.

Main results:

- Theorem {lit}`isInfix_lines_of_mem_handlers`: a module shows its handlers.
- Theorem {lit}`build_eq_of_handlers`: a module depends on the handlers of received commands
  only.
- Theorem {lit}`handlers_written_back`: the handlers that are written back, and those that
  leave no trace.
- Theorem {lit}`not_written_back_pump`: the handler of a command that is sent now is lost.
-/

namespace CommandSet
namespace Recovery

open Firmware

/-! ## Handlers of a module -/

/-- A module shows the bodies of its handlers. -/
theorem isInfix_lines_of_mem_handlers {module : MainModule} {handler : Handler}
    (h : handler ∈ module.handlers) : handler.body <:+: module.lines := by
  have hhandler : handler.body <:+: module.handlers.flatMap Handler.lines := by
    have hbody : handler.body <:+: handler.lines := ⟨handler.doc.lines, [""], rfl⟩
    exact hbody.trans (Text.isInfix_flatMap_of_mem h Handler.lines)
  have hlines : module.handlers.flatMap Handler.lines <:+: module.lines := by
    refine ⟨module.includes ++ ["// *** Definitions ***"] ++ module.definitions ++
      ["// *** Private Functions ***", ""] ++ senderLines module.protocol ++
      module.unknown.flatMap (· ++ [""]), module.dispatcher.lines ++
      (if module.privateTrailing.isEmpty then [] else module.privateTrailing ++ [""]) ++
      ["// *** Public Functions ***", ""] ++
      module.publicFunctions.flatMap publicFunctionLines ++ module.publicTrailing, ?_⟩
    simp only [MainModule.lines, List.append_assoc]
  exact hhandler.trans hlines

theorem lookup_filter {entries : List (String × List String)} {p : String → Bool} {key : String}
    (h : p key = true) :
    (entries.filter fun entry => p entry.1).lookup key = entries.lookup key := by
  induction entries with
  | nil => rfl
  | cons entry entries ih =>
      obtain ⟨name, body⟩ := entry
      by_cases hkey : key = name
      · subst hkey
        rw [List.filter_cons, if_pos h, List.lookup_cons_self, List.lookup_cons_self]
      · have hne : (key == name) = false := beq_eq_false_iff_ne.mpr hkey
        rw [List.filter_cons, List.lookup_cons, hne]
        split
        · rw [List.lookup_cons, hne, ih]
        · exact ih

section Module

variable {prepared : Prepared} {role : Role} {code : RecoveredCode}

/-- A module depends on the handlers of received commands only. -/
theorem build_eq_of_handlers {handlers : List (String × List String)}
    (h : ∀ cmd ∈ prepared.protocol.received role,
      handlers.lookup cmd.name = code.handlers.lookup cmd.name) :
    MainModule.build prepared role (some { code with handlers := handlers }) =
      MainModule.build prepared role (some code) := by
  have hhandlers : (prepared.protocol.received role).map
        (MainModule.handlerOf prepared.protocol.name (some { code with handlers := handlers })) =
      (prepared.protocol.received role).map
        (MainModule.handlerOf prepared.protocol.name (some code)) := by
    refine List.map_congr_left fun cmd hcmd => ?_
    simp only [MainModule.handlerOf, RecoveredCode.handler?, Option.bind_some, h cmd hcmd]
  simp only [MainModule.build, hhandlers]
  rfl

/-- The handler that is found for a received command is written. -/
theorem isInfix_text_of_handler? {cmd : Command} {body : List String}
    (hcmd : cmd ∈ prepared.protocol.received role) (hbody : code.handler? cmd.name = some body) :
    (Text.unlines body).toList <:+: (MainModule.build prepared role (some code)).text.toList := by
  have hmem : MainModule.handlerOf prepared.protocol.name (some code) cmd ∈
      (MainModule.build prepared role (some code)).handlers := List.mem_map_of_mem hcmd
  have hlines := isInfix_lines_of_mem_handlers hmem
  rw [MainModule.handlerOf, Option.bind_some, hbody, Option.getD_some] at hlines
  exact Text.unlines_isInfix hlines

/-- The handlers of the commands that a role receives. -/
def receivedHandlers (protocol : Protocol) (role : Role) (code : RecoveredCode) :
    List (String × List String) :=
  code.handlers.filter fun handler => (protocol.received role).any (·.name == handler.1)

/-- The handlers of other commands leave no trace in a module. -/
theorem build_receivedHandlers :
    MainModule.build prepared role
        (some { code with handlers := receivedHandlers prepared.protocol role code }) =
      MainModule.build prepared role (some code) := by
  refine build_eq_of_handlers fun cmd hcmd => ?_
  have hany : (prepared.protocol.received role).any (·.name == cmd.name) = true :=
    List.any_eq_true.mpr ⟨cmd, hcmd, beq_self_eq_true _⟩
  exact @lookup_filter _ (fun name => (prepared.protocol.received role).any (·.name == name)) _ hany

end Module

/-- Every recovered handler belongs to a command.  It is written back if the role receives
this command, and leaves no trace otherwise. -/
theorem handlers_written_back {protocol : Protocol} {prepared : Prepared} {role : Role}
    {source : String} {code : RecoveredCode} (hprepare : prepare protocol = .ok prepared)
    (hrecover : recover protocol.name (commandNames protocol) source = .ok code) :
    (∀ handler ∈ code.handlers, ∃ cmd ∈ protocol.commands, cmd.name = handler.1 ∧
      (cmd ∈ protocol.received role → (Text.unlines handler.2).toList <:+:
        (MainModule.build prepared role (some code)).text.toList)) ∧
      MainModule.build prepared role
          (some { code with handlers := receivedHandlers protocol role code }) =
        MainModule.build prepared role (some code) := by
  obtain ⟨rfl, -⟩ := wellFormed_of_prepare hprepare
  refine ⟨fun handler hhandler => ?_, build_receivedHandlers⟩
  obtain ⟨privates, publics, -, hfrom⟩ := recoveredFrom_of_recover hrecover
  obtain ⟨function, -, howner, -⟩ := hfrom.function_of_handler hhandler
  obtain ⟨cmd, hcmd, hname⟩ := List.mem_map.mp (mem_commands_of_handler howner)
  have hlookup : code.handler? cmd.name = some handler.2 := by
    have hkept : handler ∈
        (PrivateCode.ofFunctions protocol.name (commandNames protocol) privates).handlers := by
      rw [hfrom.kept]
      exact hhandler
    have hfound := lookup_handlers hkept
    rw [hfrom.kept] at hfound
    rw [hname]
    exact hfound
  exact ⟨cmd, hcmd, hname, fun hreceived => isInfix_text_of_handler? hreceived hlookup⟩

/-! ## One handler in two protocols -/

/-- A command with a direction. -/
private def pumpStop (direction : Direction) : Protocol :=
  ⟨"Pump", 9, [⟨"Stop", 2, direction, [], ""⟩]⟩

/-- A module of one handler and a public function. -/
private def pumpStopLines : List String :=
  ["// *** Definitions ***", "// *** Private Functions ***", r"bool PumpExecuteStop() {", "n %= 2;",
    r"}", "// *** Public Functions ***", r"int g() {}"]

private def pumpStopCode : RecoveredCode :=
  ⟨[], [], [("Stop", [r"bool PumpExecuteStop() {", "n %= 2;", r"}"])], [], none, [],
    [⟨[], [], [r"int g() {}"], [r"int g() {}"]⟩], []⟩

private theorem recover_pumpStop :
    recover "Pump" ["Stop"] (Text.unlines pumpStopLines) = .ok pumpStopCode := by
  rw [recover, Text.lines_unlines (by decide)]
  decide +kernel

/-- The handler of a command that is received is written back. -/
theorem handlers_written_back_pump :
    (Text.unlines [r"bool PumpExecuteStop() {", "n %= 2;", r"}"]).toList <:+:
      (MainModule.build (Prepared.ofProtocol (pumpStop .aToB)) .b
        (some pumpStopCode)).text.toList := by
  obtain ⟨hwritten, -⟩ := @handlers_written_back _ _ .b _ _ (rfl : prepare (pumpStop .aToB) = _)
    recover_pumpStop
  obtain ⟨cmd, hcmd, -, hinfix⟩ := hwritten _ List.mem_cons_self
  obtain rfl := List.mem_singleton.mp hcmd
  exact hinfix List.mem_cons_self

private theorem avoids_pumpStop : ∀ line ∈ (MainModule.build
    (Prepared.ofProtocol (pumpStop .bToA)) .b (some pumpStopCode)).lines, Avoids ['%'] line := by
  have hblank : ' ' ∉ ['%'] := by decide
  change ∀ line ∈ [] ++ ["// *** Definitions ***"] ++ [] ++ ["// *** Private Functions ***", ""] ++
    senderLines "Pump" ++ [] ++ [] ++ Dispatcher.lines ⟨"Pump", [], defaultFallback⟩ ++ [] ++
    ["// *** Public Functions ***", ""] ++ publicFunctionLines
      ⟨[], [], [r"int g() {}"], [r"int g() {}"]⟩ ++ [], Avoids ['%'] line
  simp only [senderLines, Dispatcher.lines, DocBlock.lines, senderSignature_eq, senderName,
    Dispatcher.signature_eq, Dispatcher.name, Naming.payloadUnion, opening, closing, successResult,
    defaultFallback, List.forall_mem_append, List.forall_mem_cons, List.map_cons, avoids_append,
    avoids_indent hblank, List.map_nil, List.flatMap_nil, publicFunctionLines, List.isEmpty_nil,
    if_true, Naming.commandCount, List.not_mem_nil, false_implies, implies_true, and_true, true_and]
  and_intros
  all_goals exact .fixed rfl

/-- The handler of a command that is sent now is not. -/
theorem not_written_back_pump :
    ∃ code, recover "Pump" ["Stop"] (Text.unlines pumpStopLines) = .ok code ∧
      ∃ handler ∈ code.handlers, ¬(Text.unlines handler.2).toList <:+:
        (MainModule.build (Prepared.ofProtocol (pumpStop .bToA)) .b (some code)).text.toList := by
  refine ⟨pumpStopCode, recover_pumpStop, _, List.mem_cons_self, fun hinfix => ?_⟩
  have hmem : '%' ∈ (MainModule.build (Prepared.ofProtocol (pumpStop .bToA)) .b
      (some pumpStopCode)).text.toList := hinfix.subset (by simp [Text.toList_unlines])
  rw [MainModule.text, Text.toList_unlines] at hmem
  obtain ⟨line, hline, hmem⟩ := List.mem_flatMap.mp hmem
  rcases List.mem_append.mp hmem with hmem | hmem
  · exact avoids_pumpStop line hline '%' List.mem_cons_self hmem
  · exact absurd hmem (by decide)

end Recovery
end CommandSet
