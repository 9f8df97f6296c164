import CommandSet.Proofs.Recovery.Edits
import CommandSet.Proofs.Recovery.Reimport

/-!
# Fresh modules

A fresh module is read back as what it was generated from, as long as its comments show the
descriptions of the commands without braces and newlines.  Handlers are told apart by their
names, so the handler of a command whose name holds that of the dispatcher or of the sender
is not found.

Main definitions:

- {lit}`freshHandler`: the handler of a command in a fresh module.
- {lit}`freshCode`: what is recovered from a fresh module with certain functions in the place
  of its handlers.
- {lit}`ownCommands`: the received commands whose handlers are told apart from the dispatcher
  and the sender.

Main results:

- Theorem {lit}`recover_build_none`: a fresh module is read with any commands.
- Theorem {lit}`exists_recover_fresh_iff`: which descriptions a fresh module is accepted with.
- Theorem {lit}`recover_fresh`: a fresh module is read with its own commands.
- Theorem {lit}`not_recover_fresh_pump_gate`: a description with a brace, one of two lines, and
  a name with another in it.
-/

namespace CommandSet
namespace Recovery

open Firmware
open Text (IsLine)

/-! ## The functions of a fresh module -/

/-- The handler of a command in a fresh module. -/
def freshHandler (protocol : String) (cmd : Command) : FoundFunction :=
  stubFunction protocol cmd (Handler.stubMiddle protocol cmd)

theorem freshHandler_body (protocol : String) (cmd : Command) :
    (freshHandler protocol cmd).body = Handler.stub protocol cmd :=
  (Handler.stub_eq protocol cmd).symm

theorem freshHandler_text (protocol : String) (cmd : Command) :
    (freshHandler protocol cmd).text =
      (Handler.docOf protocol cmd).lines ++ Handler.stub protocol cmd := by
  rw [← freshHandler_body]
  rfl

/-- The handlers of a fresh module. -/
def freshHandlers (protocol : Protocol) (role : Role) : List FoundFunction :=
  (protocol.received role).map (freshHandler protocol.name)

/-- What is recovered from a fresh module with certain functions in the place of its
handlers. -/
def freshCode (protocol : Protocol) (role : Role) (commands : List String)
    (functions : List FoundFunction) : RecoveredCode :=
  { includes := defaultIncludes protocol.name role
    definitions := defaultDefinitions protocol.name
    handlers := firstOfEach (functions.filterMap (ownedHandler? protocol.name commands))
    unknown := functions.flatMap (remainder protocol.name commands)
    fallback := some defaultFallback
    privateTrailing := []
    publicFunctions := defaultPublicFunctions protocol.name
    publicTrailing := [] }

section Module

variable {prepared : Prepared} {role : Role}

/-- A fresh module is read with whatever functions stand in the place of its handlers. -/
theorem recover_freshCode (hwell : WellFormed prepared.protocol)
    {functions : List FoundFunction} {unknown : List (List String)} {handlers : List Handler}
    (hlegible : ∀ function ∈ functions, Legible Marker.publicFunctions.isOn function)
    (htext : functions.flatMap (fun function => function.text ++ [""]) =
      unknown.flatMap (· ++ [""]) ++ handlers.flatMap Handler.lines) (commands : List String) :
    recover prepared.protocol.name commands
        { MainModule.build prepared role none with unknown := unknown, handlers := handlers }.text =
      .ok (freshCode prepared.protocol role commands functions) := by
  have hprotocol := hwell.protocol_name
  have hcases := code_dispatchCases hprotocol fun cmd hcmd =>
    hwell.command_names cmd (@received_subset prepared.protocol role cmd hcmd)
  let dispatcher : Dispatcher :=
    ⟨prepared.protocol.name, (prepared.protocol.received role).map
      (DispatchCase.ofCommand prepared.protocol.name), defaultFallback⟩
  have hdispatcher : Legible Marker.publicFunctions.isOn dispatcher.function :=
    legible_dispatcher hprotocol hcases defaultFallback_ok.1 defaultFallback_ok.2.2 .publicFunctions
  obtain ⟨publics, hpublics, hpublicFunctions⟩ := exists_map_eq PublicFunction.ofFound
    (exists_legible_defaultPublicFunctions hprotocol)
  have hincludes := sectionLine_includes hprotocol role
  have hdefinitions := sectionLine_definitions hprotocol
  have hlaidOut : LaidOut
      { MainModule.build prepared role none with unknown := unknown, handlers := handlers }
      (senderFunction prepared.protocol.name :: (functions ++ [dispatcher.function])) publics :=
    { includes := fun line hline => ⟨(hincludes line hline).marker, (hincludes line hline).isLine⟩
      definitions := fun line hline =>
        ⟨(hdefinitions line hline).marker, (hdefinitions line hline).isLine⟩
      privateLegible := by
        rw [List.forall_mem_cons, List.forall_mem_append, List.forall_mem_singleton]
        exact ⟨legible_sender hprotocol _, hlegible, hdispatcher⟩
      privateText := by
        rw [List.flatMap_cons, List.flatMap_append, List.flatMap_singleton, htext,
          ← senderLines_eq, ← Dispatcher.lines_eq]
        simp only [List.append_assoc]
        rfl
      privateTrailing := fun _ h => absurd h List.not_mem_nil
      publicLegible := hpublics
      publicFunctions := hpublicFunctions
      publicTrailing := fun _ h => absurd h List.not_mem_nil }
  have hkept := @ofFunctions_generated dispatcher hprotocol defaultFallback_ok.1
    defaultFallback_ok.2.1 commands functions
  rw [hlaidOut.recover_eq, hkept]
  rfl

/-- A fresh module is read with any commands. -/
theorem recover_build_none (hwell : WellFormed prepared.protocol)
    (hdescriptions : ∀ cmd ∈ prepared.protocol.received role, Showable cmd.description)
    (commands : List String) :
    recover prepared.protocol.name commands (MainModule.build prepared role none).text =
      .ok (freshCode prepared.protocol role commands (freshHandlers prepared.protocol role)) := by
  have hlegible : ∀ function ∈ freshHandlers prepared.protocol role,
      Legible Marker.publicFunctions.isOn function := by
    rw [freshHandlers, List.forall_mem_map]
    intro cmd hcmd
    have hmem := received_subset hcmd
    exact legible_stub hwell.protocol_name (hwell.command_names cmd hmem)
      (attribute_names_of_mem hwell hmem) (hdescriptions cmd hcmd) _
  refine recover_freshCode hwell hlegible ?_ commands
  change _ = List.flatMap _ [] ++ List.flatMap Handler.lines
    ((prepared.protocol.received role).map (MainModule.handlerOf prepared.protocol.name none))
  rw [freshHandlers, List.flatMap_map, List.flatMap_map, List.flatMap_nil, List.nil_append]
  refine List.flatMap_congr fun cmd _ => ?_
  rw [freshHandler_text]
  rfl

end Module

/-! ## Its own commands -/

section Own

variable {protocol : Protocol} {role : Role}

theorem isName_commandNames (hwell : WellFormed protocol) :
    ∀ command ∈ commandNames protocol, IsName command :=
  List.forall_mem_map.mpr hwell.command_names

/-- The owner of a fresh handler can be told from its name. -/
theorem ownerOf_freshHandler (hwell : WellFormed protocol) {commands : List String}
    (hcommands : commands ⊆ commandNames protocol) (cmd : Command) :
    ownerOf protocol.name commands (freshHandler protocol.name cmd).signature =
      ownerOf protocol.name commands [handlerName protocol.name cmd.name] := by
  exact ownerOf_signature hwell.protocol_name
    (fun command hcommand => isName_commandNames hwell command (hcommands hcommand))
    (isSignature_handler hwell.protocol_name cmd)

/-- A fresh handler is kept under its command if it has a name of its own. -/
theorem adds_freshHandler (hwell : WellFormed protocol) {cmd : Command}
    (hcmd : cmd ∈ protocol.received role) :
    ownedHandler? protocol.name (commandNames protocol) (freshHandler protocol.name cmd) =
        (if OwnHandler protocol.name cmd.name then some (cmd.name, Handler.stub protocol.name cmd)
        else none) ∧
      remainder protocol.name (commandNames protocol) (freshHandler protocol.name cmd) = [] := by
  have howner := ownerOf_freshHandler hwell (List.Subset.refl (commandNames protocol)) cmd
  have hleading : (freshHandler protocol.name cmd).leading = [] := rfl
  split
  next hown =>
    have hmem : cmd.name ∈ commandNames protocol := List.mem_map_of_mem (received_subset hcmd)
    rw [ownerOf_handlerName _ hown,
      handledCommand?_handlerName (isName_commandNames hwell) hmem] at howner
    simp [ownedHandler?, remainder, howner, freshHandler_body, hleading]
  next hown =>
    rcases ownerOf_handlerName_of_not_own (commandNames protocol) hown with hother | hother
    · rw [hother] at howner
      simp [ownedHandler?, remainder, howner, hleading]
    · rw [hother] at howner
      simp [ownedHandler?, remainder, howner, hleading]

/-- The received commands whose handlers are told apart from the dispatcher and the sender. -/
def ownCommands (protocol : Protocol) (role : Role) : List Command :=
  (protocol.received role).filter fun cmd => OwnHandler protocol.name cmd.name

theorem handlers_freshCode (hwell : WellFormed protocol) :
    (freshCode protocol role (commandNames protocol) (freshHandlers protocol role)).handlers =
      (ownCommands protocol role).map fun cmd => (cmd.name, Handler.stub protocol.name cmd) := by
  have hentries : (freshHandlers protocol role).filterMap (ownedHandler?
        protocol.name (commandNames protocol)) =
      (ownCommands protocol role).map fun cmd => (cmd.name, Handler.stub protocol.name cmd) := by
    rw [freshHandlers, List.filterMap_map, ownCommands, ← List.filterMap_eq_map,
      List.filterMap_filter]
    refine List.filterMap_congr fun cmd hcmd => ?_
    simpa using (adds_freshHandler hwell hcmd).1
  have hnodup : ((ownCommands protocol role).map (·.name)).Nodup :=
    (nodup_received hwell).sublist (List.filter_sublist.map _)
  change firstOfEach _ = _
  rw [hentries, firstOfEach_eq_self]
  rw [List.map_map]
  exact hnodup

theorem unknown_freshCode (hwell : WellFormed protocol) :
    (freshCode protocol role (commandNames protocol) (freshHandlers protocol role)).unknown =
      [] := by
  change List.flatMap _ (freshHandlers protocol role) = []
  rw [freshHandlers, List.flatMap_map, List.flatMap_eq_nil_iff]
  exact fun cmd hcmd => (adds_freshHandler hwell hcmd).2

end Own

/-! ## Descriptions -/

section Descriptions

variable {prepared : Prepared} {role : Role}

/-- The line of a comment that shows a description. -/
def briefLine (protocol : String) (cmd : Command) : String :=
  " * \\brief " ++ (Handler.docOf protocol cmd).brief

/-- The lines of a comment above the description. -/
def aboveBrief (protocol : String) (cmd : Command) : List String :=
  ["/**", " * \\fn " ++ handlerSignature protocol cmd]

/-- The lines of a comment below the description. -/
def belowBrief (protocol : String) (cmd : Command) : List String :=
  [" *"] ++ (Handler.docOf protocol cmd).params.map
      (fun param => " * \\param " ++ param.1 ++ " " ++ param.2) ++
    [" * \\return " ++ successResult, " */"]

theorem docOf_lines (protocol : String) (cmd : Command) :
    (Handler.docOf protocol cmd).lines =
      aboveBrief protocol cmd ++ ([briefLine protocol cmd] ++ belowBrief protocol cmd) := by
  simp [DocBlock.lines, aboveBrief, belowBrief, briefLine, Handler.docOf]

theorem handlerOf_lines (protocol : String) (cmd : Command) :
    (MainModule.handlerOf protocol none cmd).lines =
      aboveBrief protocol cmd ++ ([briefLine protocol cmd] ++
        (belowBrief protocol cmd ++ Handler.stub protocol cmd ++ [""])) := by
  have hdoc := docOf_lines protocol cmd
  simp only [Handler.lines, MainModule.handlerOf, hdoc, List.append_assoc]
  rfl

/-- The lines around a description are those of a comment. -/
theorem docLine_brief {protocol : String} {cmd : Command} (hprotocol : IsName protocol)
    (hname : IsName cmd.name) :
    (∀ line ∈ aboveBrief protocol cmd, DocLine line) ∧
      ∀ line ∈ belowBrief protocol cmd, DocLine line := by
  -- they are those of a command without a description
  have hempty : Showable "" := by decide
  have hdoc := (@fits_handlerDoc _ { cmd with description := "" } hprotocol hname hempty).docLine
  rw [docOf_lines, List.forall_mem_append, List.forall_mem_append] at hdoc
  exact ⟨hdoc.1, hdoc.2.2⟩

/-- A fresh handler is a fragment but for its description. -/
theorem fragments_brief (hwell : WellFormed prepared.protocol) {cmd : Command}
    (hcmd : cmd ∈ prepared.protocol.received role) :
    Fragment (aboveBrief prepared.protocol.name cmd) ∧
      Fragment (belowBrief prepared.protocol.name cmd ++ Handler.stub prepared.protocol.name cmd ++
        [""]) := by
  have hmem := received_subset hcmd
  have hname := hwell.command_names cmd hmem
  have hdoc := docLine_brief hwell.protocol_name hname
  have hnames := attribute_names_of_mem hwell hmem
  have hempty : Showable "" := by decide
  have hstub := @legible_stub _ { cmd with description := "" } hwell.protocol_name hname hnames
    hempty .publicFunctions
  refine ⟨fragment_of_docLines hdoc.1,
    ((fragment_of_docLines hdoc.2).append ?_).append .blank⟩
  rw [Handler.stub_eq]
  exact (hstub.framed.fragments hstub.newline).2.2

/-- The line that shows a description holds no newline if the description holds none. -/
theorem newline_briefLine {protocol : String} {cmd : Command} (hname : IsName cmd.name)
    (h : '\n' ∉ cmd.description.toList) : '\n' ∉ (briefLine protocol cmd).toList := by
  have hnewline := avoids_word hname.isWord '\n' (by decide)
  simp only [briefLine, Handler.docOf]
  split
  · simpa using hnewline
  · simpa using ⟨hnewline, h⟩

/-- The sections of a fresh module. -/
theorem build_none_lines (prepared : Prepared) (role : Role) :
    (MainModule.build prepared role none).lines =
      defaultIncludes prepared.protocol.name role ++ "// *** Definitions ***" ::
        (defaultDefinitions prepared.protocol.name ++ "// *** Private Functions ***" ::
          (([""] ++ senderLines prepared.protocol.name) ++
            ((prepared.protocol.received role).flatMap
                (fun cmd => (MainModule.handlerOf prepared.protocol.name none cmd).lines) ++
              ((MainModule.build prepared role none).dispatcher.lines ++
                "// *** Public Functions ***" ::
                  ([""] ++ (defaultPublicFunctions prepared.protocol.name).flatMap
                    publicFunctionLines))))) := by
  simp [MainModule.lines, MainModule.build, publicFunctionsOf, List.flatMap_map]

/-- A fresh module is accepted exactly if the braces in its descriptions close, all of them
taken together. -/
theorem exists_recover_fresh_iff (hwell : WellFormed prepared.protocol)
    (hnewline : ∀ cmd ∈ prepared.protocol.received role, '\n' ∉ cmd.description.toList)
    (commands : List String) :
    (∃ code, recover prepared.protocol.name commands
        (MainModule.build prepared role none).text = .ok code) ↔
      Balanced ((prepared.protocol.received role).map (briefLine prepared.protocol.name)) := by
  have hprotocol := hwell.protocol_name
  have hincludes := sectionLine_includes hprotocol role
  have hdefinitions := sectionLine_definitions hprotocol
  have hfront := Fragment.blank.append (fragment_senderLines hprotocol)
  have hdispatcher : Fragment (MainModule.build prepared role none).dispatcher.lines := by
    have hcases := code_dispatchCases hprotocol fun cmd hcmd =>
      hwell.command_names cmd (@received_subset prepared.protocol role cmd hcmd)
    have hlegible := @legible_dispatcher ⟨prepared.protocol.name, _, defaultFallback⟩ hprotocol
      hcases defaultFallback_ok.1 defaultFallback_ok.2.2 .publicFunctions
    rw [Dispatcher.lines_eq]
    exact (hlegible.framed.fragment_text hlegible.newline).append .blank
  have hpublic := Fragment.blank.append
    (.flatMap (fragment_defaultPublicFunctions hprotocol))
  have hlines : ∀ line ∈ (MainModule.build prepared role none).lines, '\n' ∉ line.toList := by
    have hfrontLines := hfront.newline
    have hpublicLines := hpublic.newline
    rw [build_none_lines]
    simp only [List.forall_mem_append, List.forall_mem_cons, List.forall_mem_flatMap]
      at hfrontLines hpublicLines ⊢
    refine ⟨fun line hline => (hincludes line hline).isLine.newline, by decide,
      fun line hline => (hdefinitions line hline).isLine.newline, by decide, hfrontLines,
      fun cmd hcmd => ?_, hdispatcher.newline, by decide, hpublicLines⟩
    obtain ⟨habove, hbelow⟩ := fragments_brief hwell hcmd
    rw [handlerOf_lines, List.forall_mem_append, List.forall_mem_append, List.forall_mem_singleton]
    exact ⟨habove.newline, newline_briefLine (hwell.command_names cmd (received_subset hcmd))
      (hnewline cmd hcmd), hbelow.newline⟩
  rw [MainModule.text, exists_recover_unlines_iff hlines, build_none_lines,
    accepted_sections_iff (fun line hline => (hincludes line hline).marker) (by decide)
      (fun line hline => (hdefinitions line hline).marker) (by decide),
    divided_around_iff (hfront.balanced.leads 0) (hdispatcher.balanced.leads 0) (by decide)
      (hpublic.balanced.leads 0), balanced_iff_leads, List.map_eq_flatMap]
  refine leads_flatMap_iff fun cmd hcmd depth after => ?_
  obtain ⟨habove, hbelow⟩ := fragments_brief hwell hcmd
  rw [handlerOf_lines]
  exact leads_around_iff habove.balanced hbelow.balanced

end Descriptions

/-- A fresh module whose descriptions hold no newline is accepted exactly if the braces in them
close.  If they hold no braces at all, it is read with the stubs of all received commands whose
handlers have names of their own, with no other functions, and with the public functions that
it was given. -/
theorem recover_fresh {protocol : Protocol} {prepared : Prepared} {role : Role}
    (hprepare : prepare protocol = .ok prepared)
    (hnewline : ∀ cmd ∈ protocol.received role, '\n' ∉ cmd.description.toList) :
    ((∃ code, recover protocol.name (commandNames protocol)
        (MainModule.build prepared role none).text = .ok code) ↔
      Balanced ((protocol.received role).map (briefLine protocol.name))) ∧
    ((∀ cmd ∈ protocol.received role, Showable cmd.description) →
      ∃ code, recover protocol.name (commandNames protocol)
          (MainModule.build prepared role none).text = .ok code ∧
        code.handlers = (ownCommands protocol role).map
          (fun cmd => (cmd.name, Handler.stub protocol.name cmd)) ∧
        code.unknown = [] ∧ code.publicFunctions = defaultPublicFunctions protocol.name) := by
  obtain ⟨rfl, hwell⟩ := wellFormed_of_prepare hprepare
  refine ⟨@exists_recover_fresh_iff (Prepared.ofProtocol protocol) _ hwell hnewline _,
    fun hdescriptions => ?_⟩
  have hrecover := @recover_build_none (Prepared.ofProtocol protocol) _ hwell hdescriptions
    (commandNames protocol)
  exact ⟨_, hrecover, handlers_freshCode hwell, unknown_freshCode hwell, rfl⟩

/-! ## Names and descriptions -/

private def gateOpen : Command :=
  ⟨"Open", 1, .aToB, [], "by // hand"⟩

/-- A command whose handler names the dispatcher as well, and one that is not received. -/
private def gate : Protocol :=
  ⟨"Gate", 4, [gateOpen, ⟨"GateDispatchCommand", 2, .aToB, [], ""⟩, ⟨"Opened", 3, .bToA, [], r"}"⟩]⟩

private theorem ownCommands_gate : ownCommands gate .b = [gateOpen] := by
  have hreceived : gate.received .b = [gateOpen, ⟨"GateDispatchCommand", 2, .aToB, [], ""⟩] := rfl
  have hopen : OwnHandler "Gate" gateOpen.name := by decide
  have hother : ¬OwnHandler "Gate" "GateDispatchCommand" := by decide
  have hname : gate.name = "Gate" := rfl
  simp [ownCommands, hreceived, hname, hopen, hother]

/-- Of two received commands one has a handler that is found. -/
theorem recover_fresh_gate :
    ∃ code, recover "Gate" ["Open", "GateDispatchCommand", "Opened"]
        (MainModule.build (Prepared.ofProtocol gate) .b none).text = .ok code ∧
      code.handlers = [("Open", Handler.stub "Gate" gateOpen)] ∧
      code.unknown = [] ∧ code.publicFunctions = defaultPublicFunctions "Gate" := by
  obtain ⟨-, hread⟩ := @recover_fresh _ _ .b (rfl : prepare gate = _) (by decide)
  obtain ⟨code, hrecover, hhandlers, hrest⟩ := hread (by decide)
  rw [ownCommands_gate] at hhandlers
  exact ⟨code, hrecover, hhandlers, hrest⟩

/-- A command with a brace in its description. -/
private def pumpBrace : Protocol :=
  ⟨"Pump", 9, [⟨"Start", 1, .aToB, [], r"closes }"⟩]⟩

/-- A command with a description of two lines. -/
private def noteStart : Command :=
  ⟨"Start", 1, .aToB, [], "first\nsecond"⟩

private def pumpNote : Protocol :=
  ⟨"Pump", 9, [noteStart]⟩

/-- What is found above the comment of its handler, as the description ends the comment. -/
private def noteLeading : List String :=
  aboveBrief "Pump" noteStart ++ [" * \\brief Execute command Start (first", "second)"]

/-- The handler as it is found. -/
private def noteFunction : FoundFunction :=
  { freshHandler "Pump" noteStart with leading := noteLeading, doc := belowBrief "Pump" noteStart }

private theorem wellFormed_pumpNote : WellFormed pumpNote :=
  (wellFormed_of_prepare (rfl : prepare pumpNote = _)).2

private theorem legible_noteFunction : Legible Marker.publicFunctions.isOn noteFunction := by
  have hname : IsName noteStart.name := wellFormed_pumpNote.command_names _ List.mem_cons_self
  have hempty : Showable "" := by decide
  have hlegible := @legible_stub "Pump" { noteStart with description := "" }
    wellFormed_pumpNote.protocol_name hname (fun _ h => absurd h List.not_mem_nil) hempty
    .publicFunctions
  obtain ⟨habove, hbelow⟩ := docLine_brief wellFormed_pumpNote.protocol_name hname
  have hdoc {l : String} (h : DocLine l) : Waits Marker.publicFunctions.isOn l ∧ IsLine l :=
    ⟨h.waits (h.marker _), h.isLine⟩
  have hbrief : ∀ l ∈ [" * \\brief Execute command Start (first", "second)"],
      Waits Marker.publicFunctions.isOn l ∧ IsLine l := by
    simp only [List.forall_mem_cons]
    exact ⟨⟨⟨⟨by decide, by decide, by decide⟩, by decide⟩, by decide⟩,
      ⟨⟨⟨by decide, by decide, by decide⟩, by decide⟩, by decide⟩, by simp⟩
  have hlines : ∀ l ∈ noteLeading ++ belowBrief "Pump" noteStart,
      Waits Marker.publicFunctions.isOn l ∧ IsLine l := by
    simp only [noteLeading, List.forall_mem_append]
    exact ⟨⟨fun l hl => hdoc (habove l hl), hbrief⟩, fun l hl => hdoc (hbelow l hl)⟩
  refine ⟨hlegible.framed.reabove (fun l hl => (hlines l hl).1) (by decide)
    (fun l hl => (hbelow l hl).comment) (by decide), ?_⟩
  have hbody := hlegible.lines
  rw [FoundFunction.text, List.forall_mem_append] at hbody
  exact List.forall_mem_append.mpr ⟨fun l hl => (hlines l hl).2, hbody.2⟩

/-- The module with this function in the place of the handler. -/
private def noteModule : MainModule :=
  { MainModule.build (Prepared.ofProtocol pumpNote) .b none with
    unknown := [noteFunction.text], handlers := [] }

private theorem text_noteModule :
    noteModule.text = (MainModule.build (Prepared.ofProtocol pumpNote) .b none).text := by
  have hbrief : [" * \\brief Execute command Start (first", "second)"].flatMap
        (fun line => line.toList ++ ['\n']) = (briefLine "Pump" noteStart).toList ++ ['\n'] := by
    decide
  have hlines : noteFunction.text = aboveBrief "Pump" noteStart ++
      ([" * \\brief Execute command Start (first", "second)"] ++
        (belowBrief "Pump" noteStart ++ Handler.stub "Pump" noteStart)) := by
    rw [← freshHandler_body]
    rfl
  have hhandler : (noteFunction.text ++ [""]).flatMap (fun line => line.toList ++ ['\n']) =
      (MainModule.handlerOf "Pump" none noteStart).lines.flatMap fun line =>
        line.toList ++ ['\n'] := by
    rw [hlines, handlerOf_lines]
    simp only [List.flatMap_append, hbrief, List.flatMap_singleton, List.append_assoc]
  have hreceived : pumpNote.received .b = [noteStart] := rfl
  have hname : pumpNote.name = "Pump" := rfl
  rw [← String.toList_inj, MainModule.text, MainModule.text, Text.toList_unlines,
    Text.toList_unlines]
  simp only [noteModule, MainModule.lines, MainModule.build, Prepared.ofProtocol, hreceived, hname,
    List.map_cons, List.map_nil, List.flatMap_append, List.flatMap_cons, List.flatMap_nil,
    List.append_nil, Option.map_none, Option.getD_none, ← hhandler]

/-- The description ends the comment, so what stands above belongs to no command. -/
private theorem recover_pumpNote :
    ∃ code, recover "Pump" ["Start"]
        (MainModule.build (Prepared.ofProtocol pumpNote) .b none).text = .ok code ∧
      code.unknown ≠ [] := by
  have hrecover : recover "Pump" ["Start"] noteModule.text =
      .ok (freshCode pumpNote .b ["Start"] [noteFunction]) :=
    @recover_freshCode (Prepared.ofProtocol pumpNote) .b wellFormed_pumpNote [noteFunction]
      [noteFunction.text] [] (List.forall_mem_singleton.mpr legible_noteFunction) (by simp) _
  have howner : ownerOf "Pump" ["Start"] noteFunction.signature = .handler "Start" :=
    ownerOf_handler wellFormed_pumpNote.protocol_name (isName_commandNames wellFormed_pumpNote)
      List.mem_cons_self (by decide)
        (isSignature_handler wellFormed_pumpNote.protocol_name noteStart)
  have hunknown : (freshCode pumpNote .b ["Start"] [noteFunction]).unknown = [noteLeading] := by
    have hname : pumpNote.name = "Pump" := rfl
    simp only [freshCode, List.flatMap_singleton, remainder, hname, howner]
    rfl
  rw [← text_noteModule]
  exact ⟨_, hrecover, by simp [hunknown]⟩

/-- A description that closes a brace is shown in a module that is not accepted, a description
of two lines is kept as if it belonged to no command, and a handler that names the dispatcher
as well is not found. -/
theorem not_recover_fresh_pump_gate :
    (¬∃ code, recover "Pump" ["Start"]
      (MainModule.build (Prepared.ofProtocol pumpBrace) .b none).text = .ok code) ∧
    (∃ code, recover "Pump" ["Start"]
        (MainModule.build (Prepared.ofProtocol pumpNote) .b none).text = .ok code ∧
      code.unknown ≠ []) ∧
    ∃ code, recover "Gate" ["Open", "GateDispatchCommand", "Opened"]
        (MainModule.build (Prepared.ofProtocol gate) .b none).text = .ok code ∧
      code.handler? "GateDispatchCommand" = none := by
  refine ⟨?_, recover_pumpNote, ?_⟩
  · have hwell : WellFormed pumpBrace := (wellFormed_of_prepare (rfl : prepare pumpBrace = _)).2
    have hiff := @exists_recover_fresh_iff (Prepared.ofProtocol pumpBrace) .b hwell (by decide)
      ["Start"]
    exact fun h => absurd (hiff.mp h) (by decide)
  · have hwell : WellFormed gate := (wellFormed_of_prepare (rfl : prepare gate = _)).2
    have hhandlers := @handlers_freshCode gate .b hwell
    rw [ownCommands_gate] at hhandlers
    refine ⟨freshCode gate .b (commandNames gate) (freshHandlers gate .b), ?_, ?_⟩
    · exact @recover_build_none (Prepared.ofProtocol gate) .b hwell (by decide) (commandNames gate)
    · rw [RecoveredCode.handler?, hhandlers]
      rfl

end Recovery
end CommandSet
