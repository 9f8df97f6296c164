import CommandSet.Proofs.Firmware.Functions
import CommandSet.Proofs.Protocol.Validation
import CommandSet.Proofs.Recovery.Owners
import CommandSet.Proofs.Recovery.Sections

/-!
# Main modules read back

A main module that is written from readable code is recovered as that code, completed by
what a fresh module holds in its place.

Main definitions:

- {lit}`completed`: code with a handler for every received command, a fallback and public
  functions.
- {lit}`LaidOut`: modules whose sections are made of certain functions.

Main results:

- Theorem {lit}`build_completed`: completed code makes the same module.
- Theorem {lit}`LaidOut.recover_eq`: a module is recovered by what is kept of its functions.
- Theorem {lit}`recover_build`: the module is recovered as its completed code.
-/

namespace CommandSet
namespace Recovery

open Firmware
open Text (IsLine)

/-! ## Functions for values -/

/-- Values that functions have are the values of a list of functions. -/
theorem exists_map_eq {α : Type} {p : FoundFunction → Prop} (value : FoundFunction → α)
    {values : List α} (h : ∀ a ∈ values, ∃ function, p function ∧ value function = a) :
    ∃ functions : List FoundFunction, (∀ function ∈ functions, p function) ∧
      functions.map value = values := by
  induction values with
  | nil => exact ⟨[], by simp, rfl⟩
  | cons a values ih =>
      rw [List.forall_mem_cons] at h
      obtain ⟨⟨function, hfunction, rfl⟩, hrest⟩ := h
      obtain ⟨functions, hfunctions, rfl⟩ := ih hrest
      exact ⟨function :: functions, List.forall_mem_cons.mpr ⟨hfunction, hfunctions⟩, rfl⟩

/-! ## What generated functions add -/

section Adds

variable {protocol : String} {commands : List String}

/-- Functions that belong to no command add themselves. -/
theorem adds_of_nobody {functions : List FoundFunction}
    (h : ∀ function ∈ functions, ownerOf protocol commands function.signature = .nobody) :
    functions.filterMap (ownedHandler? protocol commands) = [] ∧
      functions.flatMap (remainder protocol commands) = functions.map FoundFunction.text := by
  induction functions with
  | nil => exact ⟨rfl, rfl⟩
  | cons function functions ih =>
      rw [List.forall_mem_cons] at h
      obtain ⟨hentries, hremainders⟩ := ih h.2
      simp [ownedHandler?, remainder, h.1, hentries, hremainders]

/-- Handlers without lines above their comments add themselves under their commands. -/
theorem adds_of_handlers {functions : List FoundFunction} {handlers : List (String × List String)}
    (howner : functions.map (fun f => (ownerOf protocol commands f.signature, f.leading, f.body)) =
      handlers.map fun handler => (.handler handler.1, [], handler.2)) :
    functions.filterMap (ownedHandler? protocol commands) = handlers ∧
      functions.flatMap (remainder protocol commands) = [] := by
  induction functions generalizing handlers with
  | nil =>
      rw [List.map_nil, eq_comm, List.map_eq_nil_iff] at howner
      rw [howner]
      exact ⟨rfl, rfl⟩
  | cons function functions ih =>
      cases handlers with
      | nil => cases howner
      | cons handler handlers =>
          rw [List.map_cons, List.map_cons, List.cons.injEq, Prod.mk.injEq, Prod.mk.injEq] at howner
          obtain ⟨⟨hhandler, hleading, hbody⟩, hrest⟩ := howner
          obtain ⟨hentries, hremainders⟩ := ih hrest
          simp [ownedHandler?, remainder, hhandler, hleading, hbody, hentries, hremainders]

/-- Of a generated sender nothing is kept, and of a generated dispatcher its fallback. -/
theorem ofFunctions_generated {dispatcher : Dispatcher} (hprotocol : IsName dispatcher.protocol)
    (hbalanced : Balanced dispatcher.fallback) (hinside : BreaksInside dispatcher.fallback)
    (commands : List String) (functions : List FoundFunction) :
    PrivateCode.ofFunctions dispatcher.protocol commands
        (senderFunction dispatcher.protocol :: (functions ++ [dispatcher.function])) =
      { handlers := firstOfEach (functions.filterMap (ownedHandler? dispatcher.protocol commands))
        unknown := functions.flatMap (remainder dispatcher.protocol commands)
        fallback := some dispatcher.fallback } := by
  have hsender : ownerOf dispatcher.protocol commands
      (senderFunction dispatcher.protocol).signature = .sender :=
    ownerOf_sender commands hprotocol (isSignature_sender dispatcher.protocol)
  have hdispatcher : ownerOf dispatcher.protocol commands dispatcher.function.signature =
      .dispatcher :=
    ownerOf_dispatcher commands (isSignature_dispatcher hprotocol)
  have hfallback := fallbackOf_dispatcher hprotocol hbalanced hinside
  have hleading : (senderFunction dispatcher.protocol).leading = [] ∧
      dispatcher.function.leading = [] := ⟨rfl, rfl⟩
  have hkept (functions : List FoundFunction) :
      PrivateCode.ofFunctions dispatcher.protocol commands functions =
        ⟨(PrivateCode.ofFunctions dispatcher.protocol commands functions).handlers,
          (PrivateCode.ofFunctions dispatcher.protocol commands functions).unknown,
          (PrivateCode.ofFunctions dispatcher.protocol commands functions).fallback⟩ := rfl
  rw [hkept, handlers_ofFunctions, unknown_ofFunctions, fallback_ofFunctions]
  simp [ownedHandler?, remainder, isDispatcher, hsender, hdispatcher, hfallback, hleading]

end Adds

/-! ## Completed code -/

/-- The body of a handler: the recovered one, or that of a fresh handler. -/
def bodyOf (protocol : String) (code : RecoveredCode) (cmd : Command) : List String :=
  (code.handler? cmd.name).getD (Handler.stub protocol cmd)

/-- Code with a handler for every received command, a fallback and public functions. -/
def completed (prepared : Prepared) (role : Role) (code : RecoveredCode) : RecoveredCode :=
  { code with
    handlers := (prepared.protocol.received role).map fun cmd =>
      (cmd.name, bodyOf prepared.protocol.name code cmd)
    fallback := some (code.fallback.getD defaultFallback)
    publicFunctions := publicFunctionsOf prepared.protocol.name (some code) }

/-- The handlers of commands with different names are found under their names. -/
theorem lookup_map_name {cmds : List Command} {body : Command → List String}
    (hnodup : (cmds.map (·.name)).Nodup) {cmd : Command} (hmem : cmd ∈ cmds) :
    (cmds.map fun cmd => (cmd.name, body cmd)).lookup cmd.name = some (body cmd) := by
  have hentries : ((cmds.map fun cmd => (cmd.name, body cmd)).map (·.1)).Nodup := by
    rw [List.map_map]
    exact hnodup
  exact lookup_of_mem hentries (List.mem_map_of_mem hmem)

theorem completed_handler? {prepared : Prepared} {role : Role} {code : RecoveredCode}
    (hnodup : ((prepared.protocol.received role).map (·.name)).Nodup) {cmd : Command}
    (hmem : cmd ∈ prepared.protocol.received role) :
    (completed prepared role code).handler? cmd.name =
      some (bodyOf prepared.protocol.name code cmd) :=
  lookup_map_name hnodup hmem

theorem publicFunctionsOf_ne_nil (protocol : String) (code : Option RecoveredCode) :
    publicFunctionsOf protocol code ≠ [] := by
  have hdefault : defaultPublicFunctions protocol ≠ [] := by simp [defaultPublicFunctions]
  unfold publicFunctionsOf
  split
  · split
    · exact hdefault
    next hne => exact fun hnil => hne (by rw [hnil]; rfl)
  · exact hdefault

/-- Completed code makes the same module. -/
theorem build_completed {prepared : Prepared} {role : Role} {code : RecoveredCode}
    (hnodup : ((prepared.protocol.received role).map (·.name)).Nodup) :
    MainModule.build prepared role (some (completed prepared role code)) =
      MainModule.build prepared role (some code) := by
  have hhandlers : (prepared.protocol.received role).map
        (MainModule.handlerOf prepared.protocol.name (some (completed prepared role code))) =
      (prepared.protocol.received role).map
        (MainModule.handlerOf prepared.protocol.name (some code)) := by
    refine List.map_congr_left fun cmd hcmd => ?_
    simp only [MainModule.handlerOf, Option.bind_some, completed_handler? hnodup hcmd,
      Option.getD_some]
    rfl
  have hpublic : publicFunctionsOf prepared.protocol.name (some (completed prepared role code)) =
      publicFunctionsOf prepared.protocol.name (some code) := by
    have hne := publicFunctionsOf_ne_nil prepared.protocol.name (some code)
    rw [publicFunctionsOf]
    change (if (publicFunctionsOf prepared.protocol.name (some code)).isEmpty then _
      else publicFunctionsOf prepared.protocol.name (some code)) = _
    rw [if_neg (by rwa [List.isEmpty_iff])]
  simp only [MainModule.build, hhandlers, hpublic]
  rfl

/-! ## The functions of a module -/

/-- Protocols whose received commands can be documented and have handlers of their own. -/
structure Recoverable (protocol : Protocol) (role : Role) : Prop where
  descriptions : ∀ cmd ∈ protocol.received role, Showable cmd.description
  handlers : ∀ cmd ∈ protocol.received role, OwnHandler protocol.name cmd.name

/-- The names of all commands of a protocol. -/
def commandNames (protocol : Protocol) : List String :=
  protocol.commands.map (·.name)

section Module

variable {protocol : Protocol} {role : Role} {code : RecoveredCode}

theorem received_subset : protocol.received role ⊆ protocol.commands :=
  List.filter_sublist.subset

/-- Names of commands differ. -/
theorem nodup_received (hwell : WellFormed protocol) :
    ((protocol.received role).map (·.name)).Nodup := by
  have hscopes : (protocol.commands.map (·.name) ++ _).Nodup := hwell.scopes.upper.of_map _
  have hnames : (protocol.commands.map (·.name)).Nodup := (List.nodup_append.mp hscopes).1
  exact hnames.sublist (List.filter_sublist.map _)

theorem attribute_names_of_mem (hwell : WellFormed protocol) {cmd : Command}
    (hcmd : cmd ∈ protocol.commands) : ∀ att ∈ Attribute.forest cmd.attributes, IsName att.name :=
  fun att hatt => hwell.attribute_names att (List.mem_flatMap.mpr ⟨cmd, hcmd, hatt⟩)

/-- Every received command has a handler that is found as its own. -/
theorem exists_handler (hwell : WellFormed protocol) (hrecoverable : Recoverable protocol role)
    (hreadable : Readable protocol.name (commandNames protocol) code) {cmd : Command}
    (hcmd : cmd ∈ protocol.received role) :
    ∃ function, Legible Marker.publicFunctions.isOn function ∧
      (function.text, ownerOf protocol.name (commandNames protocol) function.signature,
          function.leading, function.body) =
        ((Handler.docOf protocol.name cmd).lines ++ bodyOf protocol.name code cmd,
          .handler cmd.name, [], bodyOf protocol.name code cmd) := by
  have hmem := received_subset hcmd
  have hname := hwell.command_names cmd hmem
  have hdoc :=
    (fits_handlerDoc hwell.protocol_name hname (hrecoverable.descriptions cmd hcmd)).docLine
  cases hhandler : code.handler? cmd.name with
  | some body =>
      obtain ⟨function, hlegible, howner, rfl⟩ := hreadable.handlers _ (mem_of_lookup hhandler)
      have hbody : bodyOf protocol.name code cmd = function.body := by
        rw [bodyOf, hhandler]
        rfl
      refine ⟨{ function with leading := [], doc := (Handler.docOf protocol.name cmd).lines },
        ⟨?_, ?_⟩, ?_⟩
      · exact hlegible.framed.redoc (fun l hl => (hdoc l hl).waits ((hdoc l hl).marker _))
          fun l hl => (hdoc l hl).comment
      · simp only [FoundFunction.text, List.nil_append]
        rw [List.forall_mem_append]
        exact ⟨fun l hl => (hdoc l hl).isLine,
          fun l hl => hlegible.lines l (List.mem_append_right _ hl)⟩
      · rw [hbody]
        simp only [FoundFunction.text, List.nil_append, howner]
  | none =>
      have hbody : bodyOf protocol.name code cmd = (stubFunction protocol.name cmd
          (Handler.stubMiddle protocol.name cmd)).body := by
        rw [bodyOf, hhandler, Option.getD_none, Handler.stub_eq]
        rfl
      have howner := ownerOf_handler hwell.protocol_name
        (List.forall_mem_map.mpr hwell.command_names) (List.mem_map_of_mem hmem)
        (hrecoverable.handlers cmd hcmd) (isSignature_handler hwell.protocol_name cmd)
      refine ⟨stubFunction protocol.name cmd (Handler.stubMiddle protocol.name cmd),
        legible_stub hwell.protocol_name hname (attribute_names_of_mem hwell hmem)
          (hrecoverable.descriptions cmd hcmd) _, ?_⟩
      rw [hbody, Prod.mk.injEq, Prod.mk.injEq]
      exact ⟨rfl, howner, rfl⟩

/-- The fallback of a fresh module is balanced and ends where its dispatcher says so. -/
theorem defaultFallback_ok :
    Balanced defaultFallback ∧ BreaksInside defaultFallback ∧
      ∀ line ∈ defaultFallback, IsLine line := by
  have hcode : Code defaultFallback := .line (.fixed rfl) .nil
  refine ⟨hcode.balanced, ?_, hcode.isLine⟩
  intro before line after hsplit hbreak
  rw [defaultFallback] at hsplit
  cases before with
  | nil =>
      obtain ⟨rfl, -⟩ := List.cons.inj hsplit
      exact absurd hbreak (by rw [IsBreak]; decide)
  | cons first before => simp at hsplit

/-- The fallback of a module: the recovered one, or the one of a fresh module. -/
theorem fallback_ok (hreadable : Readable protocol.name (commandNames protocol) code) :
    Balanced (code.fallback.getD defaultFallback) ∧
      BreaksInside (code.fallback.getD defaultFallback) ∧
        ∀ line ∈ code.fallback.getD defaultFallback, IsLine line := by
  cases hfallback : code.fallback with
  | some block => exact hreadable.fallback block hfallback
  | none => exact defaultFallback_ok

/-- The dispatcher that is written from recovered code. -/
def dispatcherOf (protocol : Protocol) (role : Role) (code : RecoveredCode) : Dispatcher :=
  { protocol := protocol.name
    cases := (protocol.received role).map (DispatchCase.ofCommand protocol.name)
    fallback := code.fallback.getD defaultFallback }

theorem legible_dispatcherOf (hwell : WellFormed protocol)
    (hreadable : Readable protocol.name (commandNames protocol) code) (marker : Marker) :
    Legible marker.isOn (dispatcherOf protocol role code).function := by
  rcases fallback_ok hreadable with ⟨hbalanced, -, hlines⟩
  have hcases := code_dispatchCases hwell.protocol_name fun cmd hcmd =>
    hwell.command_names cmd (@received_subset protocol role cmd hcmd)
  exact @legible_dispatcher (dispatcherOf protocol role code) hwell.protocol_name hcases hbalanced
    hlines marker

/-- The functions that belong to no command. -/
theorem exists_unknown (hreadable : Readable protocol.name (commandNames protocol) code) :
    ∃ functions : List FoundFunction,
      (∀ function ∈ functions, Legible Marker.publicFunctions.isOn function ∧
        ownerOf protocol.name (commandNames protocol) function.signature = .nobody) ∧
      functions.map FoundFunction.text = code.unknown := by
  have hunknown : ∀ lines ∈ code.unknown, ∃ function,
      (Legible Marker.publicFunctions.isOn function ∧
        ownerOf protocol.name (commandNames protocol) function.signature = .nobody) ∧
      function.text = lines := by
    intro lines hlines
    rcases hreadable.unknown lines hlines with ⟨function, hlegible, howner, htext⟩
    exact ⟨function, ⟨hlegible, howner⟩, htext⟩
  exact exists_map_eq FoundFunction.text hunknown

/-- The handlers of the received commands. -/
theorem exists_handlers (hwell : WellFormed protocol) (hrecoverable : Recoverable protocol role)
    (hreadable : Readable protocol.name (commandNames protocol) code) :
    ∃ functions : List FoundFunction,
      (∀ function ∈ functions, Legible Marker.publicFunctions.isOn function) ∧
      functions.map FoundFunction.text = (protocol.received role).map (fun cmd =>
        (Handler.docOf protocol.name cmd).lines ++ bodyOf protocol.name code cmd) ∧
      functions.map (fun f =>
          (ownerOf protocol.name (commandNames protocol) f.signature, f.leading, f.body)) =
        (protocol.received role).map fun cmd =>
          (Owner.handler cmd.name, [], bodyOf protocol.name code cmd) := by
  have hhandlers : ∀ value ∈ (protocol.received role).map (fun cmd =>
        ((Handler.docOf protocol.name cmd).lines ++ bodyOf protocol.name code cmd,
          Owner.handler cmd.name, ([] : List String), bodyOf protocol.name code cmd)),
      ∃ function, Legible Marker.publicFunctions.isOn function ∧
        (function.text, ownerOf protocol.name (commandNames protocol) function.signature,
          function.leading, function.body) = value := by
    rw [List.forall_mem_map]
    intro cmd hcmd
    exact exists_handler hwell hrecoverable hreadable hcmd
  rcases exists_map_eq _ hhandlers with ⟨functions, hlegible, hvalues⟩
  have htexts := congrArg (List.map Prod.fst) hvalues
  have howners := congrArg (List.map Prod.snd) hvalues
  rw [List.map_map, List.map_map] at htexts howners
  exact ⟨functions, hlegible, htexts, howners⟩

/-- The functions that are written into the public section. -/
theorem exists_publicFunctions (hwell : WellFormed protocol)
    (hreadable : Readable protocol.name (commandNames protocol) code) :
    ∃ functions : List FoundFunction,
      (∀ function ∈ functions, Legible (fun _ => false) function) ∧
      functions.map PublicFunction.ofFound = publicFunctionsOf protocol.name (some code) := by
  have hlegible : ∀ function ∈ publicFunctionsOf protocol.name (some code), ∃ found,
      Legible (fun _ => false) found ∧ PublicFunction.ofFound found = function := by
    simp only [publicFunctionsOf]
    split
    · exact exists_legible_defaultPublicFunctions hwell.protocol_name
    · exact hreadable.publicFunctions
  exact exists_map_eq PublicFunction.ofFound hlegible

end Module

/-! ## Whole modules -/

section Whole

variable {prepared : Prepared} {role : Role} {code : RecoveredCode}

/-- Of the functions that are written into the private section, the handlers and the fallback are
found again, and the functions that belong to no command. -/
theorem ofFunctions_written (hwell : WellFormed prepared.protocol)
    (hreadable : Readable prepared.protocol.name (commandNames prepared.protocol) code)
    {unknown handlers : List FoundFunction}
    (hunknown : ∀ function ∈ unknown, ownerOf prepared.protocol.name
      (commandNames prepared.protocol) function.signature = .nobody)
    (hhandlers : handlers.map (fun f => (ownerOf prepared.protocol.name
        (commandNames prepared.protocol) f.signature, f.leading, f.body)) =
      (prepared.protocol.received role).map fun cmd =>
        (.handler cmd.name, [], bodyOf prepared.protocol.name code cmd)) :
    PrivateCode.ofFunctions prepared.protocol.name (commandNames prepared.protocol)
        (senderFunction prepared.protocol.name ::
          (unknown ++ (handlers ++ [(dispatcherOf prepared.protocol role code).function]))) =
      ⟨(completed prepared role code).handlers, unknown.map FoundFunction.text,
        (completed prepared role code).fallback⟩ := by
  have hkept : handlers.map (fun f => (ownerOf prepared.protocol.name
        (commandNames prepared.protocol) f.signature, f.leading, f.body)) =
      (completed prepared role code).handlers.map fun handler =>
        (.handler handler.1, [], handler.2) := by
    rw [completed, List.map_map]
    exact hhandlers
  have hnames : ((completed prepared role code).handlers.map (·.1)).Nodup := by
    rw [completed, List.map_map]
    exact nodup_received hwell
  obtain ⟨hunknownEntries, hunknownRemainders⟩ := adds_of_nobody hunknown
  obtain ⟨hentries, hremainders⟩ := adds_of_handlers hkept
  rcases fallback_ok hreadable with ⟨hbalanced, hinside, -⟩
  have hgenerated := @ofFunctions_generated (dispatcherOf prepared.protocol role code)
    hwell.protocol_name hbalanced hinside (commandNames prepared.protocol) (unknown ++ handlers)
  rw [List.append_assoc, List.filterMap_append, List.flatMap_append] at hgenerated
  simp only [dispatcherOf] at hgenerated
  rw [hunknownEntries, hentries, hunknownRemainders, hremainders, List.nil_append,
    List.append_nil, firstOfEach_eq_self hnames] at hgenerated
  exact hgenerated

/-- The functions that are written into the private section. -/
theorem exists_privateFunctions (hwell : WellFormed prepared.protocol)
    (hrecoverable : Recoverable prepared.protocol role)
    (hreadable : Readable prepared.protocol.name (commandNames prepared.protocol) code) :
    ∃ functions : List FoundFunction,
      (∀ function ∈ functions, Legible Marker.publicFunctions.isOn function) ∧
      functions.flatMap (fun function => function.text ++ [""]) =
        senderLines prepared.protocol.name ++ code.unknown.flatMap (· ++ [""]) ++
          (MainModule.build prepared role (some code)).handlers.flatMap Handler.lines ++
          (dispatcherOf prepared.protocol role code).lines ∧
      PrivateCode.ofFunctions prepared.protocol.name (commandNames prepared.protocol) functions =
        ⟨(completed prepared role code).handlers, code.unknown,
          (completed prepared role code).fallback⟩ := by
  rcases exists_unknown hreadable with ⟨unknown, hunknown, hunknownText⟩
  rcases exists_handlers hwell hrecoverable hreadable with ⟨handlers, hlegible, htexts, howners⟩
  have hsender := legible_sender hwell.protocol_name Marker.publicFunctions
  have hdispatcher := @legible_dispatcherOf _ role _ hwell hreadable Marker.publicFunctions
  refine ⟨senderFunction prepared.protocol.name ::
    (unknown ++ (handlers ++ [(dispatcherOf prepared.protocol role code).function])), ?_, ?_, ?_⟩
  · simp only [List.forall_mem_cons, List.forall_mem_append, List.not_mem_nil, false_implies,
      implies_true, and_true]
    exact ⟨hsender, fun f hf => (hunknown f hf).1, hlegible, hdispatcher⟩
  · have hunknownLines : unknown.flatMap (fun function => function.text ++ [""]) =
        code.unknown.flatMap (· ++ [""]) := by
      rw [← hunknownText, List.flatMap_map]
    have hhandlersLines : handlers.flatMap (fun function => function.text ++ [""]) =
        (MainModule.build prepared role (some code)).handlers.flatMap Handler.lines := by
      have hlines := congrArg (List.flatMap (· ++ [""])) htexts
      rw [List.flatMap_map, List.flatMap_map] at hlines
      rw [MainModule.build, List.flatMap_map]
      exact hlines
    rw [List.flatMap_cons, List.flatMap_append, List.flatMap_append, List.flatMap_singleton,
      senderLines_eq, Dispatcher.lines_eq, hunknownLines, hhandlersLines]
    simp only [List.append_assoc]
  · have hnobody : ∀ function ∈ unknown, ownerOf prepared.protocol.name
        (commandNames prepared.protocol) function.signature = .nobody := by
      intro function hfunction
      exact (hunknown function hfunction).2
    rw [ofFunctions_written hwell hreadable hnobody howners, hunknownText]

/-- A public function is written in lines. -/
theorem isLine_publicFunctionLines {function : FoundFunction}
    (h : Legible (fun _ => false) function) :
    ∀ line ∈ publicFunctionLines (PublicFunction.ofFound function), IsLine line := by
  have hlines := h.lines
  simp only [FoundFunction.text, List.forall_mem_append] at hlines
  obtain ⟨⟨hleading, hdoc⟩, hbody⟩ := hlines
  have hblank : IsLine "" := ⟨by decide, by decide⟩
  simp only [publicFunctionLines, List.forall_mem_append, List.forall_mem_singleton]
  refine ⟨⟨⟨?_, hdoc⟩, hbody⟩, hblank⟩
  split
  · simp
  · rw [List.forall_mem_append, List.forall_mem_singleton]
    exact ⟨hleading, hblank⟩

/-- A module whose sections are made of certain functions. -/
structure LaidOut (module : MainModule) (privates publics : List FoundFunction) : Prop where
  includes : ∀ line ∈ module.includes, Marker.definitions.isOn line = false ∧ IsLine line
  definitions : ∀ line ∈ module.definitions,
    Marker.privateFunctions.isOn line = false ∧ IsLine line
  privateLegible : ∀ function ∈ privates, Legible Marker.publicFunctions.isOn function
  privateText : privates.flatMap (fun function => function.text ++ [""]) =
    senderLines module.protocol ++ module.unknown.flatMap (· ++ [""]) ++
      module.handlers.flatMap Handler.lines ++ module.dispatcher.lines
  privateTrailing : ∀ line ∈ module.privateTrailing,
    Waits Marker.publicFunctions.isOn line ∧ IsLine line
  publicLegible : ∀ function ∈ publics, Legible (fun _ => false) function
  publicFunctions : publics.map PublicFunction.ofFound = module.publicFunctions
  publicTrailing : ∀ line ∈ module.publicTrailing, Waits (fun _ => false) line ∧ IsLine line

/-- The lines of a module, section by section. -/
def sectionLines (module : MainModule) (privates publics : List FoundFunction)
    (below : List String) : List String :=
  module.includes ++ "// *** Definitions ***" :: (module.definitions ++
    "// *** Private Functions ***" ::
      (("" :: (privates.flatMap (fun function => function.text ++ [""]) ++
          (module.privateTrailing ++ below))) ++
        "// *** Public Functions ***" ::
          ("" :: (publics.flatMap (fun function =>
              publicFunctionLines (PublicFunction.ofFound function)) ++
            (module.publicTrailing ++ [])))))

section LaidOut

variable {module : MainModule} {privates publics : List FoundFunction}

/-- Below what the private section leaves over there is at most a blank line. -/
theorem LaidOut.exists_lines_eq (h : LaidOut module privates publics) :
    ∃ below, (∀ line ∈ below, line = "") ∧
      module.lines = sectionLines module privates publics below := by
  obtain ⟨below, hbelow, htrailing⟩ : ∃ below : List String, (∀ line ∈ below, line = "") ∧
      (if module.privateTrailing.isEmpty then [] else module.privateTrailing ++ [""]) =
        module.privateTrailing ++ below := by
    cases module.privateTrailing with
    | nil => exact ⟨[], by simp, rfl⟩
    | cons line lines => exact ⟨[""], by simp, rfl⟩
  have hpublicText : publics.flatMap (fun function =>
        publicFunctionLines (PublicFunction.ofFound function)) =
      module.publicFunctions.flatMap publicFunctionLines := by
    rw [← h.publicFunctions, List.flatMap_map]
  refine ⟨below, hbelow, ?_⟩
  rw [sectionLines, h.privateText, hpublicText, ← htrailing, MainModule.lines]
  simp only [List.append_assoc, List.cons_append, List.nil_append, List.append_nil]

/-- A module is written in lines. -/
theorem LaidOut.isLine (h : LaidOut module privates publics) :
    ∀ line ∈ module.lines, IsLine line := by
  obtain ⟨below, hbelow, hlines⟩ := h.exists_lines_eq
  have hblank : IsLine "" := ⟨by decide, by decide⟩
  have hprivateLines : ∀ line ∈ privates.flatMap (fun function => function.text ++ [""]),
      IsLine line := by
    rw [List.forall_mem_flatMap]
    intro function hfunction
    rw [List.forall_mem_append, List.forall_mem_singleton]
    exact ⟨(h.privateLegible function hfunction).lines, hblank⟩
  have hpublicLines : ∀ line ∈ publics.flatMap (fun function =>
      publicFunctionLines (PublicFunction.ofFound function)), IsLine line := by
    rw [List.forall_mem_flatMap]
    exact fun function hfunction => isLine_publicFunctionLines (h.publicLegible function hfunction)
  rw [hlines, sectionLines]
  simp only [List.forall_mem_append, List.forall_mem_cons, List.append_nil]
  refine ⟨fun l hl => (h.includes l hl).2, ⟨by decide, by decide⟩,
    fun l hl => (h.definitions l hl).2, ⟨by decide, by decide⟩,
    ⟨hblank, hprivateLines, fun l hl => (h.privateTrailing l hl).2, fun l hl => ?_⟩,
    ⟨by decide, by decide⟩, hblank, hpublicLines, fun l hl => (h.publicTrailing l hl).2⟩
  rw [hbelow l hl]
  exact hblank

/-- A module is recovered by what is kept of its private functions. -/
theorem LaidOut.recover_eq (h : LaidOut module privates publics) (protocol : String)
    (commands : List String) :
    recover protocol commands module.text =
      .ok
        { includes := module.includes
          definitions := module.definitions
          handlers := (PrivateCode.ofFunctions protocol commands privates).handlers
          unknown := (PrivateCode.ofFunctions protocol commands privates).unknown
          fallback := (PrivateCode.ofFunctions protocol commands privates).fallback
          privateTrailing := module.privateTrailing
          publicFunctions := module.publicFunctions
          publicTrailing := module.publicTrailing } := by
  obtain ⟨below, hbelow, hlines⟩ := h.exists_lines_eq
  have hpublic (number : Nat) := @scans_section _ publics _ _ _ rfl
    (fun function hfunction => (h.publicLegible function hfunction).framed.spells_public)
    (fun l hl => (h.publicTrailing l hl).1) (fun l hl => absurd hl List.not_mem_nil) number
  have hprivate (number : Nat) := @scans_section _ privates _ _ _ (by decide)
    (fun function hfunction => (h.privateLegible function hfunction).framed.spells (by decide))
    (fun l hl => (h.privateTrailing l hl).1) hbelow number
  rw [recover, MainModule.text, Text.lines_unlines h.isLine, hlines, sectionLines,
    recoverLines_sections (fun l hl => (h.includes l hl).1) (by decide)
      (fun l hl => (h.definitions l hl).1) (by decide) hprivate (by decide) hpublic,
    h.publicFunctions]

end LaidOut

/-- A module that is written from readable code is recovered as its completed code. -/
theorem recover_build (hwell : WellFormed prepared.protocol)
    (hrecoverable : Recoverable prepared.protocol role)
    (hreadable : Readable prepared.protocol.name (commandNames prepared.protocol) code) :
    recover prepared.protocol.name (commandNames prepared.protocol)
        (MainModule.build prepared role (some code)).text =
      .ok (completed prepared role code) := by
  obtain ⟨privates, hprivates, hprivateText, hkept⟩ :=
    exists_privateFunctions hwell hrecoverable hreadable
  obtain ⟨publics, hpublics, hpublicFunctions⟩ := exists_publicFunctions hwell hreadable
  have hsections := hreadable.sections
  rw [List.forall_mem_append] at hsections
  have hlaidOut : LaidOut (MainModule.build prepared role (some code)) privates publics :=
    { includes := fun line hline => ⟨hreadable.includes line hline, hsections.1 line hline⟩
      definitions := fun line hline => ⟨hreadable.definitions line hline, hsections.2 line hline⟩
      privateLegible := hprivates
      privateText := hprivateText
      privateTrailing := hreadable.privateTrailing
      publicLegible := hpublics
      publicFunctions := hpublicFunctions
      publicTrailing := hreadable.publicTrailing }
  rw [hlaidOut.recover_eq, hkept]
  rfl

end Whole

end Recovery
end CommandSet
