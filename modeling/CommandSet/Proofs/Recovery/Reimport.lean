import CommandSet.Proofs.Recovery.Acceptance
import CommandSet.Proofs.Recovery.ReadBack

/-!
# Modules that can be imported again

Recovered code is written between generated lines.  Whatever stands in functions or
outside of them closes the braces that it opens, whichever style it is written in.  The
fallback is the exception: it is cut at a line and not at a brace, so it may lack the
brace that the line of its {lit}`default:` opened, and the module around it is accepted
exactly when it does not.

Main definitions:

- {lit}`Fragment`, {lit}`Passage`: lines that fit between any others, and lines that lead from
  one depth to another.
- {lit}`aboveFallback`, {lit}`belowFallback`: the private section around its fallback.

Main results:

- Theorem {lit}`Framed.fragments`: the parts of a function that was found are fragments.
- Theorem {lit}`recover_again_iff`: the modules that are accepted again.
- Theorem {lit}`not_recover_again_pump`: one around a dispatcher in another brace style is not.
-/

namespace CommandSet
namespace Recovery

open Firmware
open Text (IsLine)

/-! ## Fragments -/

/-- Lines that fit between any others: without newlines, and with balanced braces. -/
structure Fragment (lines : List String) : Prop where
  balanced : Balanced lines
  newline : ∀ line ∈ lines, '\n' ∉ line.toList

theorem Fragment.nil : Fragment [] where
  balanced := .nil
  newline := by simp

theorem Fragment.blank : Fragment [""] where
  balanced := by decide
  newline := by decide

theorem Fragment.append {first second : List String} (hfirst : Fragment first)
    (hsecond : Fragment second) : Fragment (first ++ second) where
  balanced := hfirst.balanced.append hsecond.balanced
  newline := List.forall_mem_append.mpr ⟨hfirst.newline, hsecond.newline⟩

theorem Fragment.flatMap {α : Type} {values : List α} {write : α → List String}
    (h : ∀ a ∈ values, Fragment (write a)) : Fragment (values.flatMap write) := by
  induction values with
  | nil => exact .nil
  | cons a values ih =>
      rw [List.forall_mem_cons] at h
      exact h.1.append (ih h.2)

/-- Lines without newlines that lead from one depth to another. -/
structure Passage (depth after : Nat) (lines : List String) : Prop where
  leads : Leads depth after lines
  newline : ∀ line ∈ lines, '\n' ∉ line.toList

instance (depth after : Nat) (lines : List String) : Decidable (Passage depth after lines) :=
  decidable_of_iff (Leads depth after lines ∧ ∀ line ∈ lines, '\n' ∉ line.toList)
    ⟨fun h => ⟨h.1, h.2⟩, fun h => ⟨h.leads, h.newline⟩⟩

theorem Passage.append {depth next after : Nat} {first second : List String}
    (hfirst : Passage depth next first) (hsecond : Passage next after second) :
    Passage depth after (first ++ second) where
  leads := hfirst.leads.append hsecond.leads
  newline := List.forall_mem_append.mpr ⟨hfirst.newline, hsecond.newline⟩

/-- A fragment passes at every depth. -/
theorem Fragment.passage {lines : List String} (h : Fragment lines) (depth : Nat) :
    Passage depth depth lines where
  leads := h.balanced.leads depth
  newline := h.newline

theorem fragment_of_code {lines : List String} (h : Code lines) : Fragment lines where
  balanced := h.balanced
  newline := fun line hline => (h.isLine line hline).newline

theorem balanced_of_waits {stop : String → Bool} {lines : List String}
    (h : ∀ line ∈ lines, Waits stop line) : Balanced lines := by
  induction lines with
  | nil => exact .nil
  | cons line lines ih =>
      rw [List.forall_mem_cons] at h
      exact .cons (depthAfter_of_braceless h.1.opens h.1.closes 0) (ih h.2)

/-- Lines outside of functions are a fragment. -/
theorem fragment_of_waits {stop : String → Bool} {lines : List String}
    (hwaits : ∀ line ∈ lines, Waits stop line) (hnewline : ∀ line ∈ lines, '\n' ∉ line.toList) :
    Fragment lines :=
  ⟨balanced_of_waits hwaits, hnewline⟩

/-- Lines of a comment are a fragment. -/
theorem fragment_of_docLines {lines : List String} (h : ∀ line ∈ lines, DocLine line) :
    Fragment lines :=
  @fragment_of_waits (fun _ => false) _ (fun line hline => (h line hline).waits rfl)
    fun line hline => (h line hline).isLine.newline

/-- The comment above a generated function is a fragment. -/
theorem fragment_of_fits {doc : DocBlock} (h : doc.Fits) : Fragment doc.lines :=
  fragment_of_docLines h.docLine

/-! ## Functions -/

theorem Descends.leads {depth after : Nat} {lines : List String} (h : Descends depth lines after) :
    Leads depth after lines := by
  induction h with
  | nil => rfl
  | cons _ hline _ ih => exact leads_cons_iff.mpr ⟨_, hline, ih⟩

/-- The body of a function that was found is balanced, as its braces close on its last
line. -/
theorem Framed.balanced_body {stop : String → Bool} {function : FoundFunction}
    (h : Framed stop function) : Balanced function.body := by
  generalize hdepth : 0 = depth at h
  cases h with
  | @mk pending rest line first _ hpending hstop hopen hline hrest =>
      subst hdepth
      have hsignature : ∀ l ∈ (splitEnding isSignatureLine pending).2, Waits stop l :=
        fun l hl => hpending l (mem_of_mem_splitEnding_snd hl)
      rw [balanced_iff_leads, FoundFunction.start_eq]
      simp only [List.append_assoc, List.singleton_append]
      exact ((balanced_of_waits hsignature).leads 0).append
        (leads_cons_iff.mpr ⟨first, hline, hrest.leads⟩)

/-- The parts of a function that was found are fragments. -/
theorem Framed.fragments {stop : String → Bool} {function : FoundFunction}
    (h : Framed stop function) (hnewline : ∀ line ∈ function.text, '\n' ∉ line.toList) :
    Fragment function.leading ∧ Fragment function.doc ∧ Fragment function.body := by
  simp only [FoundFunction.text, List.forall_mem_append] at hnewline
  have habove := h.waits
  rw [List.forall_mem_append] at habove
  exact ⟨fragment_of_waits habove.1 hnewline.1.1, fragment_of_waits habove.2 hnewline.1.2,
    h.balanced_body, hnewline.2⟩

theorem Framed.fragment_text {stop : String → Bool} {function : FoundFunction}
    (h : Framed stop function) (hnewline : ∀ line ∈ function.text, '\n' ∉ line.toList) :
    Fragment function.text := by
  obtain ⟨hleading, hdoc, hbody⟩ := h.fragments hnewline
  exact (hleading.append hdoc).append hbody

/-- A public function is written as a fragment. -/
theorem Framed.fragment_publicFunctionLines {stop : String → Bool} {function : FoundFunction}
    (h : Framed stop function) (hnewline : ∀ line ∈ function.text, '\n' ∉ line.toList) :
    Fragment (publicFunctionLines (PublicFunction.ofFound function)) := by
  obtain ⟨hleading, hdoc, hbody⟩ := h.fragments hnewline
  rw [publicFunctionLines]
  refine ((Fragment.append ?_ hdoc).append hbody).append .blank
  split
  · exact .nil
  · exact hleading.append .blank

theorem Legible.newline {stop : String → Bool} {function : FoundFunction}
    (h : Legible stop function) : ∀ line ∈ function.text, '\n' ∉ line.toList :=
  fun line hline => (h.lines line hline).newline

/-! ## Generated functions -/

theorem fragment_senderLines {protocol : String} (h : IsName protocol) :
    Fragment (senderLines protocol) := by
  have hlegible := legible_sender h .publicFunctions
  rw [senderLines_eq]
  exact (hlegible.framed.fragment_text hlegible.newline).append .blank

theorem fragment_defaultPublicFunctions {protocol : String} (h : IsName protocol) :
    ∀ function ∈ defaultPublicFunctions protocol, Fragment (publicFunctionLines function) := by
  intro function hfunction
  obtain ⟨found, hlegible, rfl⟩ := exists_legible_defaultPublicFunctions h function hfunction
  exact hlegible.framed.fragment_publicFunctionLines hlegible.newline

/-! ## A module around its fallback -/

/-- The private section of a module in front of its fallback. -/
def aboveFallback (module : MainModule) : List String :=
  [""] ++ senderLines module.protocol ++ module.unknown.flatMap (· ++ [""]) ++
    module.handlers.flatMap Handler.lines ++ (Dispatcher.doc module.dispatcher.protocol).lines ++
    [opening (Dispatcher.signature module.dispatcher.protocol)] ++ module.dispatcher.front ++
    [indent 2 "default:"]

/-- The private section of a module behind its fallback. -/
def belowFallback (module : MainModule) : List String :=
  [indent 3 "break;", indent 1 closing, indent 1 "return ret;", closing, ""] ++
    if module.privateTrailing.isEmpty then [] else module.privateTrailing ++ [""]

/-- The public section of a module. -/
def publicSection (module : MainModule) : List String :=
  [""] ++ module.publicFunctions.flatMap publicFunctionLines ++ module.publicTrailing

/-- A module is written around the fallback of its dispatcher. -/
theorem MainModule.lines_eq (module : MainModule) :
    module.lines =
      module.includes ++ "// *** Definitions ***" :: (module.definitions ++
        "// *** Private Functions ***" :: (aboveFallback module ++ (module.dispatcher.fallback ++
          (belowFallback module ++ "// *** Public Functions ***" :: publicSection module)))) := by
  simp [MainModule.lines, aboveFallback, belowFallback, publicSection, Dispatcher.lines,
    Dispatcher.doc, Dispatcher.front]

/-- Lines around a block that lie at a depth are divided exactly if the block leads from
this depth back to it. -/
theorem divided_around_iff {depth : Nat} {above block below back : List String} {marker : String}
    (habove : Leads 0 depth above) (hbelow : Leads depth 0 below)
    (hmarker : Marker.publicFunctions.isOn marker = true) (hback : Leads 0 0 back) :
    Divided 0 (above ++ (block ++ (below ++ marker :: back))) ↔ Leads depth depth block := by
  have hrest : Leads depth 0 (below ++ marker :: back) :=
    hbelow.append (leads_cons_iff.mpr ⟨0, depthAfter_marker hmarker 0, hback⟩)
  constructor
  · rintro ⟨hleads, -⟩
    obtain ⟨next, hnext, hleads⟩ := leads_append_iff.mp hleads
    obtain rfl : depth = next := habove.unique hnext
    obtain ⟨after, hblock, hafter⟩ := leads_append_iff.mp hleads
    obtain rfl : depth = after := hrest.start_unique hafter
    exact hblock
  · intro hblock
    refine ⟨habove.append (hblock.append hrest), above ++ (block ++ below), marker, back, ?_,
      hmarker, habove.append (hblock.append hbelow)⟩
    simp only [List.append_assoc]

section Module

variable {prepared : Prepared} {role : Role} {code : RecoveredCode} {commands lines : List String}
  {privates publics : List FoundFunction}

/-- A handler is written as a fragment, be it recovered or fresh. -/
theorem fragment_handlerOf (hwell : WellFormed prepared.protocol)
    (hfrom : RecoveredFrom prepared.protocol.name commands lines privates publics code)
    (hnewline : ∀ line ∈ lines, '\n' ∉ line.toList) {cmd : Command}
    (hcmd : cmd ∈ prepared.protocol.received role) (hdescription : Showable cmd.description) :
    Fragment (MainModule.handlerOf prepared.protocol.name (some code) cmd).lines := by
  have hmem := received_subset hcmd
  have hname := hwell.command_names cmd hmem
  have hdoc := fragment_of_fits (fits_handlerDoc hwell.protocol_name hname hdescription)
  have hbody : Fragment (bodyOf prepared.protocol.name code cmd) := by
    cases hhandler : code.handler? cmd.name with
    | some body =>
        obtain ⟨function, hfunction, -, rfl⟩ := hfrom.function_of_handler (mem_of_lookup hhandler)
        rw [bodyOf, hhandler, Option.getD_some]
        exact ((hfrom.framed function hfunction).fragments
          ((hfrom.forall_lines hnewline).2.1.1 function hfunction)).2.2
    | none =>
        have hlegible := legible_stub hwell.protocol_name hname (attribute_names_of_mem hwell hmem)
          hdescription .publicFunctions
        rw [bodyOf, hhandler, Option.getD_none, Handler.stub_eq]
        exact (hlegible.framed.fragments hlegible.newline).2.2
  exact (hdoc.append hbody).append .blank

/-- The lines in front of the fallback lead into the two blocks around it. -/
theorem passage_aboveFallback (hwell : WellFormed prepared.protocol)
    (hfrom : RecoveredFrom prepared.protocol.name commands lines privates publics code)
    (hnewline : ∀ line ∈ lines, '\n' ∉ line.toList)
    (hdescriptions : ∀ cmd ∈ prepared.protocol.received role, Showable cmd.description) :
    Passage 0 2 (aboveFallback (MainModule.build prepared role (some code))) := by
  have hprotocol := hwell.protocol_name
  have hunknown : Fragment (code.unknown.flatMap (· ++ [""])) := by
    refine .flatMap fun text htext => Fragment.append ?_ .blank
    obtain ⟨function, hfunction, htext⟩ := hfrom.function_of_unknown htext
    have hframed := hfrom.framed function hfunction
    have hlines := (hfrom.forall_lines hnewline).2.1.1 function hfunction
    rcases htext with ⟨-, rfl⟩ | ⟨-, -, rfl⟩
    · exact hframed.fragment_text hlines
    · exact (hframed.fragments hlines).1
  have hhandlers : Fragment (((prepared.protocol.received role).map
      (MainModule.handlerOf prepared.protocol.name (some code))).flatMap Handler.lines) := by
    rw [List.flatMap_map]
    exact .flatMap fun cmd hcmd => fragment_handlerOf hwell hfrom hnewline hcmd
      (hdescriptions cmd hcmd)
  have hsignature := avoids_dispatcherSignature hprotocol
  have hdoc : Fragment (Dispatcher.doc prepared.protocol.name).lines :=
    fragment_of_fits (fits_fixed (avoids_lineBreaks hsignature) (by decide) (by decide) (by decide))
  have hcases : Fragment (((prepared.protocol.received role).map
      (DispatchCase.ofCommand prepared.protocol.name)).flatMap DispatchCase.lines) :=
    fragment_of_code (code_dispatchCases hprotocol fun cmd hcmd =>
      hwell.command_names cmd (received_subset hcmd))
  -- the lines that open the dispatcher and its switch
  have hopening : Passage 0 1 [opening (Dispatcher.signature prepared.protocol.name)] := by
    rw [← indent_zero (opening _)]
    refine ⟨leads_cons_iff.mpr ⟨1, depthAfter_opening hsignature 0, rfl⟩, ?_⟩
    exact List.forall_mem_singleton.mpr (isLine_opening hsignature).newline
  have hswitch : Passage 1 2 [indent 1 "bool ret = false;", "",
      indent 1 (opening "switch (cmdName)")] := by decide
  have hdefault : Passage 2 2 [indent 2 "default:"] := by decide
  have hbefore := (((Fragment.blank.append (fragment_senderLines hprotocol)).append
    hunknown).append hhandlers).append hdoc
  exact (((hbefore.passage 0).append hopening).append (hswitch.append (hcases.passage 2))).append
    hdefault

/-- The lines behind the fallback lead out of the two blocks. -/
theorem passage_belowFallback
    (hfrom : RecoveredFrom prepared.protocol.name commands lines privates publics code)
    (hnewline : ∀ line ∈ lines, '\n' ∉ line.toList) :
    Passage 2 0 (belowFallback (MainModule.build prepared role (some code))) := by
  have hclosing : Passage 2 0
      [indent 3 "break;", indent 1 closing, indent 1 "return ret;", closing, ""] := by decide
  have htrailing := fragment_of_waits hfrom.privateTrailing (hfrom.forall_lines hnewline).2.1.2
  refine hclosing.append (Fragment.passage ?_ 0)
  change Fragment (if code.privateTrailing.isEmpty then [] else code.privateTrailing ++ [""])
  split
  · exact .nil
  · exact htrailing.append .blank

/-- The public section is a fragment. -/
theorem fragment_publicSection (hwell : WellFormed prepared.protocol)
    (hfrom : RecoveredFrom prepared.protocol.name commands lines privates publics code)
    (hnewline : ∀ line ∈ lines, '\n' ∉ line.toList) :
    Fragment (publicSection (MainModule.build prepared role (some code))) := by
  obtain ⟨-, -, hlines, htrailing⟩ := hfrom.forall_lines hnewline
  refine (Fragment.blank.append (.flatMap ?_)).append
    (fragment_of_waits hfrom.publicTrailing htrailing)
  change ∀ function ∈ publicFunctionsOf prepared.protocol.name (some code),
    Fragment (publicFunctionLines function)
  simp only [publicFunctionsOf]
  split
  · exact fragment_defaultPublicFunctions hwell.protocol_name
  · rw [hfrom.publicFunctions, List.forall_mem_map]
    exact fun function hfunction =>
      (hfrom.publicFramed function hfunction).fragment_publicFunctionLines
        (hlines function hfunction)

/-- The fallback of a module leads back to its depth if the recovered one does. -/
theorem leads_fallback_iff :
    Leads 2 2 (code.fallback.getD defaultFallback) ↔ ∀ block ∈ code.fallback, Leads 2 2 block := by
  cases code.fallback with
  | some block => simp
  | none =>
      have hcode : Code defaultFallback := .line (.fixed rfl) .nil
      simp [hcode.balanced.leads 2]

/-- A module that is written from recovered code is accepted again if its fallback closes
the braces that it opens, and no others. -/
theorem accepted_build_iff (hwell : WellFormed prepared.protocol)
    (hfrom : RecoveredFrom prepared.protocol.name commands lines privates publics code)
    (hnewline : ∀ line ∈ lines, '\n' ∉ line.toList)
    (hdescriptions : ∀ cmd ∈ prepared.protocol.received role, Showable cmd.description) :
    Accepted (MainModule.build prepared role (some code)).lines ↔
      ∀ block ∈ code.fallback, Leads 2 2 block := by
  have habove := passage_aboveFallback hwell hfrom hnewline hdescriptions
  have hbelow := @passage_belowFallback _ role _ _ _ _ _ hfrom hnewline
  have hpublic := @fragment_publicSection _ role _ _ _ _ _ hwell hfrom hnewline
  have hincludes : ∀ l ∈ (MainModule.build prepared role (some code)).includes,
      Marker.definitions.isOn l = false := hfrom.includes
  have hdefinitions : ∀ l ∈ (MainModule.build prepared role (some code)).definitions,
      Marker.privateFunctions.isOn l = false := hfrom.definitions
  rw [MainModule.lines_eq, accepted_sections_iff hincludes (by decide) hdefinitions (by decide),
    divided_around_iff habove.leads hbelow.leads (by decide) (hpublic.balanced.leads 0)]
  exact leads_fallback_iff

/-- A module that is written from recovered code has no newline in its lines. -/
theorem newline_build (hwell : WellFormed prepared.protocol)
    (hfrom : RecoveredFrom prepared.protocol.name commands lines privates publics code)
    (hnewline : ∀ line ∈ lines, '\n' ∉ line.toList)
    (hdescriptions : ∀ cmd ∈ prepared.protocol.received role, Showable cmd.description) :
    ∀ line ∈ (MainModule.build prepared role (some code)).lines, '\n' ∉ line.toList := by
  have habove := passage_aboveFallback hwell hfrom hnewline hdescriptions
  have hbelow := @passage_belowFallback _ role _ _ _ _ _ hfrom hnewline
  have hpublic := @fragment_publicSection _ role _ _ _ _ _ hwell hfrom hnewline
  obtain ⟨⟨hincludes, hdefinitions⟩, ⟨hprivates, -⟩, -⟩ := hfrom.forall_lines hnewline
  have hfallback : ∀ line ∈ code.fallback.getD defaultFallback, '\n' ∉ line.toList := by
    cases hblock : code.fallback with
    | none => decide
    | some block =>
        obtain ⟨function, hfunction, hfound⟩ := hfrom.function_of_fallback hblock
        exact fun line hline => hprivates function hfunction line
          (List.mem_append_right _ (mem_of_fallbackOf hfound hline))
  rw [MainModule.lines_eq]
  simp only [List.forall_mem_append, List.forall_mem_cons]
  exact ⟨hincludes, by decide, hdefinitions, by decide, habove.newline, hfallback, hbelow.newline,
    by decide, hpublic.newline⟩

/-- What the module of recovered code is accepted for. -/
theorem exists_recover_build_iff {source : String} (hwell : WellFormed prepared.protocol)
    (hdescriptions : ∀ cmd ∈ prepared.protocol.received role, Showable cmd.description)
    (hrecover : recover prepared.protocol.name commands source = .ok code) (others : List String) :
    (∃ again, recover prepared.protocol.name others
        (MainModule.build prepared role (some code)).text = .ok again) ↔
      ∀ block ∈ code.fallback, Leads 2 2 block := by
  obtain ⟨privates, publics, -, hfrom⟩ := recoveredFrom_of_recover hrecover
  have hnewline : ∀ line ∈ Text.lines source, '\n' ∉ line.toList :=
    fun line hline => Text.newline_not_mem_of_mem_lines hline
  rw [MainModule.text,
    exists_recover_unlines_iff (newline_build hwell hfrom hnewline hdescriptions)]
  exact accepted_build_iff hwell hfrom hnewline hdescriptions

end Module

/-- A module that is generated from the code of a source is accepted again exactly if the
fallback that was recovered closes the braces that it opens, and no others: two blocks are
open around it. -/
theorem recover_again_iff {protocol : Protocol} {prepared : Prepared} {role : Role}
    {source : String} {code : RecoveredCode} (hprepare : prepare protocol = .ok prepared)
    (hdescriptions : ∀ cmd ∈ protocol.received role, Showable cmd.description)
    (hrecover : recover protocol.name (commandNames protocol) source = .ok code) :
    (∃ again, recover protocol.name (commandNames protocol)
        (MainModule.build prepared role (some code)).text = .ok again) ↔
      ∀ block ∈ code.fallback, Leads 2 2 block := by
  obtain ⟨rfl, hwell⟩ := wellFormed_of_prepare hprepare
  exact @exists_recover_build_iff (Prepared.ofProtocol protocol) _ _ _ _ hwell hdescriptions
    hrecover _

/-! ## Two dispatchers -/

/-- A command that is received without attributes. -/
private def pumpStart : Protocol :=
  ⟨"Pump", 9, [⟨"Start", 1, .aToB, [], "slowly"⟩]⟩

/-- A module whose dispatcher has certain lines in its switch. -/
private def pumpModule (arm : List String) : List String :=
  ["// *** Definitions ***", "// *** Private Functions ***", r"bool PumpDispatchCommand() {",
    r"switch (cmdName) {"] ++ arm ++ [r"}", r"}", "// *** Public Functions ***"]

/-- Code with nothing but a fallback. -/
private def fallbackCode (block : List String) : RecoveredCode :=
  ⟨[], [], [], [], some block, [], [], []⟩

/-- A loop in the fallback, with a {lit}`break;` of its own. -/
private def loopArm : List String :=
  ["default:", r"while (busy()) {", "break;", r"}", "break;"]

private theorem recover_loopArm :
    recover pumpStart.name (commandNames pumpStart) (Text.unlines (pumpModule loopArm)) =
      .ok (fallbackCode [r"while (busy()) {", "break;", r"}"]) := by
  rw [recover, Text.lines_unlines (by decide)]
  decide +kernel

/-- A loop in the fallback is written where it can be read again. -/
theorem recover_again_pump :
    ∃ again, recover "Pump" ["Start"] (MainModule.build (Prepared.ofProtocol pumpStart) .b
      (some (fallbackCode [r"while (busy()) {", "break;", r"}"]))).text = .ok again :=
  (recover_again_iff (rfl : prepare pumpStart = _) (by decide) recover_loopArm).mpr (by decide)

/-- A block as the arm: the line of the {lit}`default:` opens it. -/
private def blockArm : List String :=
  [r"default: {", "errors++;", r"}", "break;"]

private theorem recover_blockArm :
    recover pumpStart.name (commandNames pumpStart) (Text.unlines (pumpModule blockArm)) =
      .ok (fallbackCode ["errors++;", r"}"]) := by
  rw [recover, Text.lines_unlines (by decide)]
  decide +kernel

/-- A block that the line of the {lit}`default:` opens is cut behind that line, so the module
is not accepted again. -/
theorem not_recover_again_pump :
    ∃ code, recover "Pump" ["Start"] (Text.unlines (pumpModule blockArm)) = .ok code ∧
      ¬∃ again, recover "Pump" ["Start"]
        (MainModule.build (Prepared.ofProtocol pumpStart) .b (some code)).text = .ok again := by
  refine ⟨_, recover_blockArm, fun hagain => ?_⟩
  have hwell : WellFormed pumpStart := (wellFormed_of_prepare (rfl : prepare pumpStart = _)).2
  have hleads := (@exists_recover_build_iff (Prepared.ofProtocol pumpStart) .b _ _ _ hwell
    (by decide) recover_blockArm _).mp hagain
  revert hleads
  decide

end Recovery
end CommandSet
