import CommandSet.Proofs.Recovery.ReadBack

/-!
# Default arms

The lines that a dispatcher has for unknown commands are read up to a {lit}`break;` at the
brace depth at which the line of the {lit}`default:` stands.  The depth is taken in front of
the braces of that line, so the {lit}`break;` of an arm that the line itself puts in braces is
passed over.  Where no such {lit}`break;` follows, the arm is lost.

Main definition:

- {lit}`arm`: the lines of an arm.

Main results:

- Theorem {lit}`arm_isPrefix`: what is read up to a {lit}`break;` holds the whole arm.
- Theorem {lit}`default_arm_kept_or_lost`: the arms that are written back, and those in whose
  place a fresh fallback is written.
- Theorem {lit}`default_arm_lost_pump`: an arm in braces is lost.
-/

namespace CommandSet
namespace Recovery

open Firmware

/-! ## The lines of an arm -/

/-- The lines of an arm: all lines up to a {lit}`break;` or a line that leads below depth zero,
the first of them standing at {lit}`depth`. -/
def arm (depth : Int) : List String → List String
  | [] => []
  | line :: lines =>
      if IsBreak line ∨ depth + braceDelta line < 0 then []
      else line :: arm (depth + braceDelta line) lines

/-- An arm ends at the latest at any {lit}`break;`. -/
theorem arm_isPrefix (depth : Int) (block below : List String) {last : String}
    (hlast : IsBreak last) : arm depth (block ++ last :: below) <+: block := by
  induction block generalizing depth with
  | nil =>
      rw [List.nil_append, arm, if_pos (.inl hlast)]
  | cons line block ih =>
      rw [List.cons_append, arm]
      split
      · exact List.nil_prefix
      · exact (List.prefix_cons_inj line).mpr (ih _)

/-! ## Dispatchers of modules -/

/-- A dispatcher shows its fallback. -/
theorem fallback_isInfix (dispatcher : Dispatcher) : dispatcher.fallback <:+: dispatcher.lines := by
  unfold Dispatcher.lines
  rw [List.append_assoc]
  exact (List.prefix_append _ _).isInfix.trans (List.suffix_append _ _).isInfix

/-- A recovered fallback is that of the last dispatcher. -/
theorem fallback_of_recover {protocol source : String} {commands : List String}
    {code : RecoveredCode} {functions : List FoundFunction} {dispatcher : FoundFunction}
    (hrecover : recover protocol commands source = .ok code)
    (hfunctions : privateFunctions source = .ok functions)
    (hdispatcher : functions.filter (isDispatcher protocol commands) = [dispatcher]) :
    code.fallback = fallbackOf dispatcher.body := by
  obtain ⟨privates, publics, hprivates, hfrom⟩ := recoveredFrom_of_recover hrecover
  obtain rfl : privates = functions := Except.ok.inj (hprivates.symm.trans hfunctions)
  have hfallback := @fallback_ofFunctions protocol commands privates
  rw [hfrom.kept, hdispatcher] at hfallback
  exact hfallback

/-- Let the only dispatcher of a source start its arm for unknown commands on a line.  If a
{lit}`break;` follows at the brace depth in front of that line, the dispatcher that is written
holds the lines up to the first such {lit}`break;`, and they hold the arm.  If none follows,
the arm is dropped for the fallback of a fresh module. -/
theorem default_arm_kept_or_lost {protocol : Protocol} {prepared : Prepared} {role : Role}
    {source : String} {code : RecoveredCode} {functions : List FoundFunction}
    {dispatcher : FoundFunction} {above rest : List String} {start : String}
    (hprepare : prepare protocol = .ok prepared)
    (hrecover : recover protocol.name (commandNames protocol) source = .ok code)
    (hfunctions : privateFunctions source = .ok functions)
    (hdispatcher : functions.filter (isDispatcher protocol.name (commandNames protocol)) =
      [dispatcher])
    (hbody : dispatcher.body = above ++ start :: rest) (habove : ∀ line ∈ above, ¬IsDefault line)
    (hstart : IsDefault start) :
    (¬BreaksInsideFrom (braceDelta start) rest →
      ∃ block last below, rest = block ++ last :: below ∧ IsBreak last ∧
        braceDelta start + netBraces (codeOf block) = 0 ∧
        BreaksInsideFrom (braceDelta start) block ∧ arm (braceDelta start) rest <+: block ∧
        block <:+: (MainModule.build prepared role (some code)).dispatcher.lines) ∧
    (BreaksInsideFrom (braceDelta start) rest →
      (MainModule.build prepared role (some code)).dispatcher.fallback = defaultFallback) := by
  obtain ⟨rfl, -⟩ := wellFormed_of_prepare hprepare
  have hfallback := fallback_of_recover hrecover hfunctions hdispatcher
  rw [hbody, fallbackOf_eq_untilBreak habove hstart] at hfallback
  have hwritten :
      (MainModule.build (Prepared.ofProtocol protocol) role (some code)).dispatcher.fallback =
        (untilBreak (braceDelta start) rest).getD defaultFallback := by
    rw [← hfallback]
    rfl
  constructor
  · intro hbreak
    obtain ⟨block, hblock⟩ := exists_untilBreak hbreak
    obtain ⟨hinside, hnet, last, below, rfl, hlast⟩ := untilBreak_eq_some_iff.mp hblock
    refine ⟨block, last, below, rfl, hlast, hnet, hinside, arm_isPrefix _ block below hlast, ?_⟩
    rw [hblock, Option.getD_some] at hwritten
    have hshown := fallback_isInfix
      (MainModule.build (Prepared.ofProtocol protocol) role (some code)).dispatcher
    rwa [hwritten] at hshown
  · intro hinside
    rw [hwritten, untilBreak_eq_none hinside]
    rfl

/-! ## Two arms -/

/-- A command that is received without attributes. -/
private def pumpRun : Protocol :=
  ⟨"Pump", 9, [⟨"Start", 1, .aToB, [], ""⟩]⟩

/-- The dispatcher of a module, with an arm in its switch. -/
private def pumpDispatcher (arm : List String) : FoundFunction :=
  ⟨[], [], [r"bool PumpDispatchCommand() {"],
    [r"bool PumpDispatchCommand() {", r"switch (cmdName) {"] ++ arm ++ [r"}", r"}"]⟩

private def pumpSource (arm : List String) : List String :=
  ["// *** Definitions ***", "// *** Private Functions ***"] ++ (pumpDispatcher arm).body ++
    ["// *** Public Functions ***"]

private def armCode (fallback : Option (List String)) : RecoveredCode :=
  ⟨[], [], [], [], fallback, [], [], []⟩

/-- An arm with a switch of its own. -/
private def switchArm : List String :=
  [r"switch (n) {", "case 1:", "break;", r"}", "n %= 2;"]

private theorem lines_switchArm :
    Text.lines (Text.unlines (pumpSource (["default:"] ++ switchArm ++ ["break;"]))) =
      pumpSource (["default:"] ++ switchArm ++ ["break;"]) :=
  Text.lines_unlines (by decide +kernel)

private theorem recover_switchArm :
    recover pumpRun.name (commandNames pumpRun)
        (Text.unlines (pumpSource (["default:"] ++ switchArm ++ ["break;"]))) =
      .ok (armCode (some switchArm)) := by
  rw [recover, lines_switchArm]
  decide +kernel

private theorem privateFunctions_switchArm :
    privateFunctions (Text.unlines (pumpSource (["default:"] ++ switchArm ++ ["break;"]))) =
      .ok [pumpDispatcher (["default:"] ++ switchArm ++ ["break;"])] := by
  rw [privateFunctions, lines_switchArm]
  decide +kernel

/-- An arm with a switch of its own is written back. -/
theorem default_arm_kept_pump :
    ∃ block, arm 0 (switchArm ++ ["break;", r"}", r"}"]) <+: block ∧
      block <:+: (MainModule.build (Prepared.ofProtocol pumpRun) .b
        (some (armCode (some switchArm)))).dispatcher.lines := by
  obtain ⟨hkept, -⟩ := @default_arm_kept_or_lost pumpRun _ .b _ _ _
    (pumpDispatcher (["default:"] ++ switchArm ++ ["break;"]))
    [r"bool PumpDispatchCommand() {", r"switch (cmdName) {"]
    (switchArm ++ ["break;", r"}", r"}"]) "default:" rfl recover_switchArm
    privateFunctions_switchArm (by decide +kernel) (by decide) (by decide) (by decide)
  have hbreak :
      ¬BreaksInsideFrom (braceDelta "default:") (switchArm ++ ["break;", r"}", r"}"]) :=
    fun h => h switchArm "break;" [r"}", r"}"] rfl (by decide) (by decide)
  obtain ⟨block, -, -, -, -, -, -, harm, hwritten⟩ := hkept hbreak
  exact ⟨block, harm, hwritten⟩

/-- The line of the {lit}`default:` opens the braces of this arm. -/
private def bracedArm : List String :=
  ["n %= 2;", "break;", r"}"]

private theorem lines_bracedArm :
    Text.lines (Text.unlines (pumpSource (r"default: {" :: bracedArm))) =
      pumpSource (r"default: {" :: bracedArm) :=
  Text.lines_unlines (by decide +kernel)

private theorem recover_bracedArm :
    recover pumpRun.name (commandNames pumpRun)
        (Text.unlines (pumpSource (r"default: {" :: bracedArm))) =
      .ok (armCode none) := by
  rw [recover, lines_bracedArm]
  decide +kernel

private theorem privateFunctions_bracedArm :
    privateFunctions (Text.unlines (pumpSource (r"default: {" :: bracedArm))) =
      .ok [pumpDispatcher (r"default: {" :: bracedArm)] := by
  rw [privateFunctions, lines_bracedArm]
  decide +kernel

/-- An arm whose braces the line of the {lit}`default:` opens is lost, though the source is
accepted. -/
theorem default_arm_lost_pump :
    ∃ code functions dispatcher above start rest line,
      prepare pumpRun = .ok (Prepared.ofProtocol pumpRun) ∧
      recover pumpRun.name (commandNames pumpRun)
        (Text.unlines (pumpSource (r"default: {" :: bracedArm))) = .ok code ∧
      privateFunctions (Text.unlines (pumpSource (r"default: {" :: bracedArm))) = .ok functions ∧
      functions.filter (isDispatcher pumpRun.name (commandNames pumpRun)) = [dispatcher] ∧
      dispatcher.body = above ++ start :: rest ∧ IsDefault start ∧
      (∀ l ∈ above ++ rest, ¬IsDefault l) ∧ line ∈ arm (braceDelta start) rest ∧
      isBlankLine line = false ∧
      line ∉ (MainModule.build (Prepared.ofProtocol pumpRun) .b (some code)).dispatcher.lines := by
  refine ⟨armCode none, [pumpDispatcher (r"default: {" :: bracedArm)],
    pumpDispatcher (r"default: {" :: bracedArm),
    [r"bool PumpDispatchCommand() {", r"switch (cmdName) {"], r"default: {",
    bracedArm ++ [r"}", r"}"], "n %= 2;", rfl, recover_bracedArm, privateFunctions_bracedArm,
    by decide +kernel, rfl, by decide, by decide, by decide, by decide, ?_⟩
  have hblank : ' ' ∉ ['%'] := by decide
  have havoids : ∀ line ∈ Dispatcher.lines ⟨"Pump", [DispatchCase.ofCommand "Pump"
      ⟨"Start", 1, .aToB, [], ""⟩], defaultFallback⟩, Avoids ['%'] line := by
    simp only [Dispatcher.lines, DocBlock.lines, Dispatcher.signature_eq, Dispatcher.name,
      Naming.payloadUnion, opening, closing, successResult, defaultFallback,
      List.forall_mem_append, List.forall_mem_cons, List.map_cons, avoids_append,
      avoids_indent hblank, List.map_nil, List.not_mem_nil, false_implies,
      implies_true, and_true, List.flatMap_cons, List.flatMap_nil, DispatchCase.lines,
      DispatchCase.ofCommand, Naming.commandOrdinal, handlerName]
    and_intros
    all_goals exact .fixed rfl
  intro hmem
  exact havoids _ hmem '%' List.mem_cons_self (by decide)

end Recovery
end CommandSet
