import CommandSet.Proofs.Recovery.ReadBack

/-!
# Regeneration

A module that is generated from the code of any accepted source is recovered, and generated
once more it is the same.  Nothing that was recovered gets lost on the way: what the source
lacks is filled in, and the rest is kept.

Main definition:

- {lit}`Keeps`: code that holds what other code held.

Main result:

- Theorem {lit}`recover_regenerated`: regeneration is idempotent and keeps the code.
-/

namespace CommandSet
namespace Recovery

open Firmware

/-- Code that holds all of the code before it, with fresh parts only where there were none. -/
structure Keeps (protocol : Protocol) (role : Role) (before after : RecoveredCode) : Prop where
  includes : after.includes = before.includes
  definitions : after.definitions = before.definitions
  unknown : after.unknown = before.unknown
  privateTrailing : after.privateTrailing = before.privateTrailing
  publicTrailing : after.publicTrailing = before.publicTrailing
  publicFunctions : before.publicFunctions ≠ [] → after.publicFunctions = before.publicFunctions
  fallback : after.fallback = some (before.fallback.getD defaultFallback)
  handlers : ∀ cmd ∈ protocol.received role, after.handler? cmd.name =
    some ((before.handler? cmd.name).getD (Handler.stub protocol.name cmd))

/-- Completed code keeps the code. -/
theorem keeps_completed {prepared : Prepared} {role : Role} {code : RecoveredCode}
    (hwell : WellFormed prepared.protocol) :
    Keeps prepared.protocol role code (completed prepared role code) where
  includes := rfl
  definitions := rfl
  unknown := rfl
  privateTrailing := rfl
  publicTrailing := rfl
  publicFunctions := by
    intro hne
    have hnonempty : ¬code.publicFunctions.isEmpty = true := by
      rwa [List.isEmpty_iff]
    rw [completed, publicFunctionsOf]
    exact if_neg hnonempty
  fallback := rfl
  handlers := fun _ hcmd => completed_handler? (nodup_received hwell) hcmd

/-- A module that is generated from the code of a source is recovered with all of it, and
generated once more it stays as it is. -/
theorem recover_regenerated {protocol : Protocol} {prepared : Prepared} {role : Role}
    {source : String} {code : RecoveredCode} (hprepare : prepare protocol = .ok prepared)
    (hrecover : recover protocol.name (commandNames protocol) source = .ok code)
    (hlines : ∀ line ∈ Text.lines source, line.toList.getLast? ≠ some '\r')
    (hleading : ∀ functions, privateFunctions source = .ok functions →
      ∀ function ∈ functions, LeadingFree protocol.name (commandNames protocol) function)
    (hfallback : ∀ block ∈ code.fallback, Balanced block)
    (hrecoverable : Recoverable protocol role) :
    ∃ again, recover protocol.name (commandNames protocol)
        (MainModule.build prepared role (some code)).text = .ok again ∧
      (MainModule.build prepared role (some again)).text =
        (MainModule.build prepared role (some code)).text ∧
      Keeps protocol role code again := by
  obtain ⟨rfl, hwell⟩ := wellFormed_of_prepare hprepare
  have hreadable := readable_of_recover hrecover hlines hleading hfallback
  have hagain := @recover_build (Prepared.ofProtocol protocol) _ _ hwell hrecoverable hreadable
  refine ⟨_, hagain, ?_, @keeps_completed (Prepared.ofProtocol protocol) _ _ hwell⟩
  exact congrArg MainModule.text (build_completed (nodup_received hwell))

/-! ## A module without one of its handlers -/

private def pump : Protocol :=
  ⟨"Pump", 9, [⟨"Start", 1, .aToB, [⟨"rate", 4, true, .uint16, [], ""⟩], "slowly"⟩,
    ⟨"Stop", 2, .bidirectional, [], ""⟩]⟩

/-- A declaration above a private function, a signature on two lines, and a dispatcher with
a fallback of its own; the handler of the other command is missing. -/
private def pumpLines : List String :=
  ["// *** Definitions ***", "int n;", "// *** Private Functions ***", "int f(int i);", "",
    r"int f(int i) {", r"return 2 * i; }", "bool PumpExecuteStop(", r"void) {", r"n = 0; }",
    r"bool PumpDispatchCommand() {", "default:", "n = f(n);", "break;", r"}",
    "// *** Public Functions ***", r"int g() { return n; }", "// end"]

private def pumpFunctions : List FoundFunction :=
  [⟨["int f(int i);"], [], [r"int f(int i) {"], [r"int f(int i) {", r"return 2 * i; }"]⟩,
    ⟨[], [], ["bool PumpExecuteStop(", r"void) {"],
      ["bool PumpExecuteStop(", r"void) {", r"n = 0; }"]⟩,
    ⟨[], [], [r"bool PumpDispatchCommand() {"],
      [r"bool PumpDispatchCommand() {", "default:", "n = f(n);", "break;", r"}"]⟩]

private def pumpCode : RecoveredCode where
  includes := []
  definitions := ["int n;"]
  handlers := [("Stop", ["bool PumpExecuteStop(", r"void) {", r"n = 0; }"])]
  unknown := [["int f(int i);", r"int f(int i) {", r"return 2 * i; }"]]
  fallback := some ["n = f(n);"]
  privateTrailing := []
  publicFunctions :=
    [⟨[], [], [r"int g() { return n; }"], [r"int g() { return n; }"]⟩]
  publicTrailing := ["// end"]

private theorem isLine_pump : ∀ line ∈ pumpLines, Text.IsLine line := by
  decide

private theorem lines_pump : Text.lines (Text.unlines pumpLines) = pumpLines :=
  Text.lines_unlines isLine_pump

private theorem recover_pump :
    recover pump.name (commandNames pump) (Text.unlines pumpLines) = .ok pumpCode := by
  rw [recover, lines_pump]
  decide +kernel

private theorem privateFunctions_pump :
    privateFunctions (Text.unlines pumpLines) = .ok pumpFunctions := by
  rw [privateFunctions, lines_pump]
  decide +kernel

/-- The handler that the source lacks is filled in, the other one is kept. -/
theorem recover_regenerated_pump :
    ∃ again, recover pump.name (commandNames pump)
        (MainModule.build (Prepared.ofProtocol pump) .b (some pumpCode)).text = .ok again ∧
      (MainModule.build (Prepared.ofProtocol pump) .b (some again)).text =
        (MainModule.build (Prepared.ofProtocol pump) .b (some pumpCode)).text ∧
      Keeps pump .b pumpCode again := by
  have hlines : ∀ line ∈ Text.lines (Text.unlines pumpLines), line.toList.getLast? ≠ some '\r' := by
    rw [lines_pump]
    intro line hline
    exact (isLine_pump line hline).carriage
  have hleading : ∀ functions, privateFunctions (Text.unlines pumpLines) = .ok functions →
      ∀ function ∈ functions, LeadingFree pump.name (commandNames pump) function := by
    intro functions hfunctions
    obtain rfl : pumpFunctions = functions :=
      Except.ok.inj (privateFunctions_pump.symm.trans hfunctions)
    decide
  have hprepare : prepare pump = .ok (Prepared.ofProtocol pump) := rfl
  have hfallback : ∀ block ∈ pumpCode.fallback, Balanced block := by decide
  have hrecoverable : Recoverable pump .b := ⟨by decide, by decide⟩
  exact recover_regenerated hprepare recover_pump hlines hleading hfallback hrecoverable

end Recovery
end CommandSet
