import CommandSet.Artifacts
import CommandSet.Proofs.Protocol.Roles
import CommandSet.Proofs.Protocol.Validation
import CommandSet.Proofs.Text.Lines
import CommandSet.Proofs.Text.Words
import CommandSet.Recovery.Recover

/-!
# Prototypes in the shared header

One header serves the main modules of both roles, but it takes its public functions from
one of them.  What only the other module holds is not declared.

Main definitions:

- {lit}`Recovered.leading`: the role whose public functions the header takes.
- {lit}`MainHeader.prototypes`: the declarations of a header.

Main results:

- Theorem {lit}`publicFunctions_header`: a header and the main module of the leading role have
  the same public functions.
- Theorem {lit}`prototypes_declared`: when every public function is declared.
- Theorem {lit}`not_declared_pump`: a recovered function that no header declares.
-/

namespace CommandSet

open Firmware
open Recovery (PublicFunction RecoveredCode recover)

/-! ## The leading role -/

/-- The role whose public functions the header takes: B if code was recovered for it alone. -/
def Recovered.leading (recovered : Recovered) : Role :=
  if recovered.a.isNone && recovered.b.isSome then .b else .a

theorem Recovered.forHeader_eq (recovered : Recovered) :
    recovered.forHeader = recovered.ofRole recovered.leading := by
  obtain ⟨a, b⟩ := recovered
  cases a <;> cases b <;> rfl

/-- The declarations of the public functions in a header. -/
def Firmware.MainHeader.prototypes (header : MainHeader) : List String :=
  header.publicFunctions.map (·.prototype)

variable {prepared : Prepared} {recovered : Recovered}

/-- The main header of a run. -/
def mainHeader (prepared : Prepared) (recovered : Recovered) : MainHeader :=
  MainHeader.build prepared recovered.forHeader

/-- The main module of a role in a run. -/
def mainModule (prepared : Prepared) (recovered : Recovered) (role : Role) : MainModule :=
  MainModule.build prepared role (recovered.ofRole role)

theorem publicFunctions_header (prepared : Prepared) (recovered : Recovered) :
    (mainHeader prepared recovered).publicFunctions =
      (mainModule prepared recovered recovered.leading).publicFunctions :=
  congrArg (publicFunctionsOf prepared.protocol.name) recovered.forHeader_eq

/-! ## Where functions are shown -/

/-- A module shows its public functions with the lines above them. -/
theorem isInfix_publicFunctionLines {module : MainModule} {function : PublicFunction}
    (h : function ∈ module.publicFunctions) : publicFunctionLines function <:+: module.lines := by
  have hlines : module.publicFunctions.flatMap publicFunctionLines <:+: module.lines :=
    ⟨_, module.publicTrailing, rfl⟩
  exact (Text.isInfix_flatMap_of_mem h publicFunctionLines).trans hlines

/-- A header shows the comments and the declarations of its public functions. -/
theorem isInfix_declarationLines {header : MainHeader} {function : PublicFunction}
    (h : function ∈ header.publicFunctions) :
    MainHeader.declarationLines function <:+: header.lines := by
  have hlines : header.publicFunctions.flatMap MainHeader.declarationLines <:+: header.lines :=
    ⟨_, ["#endif // " ++ includeGuard (Naming.mainHeaderFile header.protocol)], rfl⟩
  exact (Text.isInfix_flatMap_of_mem h MainHeader.declarationLines).trans hlines

/-- A declaration stands in the text of its header. -/
theorem isInfix_text_of_mem_prototypes {header : MainHeader} {prototype : String}
    (h : prototype ∈ header.prototypes) : prototype.toList <:+: header.text.toList := by
  obtain ⟨function, hfunction, rfl⟩ := List.mem_map.mp h
  have hline : [function.prototype] <:+: header.lines :=
    List.IsInfix.trans ⟨function.doc, [""], by simp [MainHeader.declarationLines]⟩
      (isInfix_declarationLines hfunction)
  have htext := Text.unlines_isInfix hline
  rw [Text.toList_unlines, List.flatMap_singleton] at htext
  exact (List.prefix_append _ _).isInfix.trans htext

/-! ## All public functions -/

theorem forall_role_iff {p : Role → Prop} (role : Role) :
    (∀ role, p role) ↔ p role ∧ p role.other := by
  constructor
  · intro h
    exact ⟨h role, h role.other⟩
  · rintro ⟨hrole, hother⟩ other
    cases role <;> cases other <;> assumption

/-- The header of a run declares the public functions of the leading role, comments included.
It declares those of both modules exactly if the other module holds none with a prototype of
its own. -/
theorem prototypes_declared (prepared : Prepared) (recovered : Recovered) :
    ⟨Naming.mainHeaderFile prepared.protocol.name, (mainHeader prepared recovered).text⟩ ∈
      renderFirmware prepared recovered ∧
    (∀ role, ⟨Naming.mainSourceFile prepared.protocol.name role,
        (mainModule prepared recovered role).text⟩ ∈ renderFirmware prepared recovered ∧
      ∀ function ∈ (mainModule prepared recovered role).publicFunctions,
        publicFunctionLines function <:+: (mainModule prepared recovered role).lines) ∧
    (∀ function ∈ (mainModule prepared recovered recovered.leading).publicFunctions,
      MainHeader.declarationLines function <:+: (mainHeader prepared recovered).lines) ∧
    (∀ prototype ∈ (mainHeader prepared recovered).prototypes,
      prototype.toList <:+: (mainHeader prepared recovered).text.toList) ∧
    ((∀ role, ∀ function ∈ (mainModule prepared recovered role).publicFunctions,
        function.prototype ∈ (mainHeader prepared recovered).prototypes) ↔
      ∀ function ∈ (mainModule prepared recovered recovered.leading.other).publicFunctions,
        ∃ declared ∈ (mainModule prepared recovered recovered.leading).publicFunctions,
          declared.prototype = function.prototype) := by
  refine ⟨List.mem_cons_self, fun role => ⟨?_, fun _ => isInfix_publicFunctionLines⟩, ?_,
    fun _ => isInfix_text_of_mem_prototypes, ?_⟩
  · cases role <;> simp [renderFirmware, Role.both, mainModule]
  · rw [← publicFunctions_header]
    exact fun _ => isInfix_declarationLines
  · have hprototypes : (mainHeader prepared recovered).prototypes =
        (mainModule prepared recovered recovered.leading).publicFunctions.map (·.prototype) := by
      rw [MainHeader.prototypes, publicFunctions_header]
    rw [forall_role_iff recovered.leading, hprototypes]
    simp only [List.mem_map]
    exact and_iff_right fun function hfunction => ⟨function, hfunction, rfl⟩

/-- Without recovered code every public function is declared. -/
theorem fresh_prototypes_declared (prepared : Prepared) (role : Role) :
    ∀ function ∈ (mainModule prepared .none role).publicFunctions,
      function.prototype ∈ (mainHeader prepared .none).prototypes := by
  intro function hfunction
  have hsame : (mainModule prepared .none role).publicFunctions =
      (mainHeader prepared .none).publicFunctions := by
    cases role <;> rfl
  rw [hsame] at hfunction
  exact List.mem_map_of_mem hfunction

/-! ## Two recovered modules -/

private def wellPump : Protocol :=
  ⟨"Pump", 9, [⟨"Start", 1, .aToB, [], "slowly"⟩]⟩

/-- A module with a single function. -/
private def moduleOf (function : String) : List String :=
  ["// *** Definitions ***", "// *** Private Functions ***", "// *** Public Functions ***",
    function]

/-- What is recovered from a module with a single function on a line of its own. -/
private def codeOf (function : String) : RecoveredCode :=
  ⟨[], [], [], [], none, [], [⟨[], [], [function], [function]⟩], []⟩

private theorem recover_rate :
    recover "Pump" ["Start"] (Text.unlines (moduleOf r"int rate() { return 3; }")) =
      .ok (codeOf r"int rate() { return 3; }") := by
  rw [recover, Text.lines_unlines (by decide)]
  decide +kernel

private theorem recover_level :
    recover "Pump" ["Start"]
        (Text.unlines (moduleOf r"int level(int n[2]) { return n[0]; }")) =
      .ok (codeOf r"int level(int n[2]) { return n[0]; }") := by
  rw [recover, Text.lines_unlines (by decide)]
  decide +kernel

/-- What the earlier modules of both roles hold. -/
private def recoveredPump : Recovered :=
  ⟨some (codeOf r"int rate() { return 3; }"),
    some (codeOf r"int level(int n[2]) { return n[0]; }")⟩

/-- The header declares {lit}`rate` only, and nothing else in it holds a bracket. -/
private theorem avoids_headerPump :
    ∀ line ∈ (mainHeader (Prepared.ofProtocol wellPump) recoveredPump).lines,
      Avoids ['['] line := by
  decide +kernel

/-- A function that was recovered for role B is written into its module and not declared. -/
theorem not_declared_pump :
    prepare wellPump = .ok (Prepared.ofProtocol wellPump) ∧
    ∃ codeA codeB,
      recover "Pump" ["Start"] (Text.unlines (moduleOf r"int rate() { return 3; }")) =
        .ok codeA ∧
      recover "Pump" ["Start"]
          (Text.unlines (moduleOf r"int level(int n[2]) { return n[0]; }")) = .ok codeB ∧
      ∃ function ∈ (mainModule (Prepared.ofProtocol wellPump) ⟨codeA, codeB⟩ .b).publicFunctions,
        ¬function.prototype.toList <:+:
          (mainHeader (Prepared.ofProtocol wellPump) ⟨codeA, codeB⟩).text.toList := by
  refine ⟨rfl, _, _, recover_rate, recover_level, _, List.mem_cons_self, fun hpart => ?_⟩
  have hbracket : '[' ∈ (mainHeader (Prepared.ofProtocol wellPump) recoveredPump).text.toList :=
    hpart.subset (by decide +kernel)
  rw [MainHeader.text, Text.toList_unlines, List.mem_flatMap] at hbracket
  obtain ⟨line, hline, hmem⟩ := hbracket
  rcases List.mem_append.mp hmem with hmem | hmem
  · exact avoids_headerPump line hline '[' List.mem_cons_self hmem
  · simp at hmem

end CommandSet
