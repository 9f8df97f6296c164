import CommandSet.Firmware.MainModule
import CommandSet.Proofs.Firmware.Code

/-!
# Signatures of static functions

The functions that are generated for the private section are static, and their names can
be told apart by capitals that nothing else in their signatures holds.

Main definition:

- {lit}`IsSignature`: the opening line of a static function of some name.

Main results:

- Theorem {lit}`isSignature_dispatcher`, {lit}`isSignature_sender`,
  {lit}`isSignature_handler`: the three kinds of generated functions.
-/

namespace CommandSet
namespace Firmware

/-! ## Texts -/

theorem avoids_word {text : String} (h : IsWord text) : Avoids codeBreaks text :=
  h.avoids not_isNameRest_of_mem_codeBreaks

theorem isWord_payloadUnion {protocol : String} (h : IsName protocol) :
    IsWord (Naming.payloadUnion protocol) :=
  h.isWord.lower.append (.fixed rfl)

theorem avoids_payloadUnion {protocol : String} (h : IsName protocol) :
    Avoids codeBreaks (Naming.payloadUnion protocol) :=
  avoids_word (isWord_payloadUnion h)

theorem isWord_handlerName {protocol command : String} (hprotocol : IsName protocol)
    (hcommand : IsName command) : IsWord (handlerName protocol command) := by
  have hexecute : IsWord "Execute" := by simp [IsWord, IsNameRest, IsNameStart]
  exact (hprotocol.isWord.append hexecute).append hcommand.isWord

/-! ## Parts of signatures -/

/-- The parameters of a handler. -/
def handlerParameters (protocol : String) (cmd : Command) : String :=
  if cmd.hasAttributes then Naming.payloadUnion protocol ++ " *pCmdPayload)" else "void)"

theorem handlerSignature_eq (protocol : String) (cmd : Command) :
    handlerSignature protocol cmd =
      "static bool " ++
        (handlerName protocol cmd.name ++ ("(" ++ handlerParameters protocol cmd)) := by
  have hunfold : handlerSignature protocol cmd = "static bool " ++ handlerName protocol cmd.name ++
      if cmd.hasAttributes then "(" ++ Naming.payloadUnion protocol ++ " *pCmdPayload)"
        else "(void)" :=
    rfl
  rw [hunfold, handlerParameters, String.append_assoc]
  split
  · rw [String.append_assoc]
  · rfl

theorem senderSignature_eq (protocol : String) :
    senderSignature protocol =
      "static bool " ++
        (senderName protocol ++ ("(" ++ "uint_fast16_t cmdName, bool hasPayload)")) := by
  have hunfold : senderSignature protocol = "static bool " ++ senderName protocol ++
      "(uint_fast16_t cmdName, bool hasPayload)" := rfl
  rw [hunfold, String.append_assoc]
  rfl

theorem Dispatcher.signature_eq (protocol : String) :
    Dispatcher.signature protocol =
      "static bool " ++ (Dispatcher.name protocol ++ ("(" ++ ("uint_fast16_t cmdName, " ++
        (Naming.payloadUnion protocol ++ " *pCmdPayload)")))) := by
  have hunfold : Dispatcher.signature protocol = "static bool " ++ Dispatcher.name protocol ++
      "(uint_fast16_t cmdName, " ++ Naming.payloadUnion protocol ++ " *pCmdPayload)" := rfl
  have hparameters : "(uint_fast16_t cmdName, " = "(" ++ "uint_fast16_t cmdName, " := by decide
  rw [hunfold, hparameters]
  simp only [String.append_assoc]

/-- The signature of a handler holds names and what stands around them. -/
theorem avoids_signature {bad : List Char} (hword : ∀ c ∈ bad, ¬IsNameRest c)
    (hfixed : ∀ part ∈ ["static bool ", "(", " *pCmdPayload)", "void)"], Avoids bad part)
    {protocol : String} {cmd : Command} (hprotocol : IsName protocol) (hcmd : IsName cmd.name) :
    Avoids bad (handlerSignature protocol cmd) := by
  simp only [List.forall_mem_cons] at hfixed
  obtain ⟨hstatic, hopening, hpointer, hvoid, -⟩ := hfixed
  rw [handlerSignature_eq, handlerParameters, avoids_append, avoids_append, avoids_append]
  refine ⟨hstatic, (isWord_handlerName hprotocol hcmd).avoids hword, hopening, ?_⟩
  split
  · exact avoids_append.mpr ⟨(isWord_payloadUnion hprotocol).avoids hword, hpointer⟩
  · exact hvoid

theorem avoids_handlerSignature {protocol : String} {cmd : Command} (hprotocol : IsName protocol)
    (hcmd : IsName cmd.name) : Avoids codeBreaks (handlerSignature protocol cmd) :=
  avoids_signature not_isNameRest_of_mem_codeBreaks (by decide) hprotocol hcmd

theorem avoids_senderSignature {protocol : String} (h : IsName protocol) :
    Avoids codeBreaks (senderSignature protocol) := by
  rw [senderSignature_eq, senderName, avoids_append, avoids_append, avoids_append]
  exact ⟨.fixed rfl, ⟨avoids_word h.isWord, .fixed rfl⟩, by decide⟩

theorem avoids_dispatcherSignature {protocol : String} (h : IsName protocol) :
    Avoids codeBreaks (Dispatcher.signature protocol) := by
  rw [Dispatcher.signature_eq, Dispatcher.name]
  simp only [avoids_append]
  exact ⟨.fixed rfl, ⟨avoids_word h.isWord, .fixed rfl⟩, .fixed rfl, .fixed rfl,
    avoids_payloadUnion h, .fixed rfl⟩

/-! ## Names in signatures -/

/-- A name with a capital that a signature does not hold besides lies in the name of its
function. -/
theorem isInfix_functionName {pattern name tail : String} {capital : Char}
    (hword : IsWord pattern) (hcapital : capital ∈ pattern.toList)
    (hstatic : capital ∉ "static".toList ∧ capital ∉ "bool".toList) (htail : capital ∉ tail.toList)
    (h : pattern.toList <:+: ("static bool " ++ name ++ "(" ++ tail).toList) :
    pattern.toList <:+: name.toList := by
  have hblank : ' ' ∉ pattern.toList := fun hmem => absurd (hword _ hmem) (by decide)
  have hparen : '(' ∉ pattern.toList := fun hmem => absurd (hword _ hmem) (by decide)
  have hlist : ("static bool " ++ name ++ "(" ++ tail).toList =
      "static".toList ++ ' ' :: ("bool".toList ++ ' ' :: (name.toList ++ '(' :: tail.toList)) := by
    simp
  rw [hlist] at h
  rcases Text.isInfix_append_cons hblank h with h | h
  · exact absurd (h.subset hcapital) hstatic.1
  rcases Text.isInfix_append_cons hblank h with h | h
  · exact absurd (h.subset hcapital) hstatic.2
  rcases Text.isInfix_append_cons hparen h with h | h
  · exact h
  · exact absurd (h.subset hcapital) htail

/-- The line of a static function: its name, and its parameters without any of the capitals
that tell generated names apart. -/
structure IsSignature (name line : String) : Prop where
  split : ∃ tail, line = "static bool " ++ name ++ "(" ++ tail ∧ Avoids ['D', 'S', 'E'] tail

/-- A static function starts with a letter. -/
theorem IsSignature.head {name line : String} (h : IsSignature name line) :
    line.toList.head? = some 's' := by
  obtain ⟨tail, rfl, -⟩ := h.split
  simp only [String.toList_append, List.append_assoc]
  rfl

theorem IsSignature.text {name line : String} (h : IsSignature name line) :
    name.toList <:+: (String.intercalate "\n" [line]).toList := by
  obtain ⟨tail, rfl, -⟩ := h.split
  rw [String.intercalate_singleton]
  refine ⟨"static bool ".toList, ("(" ++ tail).toList, ?_⟩
  simp

/-- A name with one of these capitals lies in the name of the function. -/
theorem IsSignature.isInfix {name line pattern : String} (h : IsSignature name line)
    (hword : IsWord pattern) {capital : Char} (hcapital : capital ∈ ['D', 'S', 'E'])
    (hmem : capital ∈ pattern.toList)
    (hpattern : pattern.toList <:+: (String.intercalate "\n" [line]).toList) :
    pattern.toList <:+: name.toList := by
  obtain ⟨tail, rfl, htail⟩ := h.split
  rw [String.intercalate_singleton] at hpattern
  have hstatic : ∀ c ∈ ['D', 'S', 'E'], c ∉ "static".toList ∧ c ∉ "bool".toList := by simp
  exact isInfix_functionName hword hmem (hstatic capital hcapital) (htail capital hcapital) hpattern

private theorem isSignature_opening {name tail : String} (h : Avoids ['D', 'S', 'E'] tail) :
    IsSignature name (opening ("static bool " ++ (name ++ ("(" ++ tail)))) where
  split := by
    refine ⟨tail ++ r" {", ?_, ?_⟩
    · simp only [opening, String.append_assoc]
    · rw [avoids_append]
      exact ⟨h, .fixed rfl⟩

theorem avoids_capitals_payloadUnion {protocol : String} (h : IsName protocol) :
    Avoids ['D', 'S', 'E'] (Naming.payloadUnion protocol) := by
  rw [Naming.payloadUnion, avoids_append]
  refine ⟨fun c hc => h.isWord.capital_not_mem_lower ?_, .fixed rfl⟩
  have hupper : ∀ c ∈ ['D', 'S', 'E'], c.isUpper = true := by simp
  exact hupper c hc

theorem isSignature_dispatcher {protocol : String} (h : IsName protocol) :
    IsSignature (Dispatcher.name protocol) (opening (Dispatcher.signature protocol)) := by
  rw [Dispatcher.signature_eq]
  refine isSignature_opening ?_
  rw [avoids_append, avoids_append]
  exact ⟨.fixed rfl, avoids_capitals_payloadUnion h, .fixed rfl⟩

theorem isSignature_sender (protocol : String) :
    IsSignature (senderName protocol) (opening (senderSignature protocol)) := by
  rw [senderSignature_eq]
  exact isSignature_opening (.fixed rfl)

theorem isSignature_handler {protocol : String} (h : IsName protocol) (cmd : Command) :
    IsSignature (handlerName protocol cmd.name) (opening (handlerSignature protocol cmd)) := by
  rw [handlerSignature_eq]
  refine isSignature_opening ?_
  rw [handlerParameters]
  split
  · rw [avoids_append]
    exact ⟨avoids_capitals_payloadUnion h, .fixed rfl⟩
  · decide

end Firmware
end CommandSet
