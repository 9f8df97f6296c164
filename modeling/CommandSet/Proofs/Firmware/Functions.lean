import CommandSet.Proofs.Firmware.Comments
import CommandSet.Proofs.Firmware.Handlers
import CommandSet.Proofs.Recovery.Fallbacks

/-!
# Generated functions

Every generated function of a main module is a comment that waits for it, a line that
opens it and generated code down to its closing brace, so a scan finds it as it was
written.

Main definitions:

- {lit}`generatedFunction`: a comment, a signature and the lines inside of the braces.
- {lit}`senderFunction`, {lit}`stubFunction`, {lit}`Dispatcher.function`: the functions of the
  private section.

Main results:

- Theorem {lit}`framed_generated`: a comment, a signature and balanced lines are a framed
  function.
- Theorem {lit}`legible_sender`, {lit}`legible_handler`, {lit}`legible_dispatcher`: they are
  found in the private section.
- Theorem {lit}`fallbackOf_dispatcher`: the fallback of a dispatcher is read back.
-/

namespace CommandSet
namespace Firmware

open Recovery
open Text (IsLine)

/-! ## Functions -/

/-- A comment, a signature and balanced lines up to a closing brace are a function that a
scan finds. -/
theorem framed_generated {stop : String → Bool} {doc middle : List String} {signature : String}
    (hdoc : ∀ l ∈ doc, DocLine l) (hdocStop : ∀ l ∈ doc, stop l = false)
    (hsignature : Avoids codeBreaks signature) (hstop : stop (opening signature) = false)
    (hmiddle : Balanced middle) :
    Framed stop ⟨[], doc, [opening signature], opening signature :: (middle ++ [closing])⟩ := by
  have hzero : opening signature = indent 0 (opening signature) := (indent_zero _).symm
  have hclosing : closing = indent 0 closing := by decide
  have hrest : Descends 1 (middle ++ [closing]) 0 := by
    refine (hmiddle.descends 0).append (.cons (by decide) ?_ (.nil 0))
    rw [hclosing]
    exact depthAfter_closing 0 0
  refine framed_of_doc (fun l hl => (hdoc l hl).waits (hdocStop l hl))
    (fun l hl => (hdoc l hl).comment) hstop ?_ ?_ hrest
  · rw [hzero]
    exact mem_codePart_opening hsignature
  · rw [hzero]
    exact depthAfter_opening hsignature 0

/-- A generated function: its comment, its signature and the lines inside its braces. -/
def generatedFunction (doc : DocBlock) (signature : String) (middle : List String) :
    FoundFunction :=
  ⟨[], doc.lines, [opening signature], opening signature :: (middle ++ [closing])⟩

/-- A generated function of one-line parts is made of lines. -/
theorem isLine_generatedFunction {doc : DocBlock} {signature : String} {middle : List String}
    (hdoc : doc.Fits) (hsignature : Avoids codeBreaks signature)
    (hmiddle : ∀ line ∈ middle, IsLine line) :
    ∀ line ∈ (generatedFunction doc signature middle).text, IsLine line := by
  have hopening : IsLine (opening signature) := by
    rw [← indent_zero (opening signature)]
    exact isLine_opening hsignature
  have hclosing : IsLine closing := by
    rw [← indent_zero closing]
    exact isLine_closing 0
  simp only [FoundFunction.text, generatedFunction, List.nil_append, List.forall_mem_append,
    List.forall_mem_cons, List.not_mem_nil, false_implies, implies_true, and_true]
  exact ⟨fun line hline => (hdoc.docLine line hline).isLine, hopening, hmiddle, hclosing⟩

/-- A generated function can be written and found again. -/
theorem legible_generated {stop : String → Bool} {doc : DocBlock} {signature : String}
    {middle : List String} (hdoc : doc.Fits) (hdocStop : ∀ l ∈ doc.lines, stop l = false)
    (hsignature : Avoids codeBreaks signature) (hstop : stop (opening signature) = false)
    (hmiddle : Balanced middle) (hlines : ∀ line ∈ middle, IsLine line) :
    Legible stop (generatedFunction doc signature middle) where
  framed := framed_generated hdoc.docLine hdocStop hsignature hstop hmiddle
  lines := isLine_generatedFunction hdoc hsignature hlines

/-- Static functions are found in the private section. -/
theorem legible_static {doc : DocBlock} {name signature : String} {middle : List String}
    (hdoc : doc.Fits) (hstatic : IsSignature name (opening signature))
    (hsignature : Avoids codeBreaks signature) (hmiddle : Balanced middle)
    (hlines : ∀ line ∈ middle, IsLine line) (marker : Marker) :
    Legible marker.isOn (generatedFunction doc signature middle) := by
  have hhead : (trimmed (opening signature)).head? = some 's' :=
    head?_trimmed hstatic.head (by decide)
  have hstop : marker.isOn (opening signature) = false :=
    isOn_eq_false (by rw [hhead]; simp) marker
  exact legible_generated hdoc (fun l hl => (hdoc.docLine l hl).marker marker) hsignature hstop
    hmiddle hlines

/-! ## The sender -/

theorem avoids_successResult : Avoids lineBreaks successResult := by
  decide

/-- Comments of fixed texts and names fit their lines. -/
theorem fits_fixed {signature brief : String} {params : List (String × String)}
    (hsignature : Avoids lineBreaks signature) (hbrief : Avoids lineBreaks brief)
    (hne : brief.toList ≠ [])
    (hparams : ∀ param ∈ params, Avoids lineBreaks param.1 ∧ Avoids lineBreaks param.2) :
    DocBlock.Fits ⟨signature, brief, params, successResult⟩ where
  signature := hsignature
  brief_opens := hbrief _ (by decide)
  brief_closes := hbrief _ (by decide)
  brief := isLine_of_avoids hbrief
  brief_ne := hne
  params := hparams
  result := avoids_successResult

/-- The comment above the sender. -/
def senderDoc (protocol : String) : DocBlock :=
  ⟨senderSignature protocol, "Encode and send a command",
    [("cmdName", "name of the command to send"),
      ("hasPayload", "whether the command carries the send payload")],
    successResult⟩

/-- The lines inside the braces of the sender. -/
def senderMiddle (protocol : String) : List String :=
  [indent 1 (opening ("if (cmdName >= " ++ Naming.commandCount protocol ++ ")")),
    indent 2 "return false;", indent 1 closing,
    indent 1 (Naming.payloadUnion protocol ++ " *pCmdPayload = NULL;"),
    indent 1 (opening "if (hasPayload)"),
    indent 2 ("pCmdPayload = &" ++ protocol ++ "Info.sendCmdPayload;"), indent 1 closing,
    indent 1
      ("int msgSize = LCSF_Bridge_" ++ protocol ++ "Encode(cmdName, pCmdPayload, " ++ protocol ++
        "Info.pSendBuffer, " ++ protocol ++ "Info.sendBufferSize);"),
    indent 1 (opening "if (msgSize <= 0)"), indent 2 "return false;", indent 1 closing,
    indent 1
      ("return LCSF_TranscoderSend(" ++ protocol ++ "Info.pSendBuffer, (size_t)msgSize);")]

/-- The sender as a function. -/
def senderFunction (protocol : String) : FoundFunction :=
  generatedFunction (senderDoc protocol) (senderSignature protocol) (senderMiddle protocol)

theorem senderLines_eq (protocol : String) :
    senderLines protocol = (senderFunction protocol).text ++ [""] := by
  simp [senderLines, senderFunction, senderDoc, senderMiddle, generatedFunction, FoundFunction.text]

theorem code_senderMiddle {protocol : String} (h : IsName protocol) :
    Code (senderMiddle protocol) := by
  have hprotocol := avoids_word h.isWord
  have hcount : Avoids codeBreaks (Naming.commandCount protocol) := by
    rw [Naming.commandCount, avoids_append]
    exact ⟨avoids_word h.isWord.upper, .fixed rfl⟩
  have hreturn : Code [indent 2 "return false;"] := .line (by decide) .nil
  have hload : Code [indent 2 ("pCmdPayload = &" ++ protocol ++ "Info.sendCmdPayload;")] := by
    refine .line (avoids_lineBreaks ?_) .nil
    simp only [avoids_indent (by decide : ' ' ∉ codeBreaks), avoids_append]
    exact ⟨⟨.fixed rfl, hprotocol⟩, .fixed rfl⟩
  have hguard : Avoids codeBreaks ("if (cmdName >= " ++ Naming.commandCount protocol ++ ")") := by
    simp only [avoids_append]
    exact ⟨⟨.fixed rfl, hcount⟩, .fixed rfl⟩
  refine .block 1 hguard hreturn (.line (avoids_lineBreaks ?_) (.block 1 (.fixed rfl) hload
    (.line (avoids_lineBreaks ?_)
      (.block 1 (.fixed rfl) hreturn (.line (avoids_lineBreaks ?_) .nil)))))
  · simp only [avoids_indent (by decide : ' ' ∉ codeBreaks), avoids_append]
    exact ⟨avoids_payloadUnion h, .fixed rfl⟩
  · simp only [avoids_indent (by decide : ' ' ∉ codeBreaks), avoids_append]
    exact ⟨⟨⟨⟨⟨⟨.fixed rfl, hprotocol⟩, .fixed rfl⟩, hprotocol⟩, .fixed rfl⟩, hprotocol⟩,
      .fixed rfl⟩
  · simp only [avoids_indent (by decide : ' ' ∉ codeBreaks), avoids_append]
    exact ⟨⟨.fixed rfl, hprotocol⟩, .fixed rfl⟩

/-- The sender is found in the private section. -/
theorem legible_sender {protocol : String} (h : IsName protocol) (marker : Marker) :
    Legible marker.isOn (senderFunction protocol) := by
  have hsignature := avoids_senderSignature h
  have hdoc : (senderDoc protocol).Fits :=
    fits_fixed (avoids_lineBreaks hsignature) (by decide) (by decide) (by decide)
  have hmiddle := code_senderMiddle h
  exact legible_static hdoc (isSignature_sender protocol) hsignature hmiddle.balanced hmiddle.isLine
    marker

/-! ## Handlers -/

/-- Descriptions that a comment can show: without braces and newlines. -/
structure Showable (description : String) : Prop where
  opens : '{' ∉ description.toList
  closes : '}' ∉ description.toList
  newline : '\n' ∉ description.toList

instance (description : String) : Decidable (Showable description) :=
  decidable_of_iff
    ('{' ∉ description.toList ∧ '}' ∉ description.toList ∧ '\n' ∉ description.toList)
    ⟨fun h => ⟨h.1, h.2.1, h.2.2⟩, fun h => ⟨h.opens, h.closes, h.newline⟩⟩

theorem fits_handlerDoc {protocol : String} {cmd : Command} (hprotocol : IsName protocol)
    (hcmd : IsName cmd.name) (hdescription : Showable cmd.description) :
    (Handler.docOf protocol cmd).Fits := by
  have hname := avoids_lineBreaks (avoids_word hcmd.isWord)
  have hstart : Avoids lineBreaks ("Execute command " ++ cmd.name) :=
    avoids_append.mpr ⟨.fixed rfl, hname⟩
  have hsignature := avoids_lineBreaks (avoids_handlerSignature hprotocol hcmd)
  have hparams : ∀ param ∈
      (if cmd.hasAttributes then [("pCmdPayload", "pointer to command payload")]
      else []), Avoids lineBreaks param.1 ∧ Avoids lineBreaks param.2 := by
    split <;> decide
  rw [Handler.docOf]
  cases hempty : cmd.description.isEmpty with
  | true =>
      have hbrief : Avoids lineBreaks ("Execute command " ++ cmd.name ++ "") :=
        avoids_append.mpr ⟨hstart, .fixed rfl⟩
      exact fits_fixed hsignature hbrief (by simp) hparams
  | false =>
      have hopens := hstart _ (by decide : '{' ∈ lineBreaks)
      have hcloses := hstart _ (by decide : '}' ∈ lineBreaks)
      have hnewline := hstart _ (by decide : '\n' ∈ lineBreaks)
      have hlist : ("Execute command " ++ cmd.name ++ (" (" ++ cmd.description ++ ")")) =
          "Execute command " ++ cmd.name ++ " (" ++ cmd.description ++ ")" := by
        rw [← String.append_assoc, ← String.append_assoc]
      have hline : IsLine ("Execute command " ++ cmd.name ++ " (" ++ cmd.description ++ ")") := by
        refine isLine_append ?_ ⟨by decide, by decide⟩ (by decide)
        simp only [String.toList_append, List.mem_append, not_or] at hnewline ⊢
        exact ⟨⟨hnewline, by decide⟩, hdescription.newline⟩
      rw [← hlist] at hline
      refine ⟨hsignature, ?_, ?_, hline, by simp, hparams, avoids_successResult⟩
      · simp only [Bool.false_eq_true, if_false, String.toList_append, List.mem_append, not_or]
          at hopens ⊢
        exact ⟨hopens, ⟨by decide, hdescription.opens⟩, by decide⟩
      · simp only [Bool.false_eq_true, if_false, String.toList_append, List.mem_append, not_or]
          at hcloses ⊢
        exact ⟨hcloses, ⟨by decide, hdescription.closes⟩, by decide⟩

/-- A fresh handler as a function. -/
def stubFunction (protocol : String) (cmd : Command) (middle : List String) : FoundFunction :=
  generatedFunction (Handler.docOf protocol cmd) (handlerSignature protocol cmd) middle

/-- A handler with its signature and balanced lines is found in the private section. -/
theorem legible_handler {protocol : String} {cmd : Command} {middle : List String}
    (hprotocol : IsName protocol) (hcmd : IsName cmd.name) (hdescription : Showable cmd.description)
    (hmiddle : Balanced middle) (hlines : ∀ line ∈ middle, IsLine line) (marker : Marker) :
    Legible marker.isOn (stubFunction protocol cmd middle) :=
  legible_static (fits_handlerDoc hprotocol hcmd hdescription) (isSignature_handler hprotocol cmd)
    (avoids_handlerSignature hprotocol hcmd) hmiddle hlines marker

/-- A fresh handler is legible. -/
theorem legible_stub {protocol : String} {cmd : Command} (hprotocol : IsName protocol)
    (hcmd : IsName cmd.name) (hnames : ∀ att ∈ Attribute.forest cmd.attributes, IsName att.name)
    (hdescription : Showable cmd.description) (marker : Marker) :
    Legible marker.isOn (stubFunction protocol cmd (Handler.stubMiddle protocol cmd)) := by
  have hmiddle := Handler.code_stubMiddle hprotocol hcmd hnames
  exact legible_handler hprotocol hcmd hdescription hmiddle.balanced hmiddle.isLine marker

/-! ## The dispatcher -/

namespace Dispatcher

/-- The comment above the dispatcher. -/
def doc (protocol : String) : DocBlock :=
  ⟨signature protocol, "Dispatch a received command to its handler",
    [("cmdName", "name of the received command"), ("pCmdPayload", "pointer to command payload")],
    successResult⟩

/-- The lines of the dispatcher in front of its fallback. -/
def front (dispatcher : Dispatcher) : List String :=
  [indent 1 "bool ret = false;", "", indent 1 (opening "switch (cmdName)")] ++
    dispatcher.cases.flatMap DispatchCase.lines

/-- The lines inside the braces of the dispatcher. -/
def middle (dispatcher : Dispatcher) : List String :=
  dispatcher.front ++ indent 2 "default:" :: (dispatcher.fallback ++
    [indent 3 "break;", indent 1 closing, indent 1 "return ret;"])

/-- The dispatcher as a function. -/
def function (dispatcher : Dispatcher) : FoundFunction :=
  generatedFunction (doc dispatcher.protocol) (signature dispatcher.protocol) dispatcher.middle

theorem lines_eq (dispatcher : Dispatcher) :
    dispatcher.lines = dispatcher.function.text ++ [""] := by
  simp [lines, function, doc, middle, front, generatedFunction, FoundFunction.text]

end Dispatcher

/-- The cases of a dispatcher are generated code. -/
theorem code_dispatchCase {protocol : String} {cmd : Command} (hprotocol : IsName protocol)
    (hcmd : IsName cmd.name) : Code (DispatchCase.ofCommand protocol cmd).lines := by
  have hordinal : Avoids codeBreaks (Naming.commandOrdinal protocol cmd.name) := by
    simp only [Naming.commandOrdinal, avoids_append]
    exact ⟨⟨avoids_word hprotocol.isWord.upper, .fixed rfl⟩, avoids_word hcmd.isWord.upper⟩
  have hcall : Avoids codeBreaks (DispatchCase.ofCommand protocol cmd).call := by
    rw [DispatchCase.ofCommand, avoids_append]
    refine ⟨avoids_word (isWord_handlerName hprotocol hcmd), ?_⟩
    split <;> decide
  refine .line (avoids_lineBreaks ?_) (.line (avoids_lineBreaks ?_) (.line (by decide)
    (.line (.fixed rfl) .nil)))
  · simp only [avoids_indent (by decide : ' ' ∉ codeBreaks), avoids_append]
    exact ⟨⟨.fixed rfl, hordinal⟩, .fixed rfl⟩
  · simp only [avoids_indent (by decide : ' ' ∉ codeBreaks), avoids_append]
    exact ⟨⟨.fixed rfl, hcall⟩, .fixed rfl⟩

theorem code_dispatchCases {protocol : String} {cmds : List Command} (hprotocol : IsName protocol)
    (hcmds : ∀ cmd ∈ cmds, IsName cmd.name) :
    Code ((cmds.map (DispatchCase.ofCommand protocol)).flatMap DispatchCase.lines) := by
  induction cmds with
  | nil => exact .nil
  | cons cmd cmds ih =>
      rw [List.forall_mem_cons] at hcmds
      rw [List.map_cons, List.flatMap_cons]
      exact (code_dispatchCase hprotocol hcmds.1).append (ih hcmds.2)

/-- A dispatcher with a balanced fallback is balanced. -/
theorem balanced_dispatcher {dispatcher : Dispatcher}
    (hcases : Code (dispatcher.cases.flatMap DispatchCase.lines))
    (hfallback : Balanced dispatcher.fallback) : Balanced dispatcher.middle := by
  have hline {text : String} (h : Avoids lineBreaks text) : Balanced [text] :=
    .cons (depthAfter_line h 0) .nil
  have hinner : Balanced (dispatcher.cases.flatMap DispatchCase.lines ++
      (indent 2 "default:" :: (dispatcher.fallback ++ [indent 3 "break;"]))) := by
    refine hcases.balanced.append ?_
    exact (hline (by decide : Avoids lineBreaks (indent 2 "default:"))).append
      (hfallback.append (hline (by decide)))
  have hswitch : Balanced (indent 1 (opening "switch (cmdName)") :: _) :=
    .block (depthAfter_opening (.fixed rfl) 0) hinner (depthAfter_closing 1 0)
  have hbefore : Balanced [indent 1 "bool ret = false;", ""] :=
    (hline (by decide : Avoids lineBreaks (indent 1 "bool ret = false;"))).append
      (hline (.fixed rfl))
  have hafter : Balanced [indent 1 "return ret;"] := hline (by decide)
  have hall := hbefore.append (hswitch.append hafter)
  simpa [Dispatcher.middle, Dispatcher.front] using hall

theorem isLine_dispatcher {dispatcher : Dispatcher}
    (hcases : Code (dispatcher.cases.flatMap DispatchCase.lines))
    (hfallback : ∀ line ∈ dispatcher.fallback, IsLine line) :
    ∀ line ∈ dispatcher.middle, IsLine line := by
  have hfixed {text : String} (h : Avoids lineBreaks text) : IsLine text := isLine_of_avoids h
  simp only [Dispatcher.middle, Dispatcher.front, List.forall_mem_append, List.forall_mem_cons,
    List.not_mem_nil, false_implies, implies_true, and_true]
  exact ⟨⟨⟨hfixed (by decide), hfixed (by decide), isLine_opening (by decide)⟩, hcases.isLine⟩,
    hfixed (by decide), hfallback, hfixed (by decide), isLine_closing 1, hfixed (by decide)⟩

/-- The dispatcher is found in the private section. -/
theorem legible_dispatcher {dispatcher : Dispatcher} (hprotocol : IsName dispatcher.protocol)
    (hcases : Code (dispatcher.cases.flatMap DispatchCase.lines))
    (hfallback : Balanced dispatcher.fallback) (hlines : ∀ line ∈ dispatcher.fallback, IsLine line)
    (marker : Marker) :
    Legible marker.isOn dispatcher.function := by
  have hsignature := avoids_dispatcherSignature hprotocol
  have hdoc : (Dispatcher.doc dispatcher.protocol).Fits :=
    fits_fixed (avoids_lineBreaks hsignature) (by decide) (by decide) (by decide)
  exact legible_static hdoc (isSignature_dispatcher hprotocol) hsignature
    (balanced_dispatcher hcases hfallback) (isLine_dispatcher hcases hlines) marker

theorem not_isDefault {level : Nat} {text : String} {c : Char} (h : text.toList.head? = some c)
    (hblank : Text.isBlank c = false) (hc : c ≠ 'd') : ¬IsDefault (indent level text) := by
  have hhead := head?_trimmed h hblank
  rw [IsDefault, trimmed_indent]
  rintro ⟨rest, hmatch⟩
  rw [← hmatch] at hhead
  exact hc (Option.some.inj hhead).symm

/-- No case of a dispatcher starts like its fallback. -/
theorem not_isDefault_of_mem_case {c : DispatchCase} {line : String} (h : line ∈ c.lines) :
    ¬IsDefault line := by
  simp only [DispatchCase.lines, List.mem_cons, List.not_mem_nil, or_false] at h
  rcases h with rfl | rfl | rfl | rfl
  · exact not_isDefault (c := 'c') (by simp only [String.toList_append]; rfl) (by decide)
      (by decide)
  · exact not_isDefault (c := 'r') (by simp only [String.toList_append]; rfl) (by decide)
      (by decide)
  · exact not_isDefault (c := 'b') rfl (by decide) (by decide)
  · rw [IsDefault]
    decide

/-- The fallback of a generated dispatcher is read back. -/
theorem fallbackOf_dispatcher {dispatcher : Dispatcher} (hprotocol : IsName dispatcher.protocol)
    (hfallback : Balanced dispatcher.fallback) (hinside : BreaksInside dispatcher.fallback) :
    fallbackOf dispatcher.function.body = some dispatcher.fallback := by
  have hlines : dispatcher.function.body =
      (opening (Dispatcher.signature dispatcher.protocol) :: dispatcher.front) ++
        indent 2 "default:" :: (dispatcher.fallback ++ indent 3 "break;" ::
          [indent 1 closing, indent 1 "return ret;", closing]) := by
    simp [Dispatcher.function, generatedFunction, Dispatcher.middle]
  rw [hlines]
  refine fallbackOf_append ?_ ?_ ?_ hfallback hinside ?_
  · have hsignature := (isSignature_dispatcher hprotocol).head
    rw [Dispatcher.front, List.forall_mem_cons, List.forall_mem_append, ← indent_zero (opening _)]
    refine ⟨not_isDefault hsignature (by decide) (by decide), ?_, ?_⟩
    · rw [List.forall_mem_cons, List.forall_mem_cons, List.forall_mem_singleton]
      exact ⟨not_isDefault (c := 'b') rfl (by decide) (by decide), by rw [IsDefault]; decide,
        not_isDefault (c := 's') rfl (by decide) (by decide)⟩
    · intro line hline
      rcases List.mem_flatMap.mp hline with ⟨c, -, hc⟩
      exact not_isDefault_of_mem_case hc
  · rw [IsDefault]
    decide
  · decide
  · rw [IsBreak]
    decide

/-! ## Public functions -/

/-- A generated function is found in the public section. -/
theorem legible_public {doc : DocBlock} {signature : String} {middle : List String}
    (hdoc : doc.Fits) (hsignature : Avoids codeBreaks signature) (hmiddle : Code middle) :
    Legible (fun _ => false) (generatedFunction doc signature middle) :=
  legible_generated hdoc (fun _ _ => rfl) hsignature rfl hmiddle.balanced hmiddle.isLine

theorem avoids_initSignature {protocol : String} (h : IsName protocol) :
    Avoids codeBreaks (initSignature protocol) := by
  simp only [initSignature, avoids_append]
  exact ⟨⟨.fixed rfl, avoids_word h.isWord⟩, .fixed rfl⟩

theorem avoids_executeSignature {protocol : String} (h : IsName protocol) :
    Avoids codeBreaks (executeSignature protocol) := by
  simp only [executeSignature, avoids_append]
  exact ⟨⟨⟨⟨.fixed rfl, avoids_word h.isWord⟩, .fixed rfl⟩, avoids_payloadUnion h⟩, .fixed rfl⟩

/-- The lines inside the braces of the initialisation. -/
def initMiddle (protocol : String) : List String :=
  [indent 1 (opening "if (pSendBuffer == NULL)"), indent 2 "return false;", indent 1 closing,
    indent 1 (protocol ++ "Info.pSendBuffer = pSendBuffer;"),
    indent 1 (protocol ++ "Info.sendBufferSize = sendBufferSize;"), indent 1 "return true;"]

theorem code_initMiddle {protocol : String} (h : IsName protocol) : Code (initMiddle protocol) := by
  have hreturn : Code [indent 2 "return false;"] := .line (by decide) .nil
  have hassign {text : String} (htext : Avoids codeBreaks text) :
      Avoids lineBreaks (indent 1 (protocol ++ text)) := by
    refine avoids_lineBreaks ?_
    rw [avoids_indent (by decide), avoids_append]
    exact ⟨avoids_word h.isWord, htext⟩
  exact .block 1 (by decide) hreturn (.line (hassign (by decide)) (.line (hassign (by decide))
    (.line (by decide) .nil)))

/-- The public functions of a fresh module are generated functions. -/
theorem exists_legible_defaultPublicFunctions {protocol : String} (h : IsName protocol) :
    ∀ function ∈ defaultPublicFunctions protocol,
      ∃ found, Legible (fun _ => false) found ∧ PublicFunction.ofFound found = function := by
  have hinitDoc : DocBlock.Fits ⟨initSignature protocol, "Initialize the " ++ protocol ++ " module",
      [("pSendBuffer", "pointer to the send buffer"),
        ("sendBufferSize", "size of the send buffer")],
      successResult⟩ := by
    refine fits_fixed (avoids_lineBreaks (avoids_initSignature h)) ?_ (by simp) (by decide)
    simp only [avoids_append]
    exact ⟨⟨by decide, avoids_lineBreaks (avoids_word h.isWord)⟩, by decide⟩
  have hexecuteDoc : DocBlock.Fits ⟨executeSignature protocol,
      "Execute a " ++ protocol ++ " command",
      [("cmdName", "name of the command"), ("pCmdPayload", "pointer to command payload")],
      successResult⟩ := by
    refine fits_fixed (avoids_lineBreaks (avoids_executeSignature h)) ?_ (by simp) (by decide)
    simp only [avoids_append]
    exact ⟨⟨.fixed rfl, avoids_lineBreaks (avoids_word h.isWord)⟩, .fixed rfl⟩
  have hexecute : Code
      [indent 1 ("return " ++ Dispatcher.name protocol ++ "(cmdName, pCmdPayload);")] := by
    refine .line (avoids_lineBreaks ?_) .nil
    simp only [avoids_indent (by decide : ' ' ∉ codeBreaks), Dispatcher.name, avoids_append]
    exact ⟨⟨.fixed rfl, avoids_word h.isWord, .fixed rfl⟩, .fixed rfl⟩
  rw [defaultPublicFunctions, List.forall_mem_cons, List.forall_mem_singleton]
  exact ⟨⟨_, legible_public hinitDoc (avoids_initSignature h) (code_initMiddle h), rfl⟩,
    ⟨_, legible_public hexecuteDoc (avoids_executeSignature h) hexecute, rfl⟩⟩

end Firmware
end CommandSet
