import CommandSet.Firmware.Handler
import CommandSet.Prepared
import CommandSet.Recovery.Code

/-!
# The main module of a role

The main module holds what is written by hand: a handler for every received
command, the dispatcher that calls them, and the public functions.  Each function
is a comment block, the function itself and a blank line, which is the shape that
recovery splits on.  What was recovered from an earlier module takes the place of
what a fresh module would hold.

Main definitions:

- {lit}`Dispatcher`: the function that selects a handler.
- {lit}`defaultPublicFunctions`: the public functions of a fresh module.
- {lit}`MainModule`, {lit}`MainModule.build`: a module and its making.
- {lit}`MainModule.lines`: its text.
-/

namespace CommandSet
namespace Firmware

open Recovery (PublicFunction RecoveredCode)
open Text (lower)

/-! ## The sections before the functions -/

/-- The includes of a fresh module. -/
def defaultIncludes (protocol : String) (role : Role) : List String :=
  banner (Naming.mainSourceFile protocol role)
      (protocol ++ " protocol module (" ++ role.label ++ ")") ++
    ["// *** Libraries include ***", "// Standard lib", "#include <string.h>", "// Custom lib",
      "#include <lib_lcsf/lcsf_transcoder.h>",
      "#include \"" ++ Naming.bridgeHeaderFile protocol ++ "\"",
      "#include \"" ++ Naming.mainHeaderFile protocol ++ "\"", ""]

/-- The definitions of a fresh module. -/
def defaultDefinitions (protocol : String) : List String :=
  ["// --- Private Types ---", opening ("typedef struct _" ++ lower protocol ++ "_info"),
    indent 1 "uint8_t *pSendBuffer;", indent 1 "size_t sendBufferSize;",
    indent 1 (Naming.payloadUnion protocol ++ " sendCmdPayload;"),
    closing ++ " " ++ lower protocol ++ "_info_t;", "", "// --- Private Variables ---",
    "static " ++ lower protocol ++ "_info_t " ++ protocol ++ "Info;", ""]

/-! ## The sender -/

/-- The name of the function that sends a command. -/
def senderName (protocol : String) : String :=
  protocol ++ "SendCommand"

/-- The signature of the function that sends a command. -/
def senderSignature (protocol : String) : String :=
  "static bool " ++ senderName protocol ++ "(uint_fast16_t cmdName, bool hasPayload)"

/-- The function that sends a command, with the blank line after it. -/
def senderLines (protocol : String) : List String :=
  DocBlock.lines
      ⟨senderSignature protocol, "Encode and send a command",
        [("cmdName", "name of the command to send"),
          ("hasPayload", "whether the command carries the send payload")],
        successResult⟩ ++
    [opening (senderSignature protocol),
      indent 1 (opening ("if (cmdName >= " ++ Naming.commandCount protocol ++ ")")),
      indent 2 "return false;", indent 1 closing,
      indent 1 (Naming.payloadUnion protocol ++ " *pCmdPayload = NULL;"),
      indent 1 (opening "if (hasPayload)"),
      indent 2 ("pCmdPayload = &" ++ protocol ++ "Info.sendCmdPayload;"), indent 1 closing,
      indent 1
        ("int msgSize = LCSF_Bridge_" ++ protocol ++ "Encode(cmdName, pCmdPayload, " ++ protocol ++
          "Info.pSendBuffer, " ++ protocol ++ "Info.sendBufferSize);"),
      indent 1 (opening "if (msgSize <= 0)"), indent 2 "return false;", indent 1 closing,
      indent 1
        ("return LCSF_TranscoderSend(" ++ protocol ++ "Info.pSendBuffer, (size_t)msgSize);"),
      closing, ""]

/-! ## The dispatcher -/

/-- The call of a handler for a received command. -/
structure DispatchCase where
  ordinal : String
  call : String
deriving Repr, DecidableEq

/-- The case of a command. -/
def DispatchCase.ofCommand (protocol : String) (cmd : Command) : DispatchCase :=
  { ordinal := Naming.commandOrdinal protocol cmd.name
    call :=
      handlerName protocol cmd.name ++ if cmd.hasAttributes then "(pCmdPayload)" else "()" }

/-- The lines of a case, with the blank line after it. -/
def DispatchCase.lines (c : DispatchCase) : List String :=
  [indent 2 ("case " ++ c.ordinal ++ ":"), indent 3 ("ret = " ++ c.call ++ ";"),
    indent 3 "break;", ""]

/-- The function that selects the handler of a received command. -/
structure Dispatcher where
  protocol : String
  cases : List DispatchCase
  /-- Lines for commands without a handler. -/
  fallback : List String
deriving Repr, DecidableEq

/-- The fallback of a fresh dispatcher. -/
def defaultFallback : List String :=
  ["            // Custom code"]

namespace Dispatcher

/-- The name of the dispatcher. -/
def name (protocol : String) : String :=
  protocol ++ "DispatchCommand"

/-- The signature of the dispatcher. -/
def signature (protocol : String) : String :=
  "static bool " ++ name protocol ++ "(uint_fast16_t cmdName, " ++
    Naming.payloadUnion protocol ++ " *pCmdPayload)"

/-- The dispatcher's text, with the blank line after it. -/
def lines (dispatcher : Dispatcher) : List String :=
  DocBlock.lines
      ⟨signature dispatcher.protocol, "Dispatch a received command to its handler",
        [("cmdName", "name of the received command"),
          ("pCmdPayload", "pointer to command payload")],
        successResult⟩ ++
    [opening (signature dispatcher.protocol), indent 1 "bool ret = false;", "",
      indent 1 (opening "switch (cmdName)")] ++
    dispatcher.cases.flatMap DispatchCase.lines ++
    [indent 2 "default:"] ++ dispatcher.fallback ++
    [indent 3 "break;", indent 1 closing, indent 1 "return ret;", closing, ""]

end Dispatcher

/-! ## Public functions -/

/-- The signature of the initialisation. -/
def initSignature (protocol : String) : String :=
  "bool " ++ protocol ++ "Init(uint8_t *pSendBuffer, size_t sendBufferSize)"

/-- The signature of the entry point for received commands. -/
def executeSignature (protocol : String) : String :=
  "bool " ++ protocol ++ "Execute(uint_fast16_t cmdName, " ++ Naming.payloadUnion protocol ++
    " *pCmdPayload)"

/-- The public functions of a fresh module. -/
def defaultPublicFunctions (protocol : String) : List PublicFunction :=
  [{ preceding := []
     doc :=
       DocBlock.lines
         ⟨initSignature protocol, "Initialize the " ++ protocol ++ " module",
           [("pSendBuffer", "pointer to the send buffer"),
             ("sendBufferSize", "size of the send buffer")],
           successResult⟩
     signature := [opening (initSignature protocol)]
     body :=
       [opening (initSignature protocol), indent 1 (opening "if (pSendBuffer == NULL)"),
         indent 2 "return false;", indent 1 closing,
         indent 1 (protocol ++ "Info.pSendBuffer = pSendBuffer;"),
         indent 1 (protocol ++ "Info.sendBufferSize = sendBufferSize;"), indent 1 "return true;",
         closing] },
    { preceding := []
      doc :=
        DocBlock.lines
          ⟨executeSignature protocol, "Execute a " ++ protocol ++ " command",
            [("cmdName", "name of the command"), ("pCmdPayload", "pointer to command payload")],
            successResult⟩
      signature := [opening (executeSignature protocol)]
      body :=
        [opening (executeSignature protocol),
          indent 1 ("return " ++ Dispatcher.name protocol ++ "(cmdName, pCmdPayload);"),
          closing] }]

/-- The public functions of a module: the recovered ones, if there are any. -/
def publicFunctionsOf (protocol : String) (code : Option RecoveredCode) : List PublicFunction :=
  match code with
  | some code =>
      if code.publicFunctions.isEmpty then defaultPublicFunctions protocol
      else code.publicFunctions
  | none => defaultPublicFunctions protocol

/-- A public function with the lines above it and the blank line after it. -/
def publicFunctionLines (function : PublicFunction) : List String :=
  (if function.preceding.isEmpty then [] else function.preceding ++ [""]) ++ function.doc ++
    function.body ++ [""]

/-! ## The whole module -/

/-- The main module of a role. -/
structure MainModule where
  protocol : String
  includes : List String
  definitions : List String
  /-- Private functions that belong to no command. -/
  unknown : List (List String)
  handlers : List Handler
  dispatcher : Dispatcher
  privateTrailing : List String
  publicFunctions : List PublicFunction
  publicTrailing : List String
deriving Repr, DecidableEq

namespace MainModule

/-- The handler of a command: the recovered one, or a fresh one. -/
def handlerOf (protocol : String) (code : Option RecoveredCode) (cmd : Command) : Handler :=
  { doc := Handler.docOf protocol cmd
    body := (code.bind (·.handler? cmd.name)).getD (Handler.stub protocol cmd) }

/-- The main module of a role, with recovered code in its place. -/
def build (prepared : Prepared) (role : Role) (code : Option RecoveredCode) : MainModule :=
  let protocol := prepared.protocol.name
  let received := prepared.protocol.received role
  { protocol := protocol
    includes := (code.map (·.includes)).getD (defaultIncludes protocol role)
    definitions := (code.map (·.definitions)).getD (defaultDefinitions protocol)
    unknown := (code.map (·.unknown)).getD []
    handlers := received.map (handlerOf protocol code)
    dispatcher :=
      { protocol := protocol
        cases := received.map (DispatchCase.ofCommand protocol)
        fallback := (code.bind (·.fallback)).getD defaultFallback }
    privateTrailing := (code.map (·.privateTrailing)).getD []
    publicFunctions := publicFunctionsOf protocol code
    publicTrailing := (code.map (·.publicTrailing)).getD [] }

/-- The lines of a module. -/
def lines (module : MainModule) : List String :=
  module.includes ++ ["// *** Definitions ***"] ++ module.definitions ++
    ["// *** Private Functions ***", ""] ++ senderLines module.protocol ++
    module.unknown.flatMap (· ++ [""]) ++ module.handlers.flatMap Handler.lines ++
    module.dispatcher.lines ++
    (if module.privateTrailing.isEmpty then [] else module.privateTrailing ++ [""]) ++
    ["// *** Public Functions ***", ""] ++
    module.publicFunctions.flatMap publicFunctionLines ++ module.publicTrailing

/-- The text of a module. -/
def text (module : MainModule) : String :=
  Text.unlines module.lines

end MainModule
end Firmware
end CommandSet
