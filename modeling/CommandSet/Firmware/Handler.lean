import CommandSet.Firmware.Statement

/-!
# Command handlers

The main module of a role has one handler for every command it receives.  A fresh
handler checks its payload, copies every attribute into a local of its own and
leaves the work itself to be written by hand.  A local of an optional attribute is
filled only under the presence tests of the attribute and of everything optional
that holds it.

Main definitions:

- {lit}`Local`, {lit}`declareAll`: the locals of a handler.
- {lit}`loadAll`: the statements that fill them.
- {lit}`Handler`: a handler with its comment, {lit}`Handler.stub` a fresh one.
-/

namespace CommandSet
namespace Firmware

/-! ## Locals -/

/-- The type of a local. -/
inductive LocalType where
  | flag
  | number (scalar : Scalar)
  | bytePointer
  | textPointer
deriving Repr, DecidableEq

/-- A local variable of a handler. -/
structure Local where
  type : LocalType
  name : String
deriving Repr, DecidableEq

/-- The declaration of a local. -/
def Local.declaration (l : Local) : String :=
  match l.type with
  | .flag => "bool " ++ l.name ++ " = false;"
  | .number scalar => scalar.cName ++ " " ++ l.name ++ " = 0;"
  | .bytePointer => "uint8_t *" ++ l.name ++ " = NULL;"
  | .textPointer => "char *" ++ l.name ++ " = NULL;"

/-- The local that says whether an attribute is there. -/
def presentLocal (stem : String) : String :=
  "is_" ++ stem ++ "_here"

/-- The local that holds a number. -/
def numberLocal (stem : String) : String :=
  "m_" ++ stem

/-- The local that points to bytes or text. -/
def pointerLocal (stem : String) : String :=
  "m_p_" ++ stem

/-- The local that counts bytes. -/
def sizeLocal (stem : String) : String :=
  "m_" ++ stem ++ "_size"

mutual

/-- The locals of an attribute and of all below it. -/
def declare (ancestors : List String) : Attribute → List Local
  | ⟨name, _, optional, dataType, children, _⟩ =>
      let stem := Naming.localStem ancestors name
      match dataType.storage with
      | none => []
      | some storage =>
          (if optional then [⟨.flag, presentLocal stem⟩] else []) ++
            match storage with
            | .scalar scalar => [⟨.number scalar, numberLocal stem⟩]
            | .bytes =>
                [⟨.bytePointer, pointerLocal stem⟩, ⟨.number .u32, sizeLocal stem⟩]
            | .text => [⟨.textPointer, pointerLocal stem⟩]
            | .nested => declareAll (ancestors ++ [name]) children

/-- The locals of sibling attributes. -/
def declareAll (ancestors : List String) : List Attribute → List Local
  | [] => []
  | att :: rest => declare ancestors att ++ declareAll ancestors rest

end

/-! ## Filling the locals -/

mutual

/-- The statements that fill the locals of an attribute, which is the one at
{lit}`index` of a group with presence field {lit}`width`. -/
def load (protocol : String) (ancestors : List String) (width : PresenceWidth) (index : Nat) :
    Attribute → List Statement
  | ⟨name, _, optional, dataType, children, _⟩ =>
      let stem := Naming.localStem ancestors name
      let bit : PresenceBit :=
        ⟨ancestors, width, index, Naming.attributeFlag protocol (ancestors.getLastD "") name⟩
      match dataType.storage with
      | none => []
      | some storage =>
          let values : List Statement :=
            match storage with
            | .scalar _ => [.load (numberLocal stem) ⟨ancestors, numberMember name⟩]
            | .bytes =>
                [.load (pointerLocal stem) ⟨ancestors, pointerMember name⟩,
                  .load (sizeLocal stem) ⟨ancestors, sizeMember name⟩]
            | .text => [.load (pointerLocal stem) ⟨ancestors, pointerMember name⟩]
            | .nested =>
                loadAll protocol (ancestors ++ [name]) (PresenceWidth.ofCount children.length) 0
                  children
          if optional then [.ifPresent bit (.notePresent (presentLocal stem) :: values) []]
          else values

/-- The statements that fill the locals of sibling attributes, the first of which
stands at {lit}`index`. -/
def loadAll (protocol : String) (ancestors : List String) (width : PresenceWidth)
    (index : Nat) : List Attribute → List Statement
  | [] => []
  | att :: rest =>
      load protocol ancestors width index att ++
        loadAll protocol ancestors width (index + 1) rest

end

/-! ## Handlers -/

/-- The name of the handler of a command. -/
def handlerName (protocol command : String) : String :=
  protocol ++ "Execute" ++ command

/-- The signature of the handler of a command. -/
def handlerSignature (protocol : String) (cmd : Command) : String :=
  "static bool " ++ handlerName protocol cmd.name ++
    if cmd.hasAttributes then "(" ++ Naming.payloadUnion protocol ++ " *pCmdPayload)"
    else "(void)"

/-- A handler: the comment above it and its lines. -/
structure Handler where
  doc : DocBlock
  body : List String
deriving Repr, DecidableEq

namespace Handler

/-- The comment above the handler of a command. -/
def docOf (protocol : String) (cmd : Command) : DocBlock :=
  { signature := handlerSignature protocol cmd
    brief :=
      "Execute command " ++ cmd.name ++
        if cmd.description.isEmpty then "" else " (" ++ cmd.description ++ ")"
    params :=
      if cmd.hasAttributes then [("pCmdPayload", "pointer to command payload")] else []
    result := successResult }

/-- The locals of a fresh handler. -/
def locals (cmd : Command) : List Local :=
  declareAll [cmd.name] cmd.attributes

/-- The statements of a fresh handler that fill its locals. -/
def loads (protocol : String) (cmd : Command) : List Statement :=
  loadAll protocol [cmd.name] (PresenceWidth.ofCount cmd.attributes.length) 0 cmd.attributes

/-- The lines of a fresh handler. -/
def stub (protocol : String) (cmd : Command) : List String :=
  [opening (handlerSignature protocol cmd)] ++
    (if cmd.hasAttributes then
      [indent 1 (opening "if (pCmdPayload == NULL)"), indent 2 "return false;",
        indent 1 closing, indent 1 "// Declare attributes"] ++
        (locals cmd).map (fun l => indent 1 l.declaration) ++
        [indent 1 "// Retrieve attributes data"] ++ Statement.allLines 1 (loads protocol cmd)
    else []) ++
    [indent 1 "// Process data", indent 1 ("// TODO: process command " ++ cmd.name),
      indent 1 "return true;", closing]

/-- A handler with the blank line after it. -/
def lines (handler : Handler) : List String :=
  handler.doc.lines ++ handler.body ++ [""]

end Handler
end Firmware
end CommandSet
