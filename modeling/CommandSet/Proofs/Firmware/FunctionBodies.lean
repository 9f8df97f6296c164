import CommandSet.Firmware.Bridge
import CommandSet.Firmware.MainModule
import CommandSet.Proofs.Firmware.Handlers
import CommandSet.Proofs.Firmware.Visits

/-!
# Bodies of generated functions

A walk over the attributes of a command writes statements inside of statements, and the text of
a function is a list of lines.  A reader of lines that sees neither their indentation nor what
only closes a block finds in that text what it finds in the statements one by one, and these are
known position by position.

Main definitions:

- {lit}`Statement.text`: the line of a statement, or the line that opens its block.
- {lit}`LineReader`: readers that pass over indentation and the ends of blocks.
- {lit}`Position.loadTexts`, {lit}`Position.decodeTexts`, {lit}`Position.encodeTexts`: what a
  handler, a decoder and an encoder write for one attribute.

Main results:

- Theorem {lit}`LineReader.flatMap_allLines`: statements are read one by one.
- Theorems {lit}`LineReader.flatMap_stub`, {lit}`LineReader.flatMap_decoder`,
  {lit}`LineReader.flatMap_encoder`: functions are read attribute by attribute.
- Theorems {lit}`stub_emitted`, {lit}`decoder_emitted`, {lit}`encoder_emitted`: the functions of the
  commands stand in the files of a role.
-/

namespace CommandSet
namespace Firmware

/-! ## Statements -/

namespace Statement

/-- The line of a statement without its indentation; of one that has a block, the line that opens
it. -/
def text (statement : Statement) : String :=
  (statement.lines 0).headD ""

section Texts

variable (message name count protocol : String) (groups : List String) (width : PresenceWidth)
  (bit : PresenceBit) (scalar : Scalar) (place : Place) (element : Element) (slot : Slot)
  (body otherwise : List Statement)

@[simp]
theorem text_remark : (remark message).text = "// " ++ message :=
  indent_zero _

@[simp]
theorem text_load : (load name place).text = name ++ " = " ++ place.text ++ ";" :=
  indent_zero _

@[simp]
theorem text_notePresent : (notePresent name).text = name ++ " = true;" :=
  indent_zero _

@[simp]
theorem text_clearPresence :
    (clearPresence groups width).text = width.clearStatement (PresenceBit.field groups).text :=
  indent_zero _

@[simp]
theorem text_setPresence : (setPresence bit).text = bit.setText :=
  indent_zero _

@[simp]
theorem text_takeNumber : (takeNumber scalar place element).text =
    "memcpy(&(" ++ place.text ++ "), " ++ element.slotText .data ++ ", sizeof(" ++
      scalar.cName ++ "));" :=
  indent_zero _

@[simp]
theorem text_takeLength :
    (takeLength place element).text = place.text ++ " = " ++ element.text ++ ".PayloadSize;" :=
  indent_zero _

@[simp]
theorem text_takePointer :
    (takePointer place element).text = place.text ++ " = " ++ element.slotText .data ++ ";" :=
  indent_zero _

@[simp]
theorem text_putWidth : (putWidth element scalar).text =
    element.text ++ ".PayloadSize = sizeof(" ++ scalar.cName ++ ");" :=
  indent_zero _

@[simp]
theorem text_putAddress :
    (putAddress element place).text = element.slotText .data ++ " = &(" ++ place.text ++ ");" :=
  indent_zero _

@[simp]
theorem text_putLength :
    (putLength element place).text = element.text ++ ".PayloadSize = " ++ place.text ++ ";" :=
  indent_zero _

@[simp]
theorem text_putTextLength : (putTextLength element place).text =
    element.text ++ ".PayloadSize = strlen(" ++ place.text ++ ");" :=
  indent_zero _

@[simp]
theorem text_putPointer :
    (putPointer element place).text = element.slotText .data ++ " = " ++ place.text ++ ";" :=
  indent_zero _

@[simp]
theorem text_putCount :
    (putCount element count).text = element.text ++ ".PayloadSize = " ++ count ++ ";" :=
  indent_zero _

@[simp]
theorem text_allocate : (allocate protocol element count).text =
    element.slotText .subArray ++ " = " ++ allocateCall protocol count ++ ";" :=
  indent_zero _

@[simp]
theorem text_requireArray : (requireArray element).text =
    opening ("if (" ++ element.slotText .subArray ++ " == NULL)") :=
  indent_zero _

@[simp]
theorem text_putAbsent :
    (putAbsent element slot).text = element.slotText slot ++ " = NULL;" :=
  indent_zero _

@[simp]
theorem text_ifPresent :
    (ifPresent bit body otherwise).text = opening ("if " ++ bit.testText) :=
  indent_zero _

@[simp]
theorem text_ifCarried : (ifCarried element slot body).text =
    opening ("if (" ++ element.slotText slot ++ " != NULL)") :=
  indent_zero _

end Texts

mutual

/-- A statement and all statements in it, each before those it holds. -/
def nodes : Statement → List Statement
  | .ifPresent bit body otherwise =>
      .ifPresent bit body otherwise :: (allNodes body ++ allNodes otherwise)
  | .ifCarried source slot body => .ifCarried source slot body :: allNodes body
  | statement => [statement]

/-- Statements and all statements in them. -/
def allNodes : List Statement → List Statement
  | [] => []
  | statement :: rest => nodes statement ++ allNodes rest

end

@[simp]
theorem allNodes_append (first second : List Statement) :
    allNodes (first ++ second) = allNodes first ++ allNodes second := by
  induction first with
  | nil => rfl
  | cons statement first ih =>
      rw [List.cons_append, allNodes, allNodes, ih, List.append_assoc]

/-- What is read in statements and in all statements in them. -/
def seen {α : Type} (read : String → List α) (body : List Statement) : List α :=
  (allNodes body).flatMap fun node => read node.text

variable {α : Type} {read : String → List α}

@[simp]
theorem seen_nil : seen read [] = [] :=
  rfl

theorem seen_cons (statement : Statement) (rest : List Statement) :
    seen read (statement :: rest) =
      (nodes statement).flatMap (fun node => read node.text) ++ seen read rest := by
  rw [seen, allNodes, List.flatMap_append, seen]

@[simp]
theorem seen_append (first second : List Statement) :
    seen read (first ++ second) = seen read first ++ seen read second := by
  rw [seen, allNodes_append, List.flatMap_append, seen, seen]

end Statement

/-! ## Readers -/

/-- Readers that find the same at every indentation and nothing on the lines that close a block
or give up. -/
structure LineReader {α : Type} (read : String → List α) : Prop where
  indented : ∀ level text, read (indent level text) = read text
  closing : read closing = []
  otherwise : read (opening (CommandSet.closing ++ " else")) = []
  giveUp : read "return false;" = []

section Reading

open Statement

variable {α : Type} {read : String → List α}

mutual

/-- What is read in the lines of a statement is read in it and in the statements it holds. -/
theorem LineReader.flatMap_lines (h : LineReader read) (level : Nat) : (statement : Statement) →
    (statement.lines level).flatMap read = (nodes statement).flatMap fun node => read node.text
  | .ifPresent bit body otherwise => by
      have hbody := h.flatMap_allLines (level + 1) body
      have hotherwise := h.flatMap_allLines (level + 1) otherwise
      rw [seen] at hbody hotherwise
      rw [Statement.lines, nodes]
      cases otherwise with
      | nil => simp [h.indented, h.closing, hbody, allNodes]
      | cons first rest => simp [h.indented, h.closing, h.otherwise, hbody, hotherwise]
  | .ifCarried source slot body => by
      have hbody := h.flatMap_allLines (level + 1) body
      rw [seen] at hbody
      simp [Statement.lines, nodes, h.indented, h.closing, hbody]
  | .requireArray target => by
      simp [Statement.lines, nodes, h.indented, h.closing, h.giveUp]
  | .remark _ | .load _ _ | .notePresent _ | .clearPresence _ _ | .setPresence _
  | .takeNumber _ _ _ | .takeLength _ _ | .takePointer _ _ | .putWidth _ _ | .putAddress _ _
  | .putLength _ _ | .putTextLength _ _ | .putPointer _ _ | .putCount _ _ | .allocate _ _ _
  | .putAbsent _ _ => by
      simp [Statement.lines, nodes, h.indented]

/-- What is read in the lines of statements is read in them one by one. -/
theorem LineReader.flatMap_allLines (h : LineReader read) (level : Nat) :
    (body : List Statement) → (allLines level body).flatMap read = seen read body
  | [] => rfl
  | statement :: rest => by
      rw [allLines, List.flatMap_append, h.flatMap_lines level statement,
        h.flatMap_allLines level rest, seen_cons]

end

/-- What is read in a walk through a regular forest, position by position, if at every visit what
belongs to the position is read before what lies below it. -/
theorem seen_visits (walk : Group → Nat → List Attribute → List Statement)
    (visit : Position → List Statement) (own : Position → List α)
    (hnil : ∀ group index, walk group index [] = [])
    (hcons : ∀ group index att rest,
      walk group index (att :: rest) = visit ⟨group, index, att⟩ ++ walk group (index + 1) rest)
    (atts : List Attribute) : ∀ group index, (∀ att ∈ Attribute.forest atts, att.Regular) →
      (∀ p ∈ Position.ofTrees group index atts, p.node.Regular →
        seen read (visit p) = own p ++ seen read (walk p.below 0 p.node.children)) →
      seen read (walk group index atts) = (Position.ofTrees group index atts).flatMap own := by
  induction atts using Attribute.forest_induction with
  | nil =>
      intro group index _ _
      rw [hnil]
      rfl
  | cons att rest ihbelow ihrest =>
      intro group index hregular hvisit
      obtain ⟨hatt, hbelow, hrest⟩ := Attribute.forall_mem_forest_cons.mp hregular
      obtain ⟨hown, hvisitBelow, hvisitRest⟩ := Position.forall_mem_ofTrees_cons.mp hvisit
      have hnested : seen read (walk (group.below att) 0 att.children) =
          (Position.ofTrees (group.below att) 0 att.children).flatMap own :=
        ihbelow (group.below att) 0 hbelow hvisitBelow
      have hhere := hown hatt
      rw [hcons, seen_append, hhere, ihrest group (index + 1) hrest hvisitRest,
        Position.ofTrees_cons, List.flatMap_cons, List.flatMap_append, List.append_assoc]
      exact congrArg (fun below => _ ++ (below ++ _)) hnested

end Reading

end Firmware

/-! ## Attributes -/

/-- What is listed for some items only. -/
theorem flatMap_kept {ι α : Type} (keep : ι → Bool) (build : ι → α) (items : List ι) :
    (items.flatMap fun item => if keep item then [build item] else []) =
      (items.filter keep).map build := by
  induction items with
  | nil => rfl
  | cons item rest ih =>
      rw [List.flatMap_cons, ih, List.filter_cons]
      split <;> rfl

namespace Position

open Firmware

/-- What belongs to an attribute, given how it is stored. -/
def stored {α : Type} (own : Position → Storage → List α) (p : Position) : List α :=
  (p.node.dataType.storage.map (own p)).getD []

theorem stored_eq {α : Type} {own : Position → Storage → List α} {p : Position} {storage : Storage}
    (h : p.node.dataType.storage = some storage) : p.stored own = own p storage := by
  rw [stored, h]
  rfl

/-- What is read in what belongs to attributes. -/
theorem flatMap_stored {α : Type} {own : Position → Storage → List α}
    {texts : Position → Storage → List String} {read : String → List α} {positions : List Position}
    (h : ∀ p ∈ positions, ∀ storage, (texts p storage).flatMap read = own p storage) :
    positions.flatMap (fun p => (p.stored texts).flatMap read) =
      positions.flatMap (·.stored own) := by
  refine List.flatMap_congr fun p hp => ?_
  rw [stored, stored]
  cases p.node.dataType.storage with
  | none => rfl
  | some storage => exact h p hp storage

/-- What a handler does with a stored value itself. -/
def ownLoads (protocol : String) (p : Position) : Storage → List Statement
  | .nested => []
  | storage => p.loads protocol storage

/-- What a handler writes to load an attribute, without what it loads below it. -/
def loadTexts (protocol : String) (p : Position) (storage : Storage) : List String :=
  (if p.node.optional then
    [opening ("if " ++ (p.bit protocol).testText), presentLocal p.stem ++ " = true;"]
  else []) ++ (p.ownLoads protocol storage).map Statement.text

/-- What a decoder does with a stored value itself. -/
def ownDecodes (protocol : String) (p : Position) : Storage → List Statement
  | .nested => clearGroup p.below.ancestors p.node.children
  | storage => p.decodes protocol storage

/-- What a decoder writes for an attribute, without what it writes below it. -/
def decodeTexts (protocol : String) (p : Position) (storage : Storage) : List String :=
  ("// " ++ ("Retrieve data of attribute " ++ p.node.name)) ::
    ((if p.node.optional then
      [opening ("if (" ++
          (p.element protocol Naming.receiveRoot).slotText (Slot.ofStorage storage) ++
          " != NULL)"),
        (p.bit protocol).setText]
    else []) ++ (p.ownDecodes protocol storage).map Statement.text)

/-- What an encoder does with a stored value itself. -/
def ownEncodes (protocol : String) (p : Position) : Storage → List Statement
  | .nested =>
      [.putCount (p.element protocol Naming.transmitRoot)
          (Naming.subAttributeCount protocol p.node.name),
        .allocate protocol (p.element protocol Naming.transmitRoot)
          (Naming.subAttributeCount protocol p.node.name),
        .requireArray (p.element protocol Naming.transmitRoot)]
  | storage => p.encodes protocol storage

/-- What an encoder writes for an attribute that is present, without what it writes below it. -/
def encodeTexts (protocol : String) (p : Position) (storage : Storage) : List String :=
  ("// " ++ ("Fill attribute " ++ p.node.name)) ::
    ((if p.node.optional then [opening ("if " ++ (p.bit protocol).testText)] else []) ++
      (p.ownEncodes protocol storage).map Statement.text)

end Position

namespace Firmware

open Statement

variable {α : Type} {read : String → List α} {protocol : String} {p : Position}

/-- What is read in statements that hold no others. -/
theorem seen_eq_flatMap {body : List Statement} (h : allNodes body = body) :
    seen read body = (body.map text).flatMap read := by
  rw [seen, h, List.flatMap_map]

theorem allNodes_clearGroup (groups : List String) (atts : List Attribute) :
    allNodes (clearGroup groups atts) = clearGroup groups atts := by
  rw [clearGroup]
  split <;> rfl

/-- What is read in a handler at a visit. -/
theorem seen_load (h : p.node.Regular) :
    seen read (load protocol p.group.ancestors p.group.width p.index p.node) =
      (p.stored (Position.loadTexts protocol)).flatMap read ++
        seen read (loadAll protocol p.below.ancestors p.below.width 0 p.node.children) := by
  obtain ⟨storage, hstorage, hleaf⟩ := h.stores
  have hvalues : seen read (p.loads protocol storage) =
      ((p.ownLoads protocol storage).map text).flatMap read ++
        seen read (loadAll protocol p.below.ancestors p.below.width 0 p.node.children) := by
    rcases hleaf with rfl | hleaf
    · rfl
    · rw [hleaf, loadAll]
      cases storage <;> simp [Position.loads, Position.ownLoads, seen_cons, nodes, hleaf, loadAll]
  rw [load_eq hstorage, Position.stored_eq hstorage, Position.loadTexts]
  cases p.node.optional with
  | false => simpa using hvalues
  | true =>
      rw [seen] at hvalues
      simp [seen_cons, nodes, allNodes, hvalues]

/-- What is read in a decoder at a visit. -/
theorem seen_decode (h : p.node.Regular) :
    seen read (decode protocol p.group.ancestors p.group.width p.index p.node) =
      (p.stored (Position.decodeTexts protocol)).flatMap read ++
        seen read (decodeAll protocol p.below.ancestors p.below.width 0 p.node.children) := by
  obtain ⟨storage, hstorage, hleaf⟩ := h.stores
  have hvalues : seen read (p.decodes protocol storage) =
      ((p.ownDecodes protocol storage).map text).flatMap read ++
        seen read (decodeAll protocol p.below.ancestors p.below.width 0 p.node.children) := by
    rcases hleaf with rfl | hleaf
    · rw [Position.decodes, decodeGroup, seen_append, Position.ownDecodes,
        seen_eq_flatMap (allNodes_clearGroup _ _)]
      rfl
    · rw [hleaf, decodeAll]
      cases storage <;> simp [Position.decodes, Position.ownDecodes, seen_cons, nodes, hleaf,
        decodeGroup, clearGroup, decodeAll]
  rw [decode_eq hstorage, Position.stored_eq hstorage, Position.decodeTexts]
  cases p.node.optional with
  | false => simp [seen_cons, nodes, hvalues]
  | true =>
      rw [seen] at hvalues
      simp [seen_cons, nodes, allNodes, hvalues]

/-- What is read in an encoder at a visit, if nothing is read where an element is marked as
absent. -/
theorem seen_encode (h : p.node.Regular)
    (habsent : ∀ slot,
      read (text (.putAbsent (p.element protocol Naming.transmitRoot) slot)) = []) :
    seen read (encode protocol p.group.ancestors p.group.width p.index p.node) =
      (p.stored (Position.encodeTexts protocol)).flatMap read ++
        seen read (encodeAll protocol p.below.ancestors p.below.width 0 p.node.children) := by
  obtain ⟨storage, hstorage, hleaf⟩ := h.stores
  have hvalues : seen read (p.encodes protocol storage) =
      ((p.ownEncodes protocol storage).map text).flatMap read ++
        seen read (encodeAll protocol p.below.ancestors p.below.width 0 p.node.children) := by
    rcases hleaf with rfl | hleaf
    · rw [Position.encodes, seen_append, seen_eq_flatMap rfl]
      rfl
    · rw [hleaf, encodeAll]
      cases storage <;> simp [Position.encodes, Position.ownEncodes, seen_cons, nodes, hleaf,
        encodeGroup, encodeAll]
  rw [encode_eq hstorage, Position.stored_eq hstorage, Position.encodeTexts]
  cases p.node.optional with
  | false => simp [seen_cons, nodes, hvalues]
  | true =>
      rw [seen] at hvalues
      have hnone := habsent (Slot.ofStorage storage)
      rw [text_putAbsent] at hnone
      simp [seen_cons, nodes, allNodes, hvalues, hnone]

/-! ## Functions -/

/-- The lines of a handler around its declarations and statements, without indentation. -/
def Handler.frame (protocol : String) (cmd : Command) : List String :=
  [opening (handlerSignature protocol cmd), opening "if (pCmdPayload == NULL)",
    "// Declare attributes", "// Retrieve attributes data", "// Process data",
    "// TODO: process command " ++ cmd.name, "return true;"]

/-- The line that opens a decoder. -/
def Decoder.head (decoder : Decoder) : String :=
  "static void " ++ decoder.name ++ "(lcsf_valid_att_t *pAttArray, " ++
    Naming.payloadUnion decoder.protocol ++ " *pCmdPayload)"

/-- The lines of a decoder around its statements, without indentation. -/
def Decoder.frame (decoder : Decoder) : List String :=
  [opening decoder.head, opening "if (pCmdPayload == NULL)", "return;", ""]

/-- The line that opens an encoder. -/
def Encoder.head (encoder : Encoder) : String :=
  "static bool " ++ encoder.name ++ "(lcsf_valid_att_t **pAttArrayPtr, " ++
    Naming.payloadUnion encoder.protocol ++ " *pCmdPayload)"

/-- The lines of an encoder around its statements, without indentation and without the allocation
of the array of its command. -/
def Encoder.frame (encoder : Encoder) : List String :=
  [opening encoder.head, opening "if (pCmdPayload == NULL)", "// Allocate attribute array",
    opening "if (*pAttArrayPtr == NULL)", "return true;", ""]

section Heads

variable {bad : List Char} {protocol command : String} (hprotocol : IsName protocol)
  (hcommand : IsName command)

include hprotocol hcommand

theorem isWord_codecName {kind : String} (hkind : IsWord kind) :
    IsWord ("LCSF_Bridge_" ++ protocol ++ command ++ kind) :=
  (((IsWord.fixed rfl).append hprotocol.isWord).append hcommand.isWord).append hkind

/-- The head of a decoder or an encoder holds words and what stands around them. -/
theorem avoids_codecHead (hword : ∀ c ∈ bad, ¬IsNameRest c) {start kind parameters : String}
    (hkind : IsWord kind)
    (hfixed : ∀ part ∈ [start, parameters, " *pCmdPayload)"], Avoids bad part) :
    Avoids bad (start ++ ("LCSF_Bridge_" ++ protocol ++ command ++ kind) ++ parameters ++
      Naming.payloadUnion protocol ++ " *pCmdPayload)") := by
  have hname := isWord_codecName hprotocol hcommand hkind
  simp only [List.forall_mem_cons] at hfixed
  obtain ⟨hstart, hparameters, hpointer, -⟩ := hfixed
  rw [avoids_append, avoids_append, avoids_append, avoids_append]
  exact ⟨⟨⟨⟨hstart, hname.avoids hword⟩, hparameters⟩,
    (isWord_payloadUnion hprotocol).avoids hword⟩, hpointer⟩

end Heads

/-- The line of an encoder that allocates the array of its command. -/
def Encoder.allocation (encoder : Encoder) : String :=
  "*pAttArrayPtr = " ++ allocateCall encoder.protocol encoder.count ++ ";"

namespace LineReader

variable {cmd : Command}

/-- A fresh handler is read local by local and attribute by attribute. -/
theorem flatMap_stub (h : LineReader read)
    (hregular : ∀ att ∈ Attribute.forest cmd.attributes, att.Regular)
    (hframe : ∀ line ∈ Handler.frame protocol cmd, read line = []) :
    (Handler.stub protocol cmd).flatMap read =
      (Handler.locals cmd).flatMap (fun l => read l.declaration) ++
        cmd.positions.flatMap fun p => (p.stored (Position.loadTexts protocol)).flatMap read := by
  have hloads : seen read (Handler.loads protocol cmd) =
      cmd.positions.flatMap fun p => (p.stored (Position.loadTexts protocol)).flatMap read :=
    seen_visits (fun group index atts => loadAll protocol group.ancestors group.width index atts)
      (fun p => load protocol p.group.ancestors p.group.width p.index p.node) _
      (fun _ _ => rfl) (fun _ _ _ _ => rfl) cmd.attributes cmd.group 0 hregular
      fun _ _ hnode => seen_load hnode
  simp only [Handler.frame, List.forall_mem_cons, List.not_mem_nil, false_implies,
    implies_true, and_true] at hframe
  obtain ⟨hhead, hcheck, hdeclare, hretrieve, hprocess, htodo, hreturn⟩ := hframe
  rw [Handler.stub]
  split
  next =>
    simp [h.indented, h.closing, h.giveUp, h.flatMap_allLines, hhead, hcheck, hdeclare,
      hretrieve, hprocess, htodo, hreturn, List.flatMap_map, hloads]
  next hnone =>
    have hempty : cmd.attributes = [] := by simpa [Command.hasAttributes] using hnone
    have hlocals : Handler.locals cmd = [] := by rw [Handler.locals, hempty, declareAll]
    have hpositions : cmd.positions = [] := by rw [Command.positions, hempty, Position.ofTrees]
    simp [h.indented, h.closing, hhead, hprocess, htodo, hreturn, hlocals, hpositions]

/-- A decoder first clears the bits of its command and is then read attribute by attribute. -/
theorem flatMap_decoder (h : LineReader read)
    (hregular : ∀ att ∈ Attribute.forest cmd.attributes, att.Regular)
    (hframe : ∀ line ∈ (Decoder.ofCommand protocol cmd).frame, read line = []) :
    (Decoder.ofCommand protocol cmd).lines.flatMap read =
      ((clearGroup [cmd.name] cmd.attributes).map text).flatMap read ++
        cmd.positions.flatMap fun p => (p.stored (Position.decodeTexts protocol)).flatMap read := by
  have hdecodes : seen read (decodeAll protocol [cmd.name]
      (PresenceWidth.ofCount cmd.attributes.length) 0 cmd.attributes) =
      cmd.positions.flatMap fun p => (p.stored (Position.decodeTexts protocol)).flatMap read :=
    seen_visits (fun group index atts => decodeAll protocol group.ancestors group.width index atts)
      (fun p => decode protocol p.group.ancestors p.group.width p.index p.node) _
      (fun _ _ => rfl) (fun _ _ _ _ => rfl) cmd.attributes cmd.group 0 hregular
      fun _ _ hnode => seen_decode hnode
  simp only [Decoder.frame, List.forall_mem_cons, List.not_mem_nil, false_implies,
    implies_true, and_true] at hframe
  obtain ⟨hhead, hcheck, hreturn, hblank⟩ := hframe
  have hbody : seen read (Decoder.ofCommand protocol cmd).body = _ :=
    (seen_append _ _).trans (congr (congrArg _ (seen_eq_flatMap (allNodes_clearGroup _ _)))
      hdecodes)
  unfold Decoder.head at hhead
  unfold Decoder.lines
  simp [h.indented, h.closing, h.flatMap_allLines, hhead, hcheck, hreturn, hblank,
    hbody]

/-- An encoder allocates the array of its command and is then read attribute by attribute, if
nothing is read where an element is marked as absent. -/
theorem flatMap_encoder (h : LineReader read)
    (hregular : ∀ att ∈ Attribute.forest cmd.attributes, att.Regular)
    (hframe : ∀ line ∈ (Encoder.ofCommand protocol cmd).frame, read line = [])
    (habsent : ∀ p ∈ cmd.positions, ∀ slot,
      read (text (.putAbsent (p.element protocol Naming.transmitRoot) slot)) = []) :
    (Encoder.ofCommand protocol cmd).lines.flatMap read =
      read (Encoder.ofCommand protocol cmd).allocation ++
        cmd.positions.flatMap fun p => (p.stored (Position.encodeTexts protocol)).flatMap read := by
  have hbody : seen read (Encoder.ofCommand protocol cmd).body =
      cmd.positions.flatMap fun p => (p.stored (Position.encodeTexts protocol)).flatMap read :=
    seen_visits (fun group index atts => encodeAll protocol group.ancestors group.width index atts)
      (fun p => encode protocol p.group.ancestors p.group.width p.index p.node) _
      (fun _ _ => rfl) (fun _ _ _ _ => rfl) cmd.attributes cmd.group 0 hregular
      fun p hp hnode => seen_encode hnode (habsent p hp)
  simp only [Encoder.frame, List.forall_mem_cons, List.not_mem_nil, false_implies,
    implies_true, and_true] at hframe
  obtain ⟨hhead, hcheck, hremark, hgranted, hreturn, hblank⟩ := hframe
  unfold Encoder.head at hhead
  unfold Encoder.lines Encoder.allocation
  simp [h.indented, h.closing, h.giveUp, h.flatMap_allLines,
    hhead, hcheck, hremark, hgranted, hreturn, hblank, hbody]

end LineReader

/-! ## Files -/

variable {prepared : Prepared} {role : Role} {cmd : Command}

/-- The fresh handler of a received command stands in a fresh main module. -/
theorem stub_emitted (h : cmd ∈ prepared.protocol.received role) :
    Handler.stub prepared.protocol.name cmd <:+: (MainModule.build prepared role none).lines := by
  have hhandler : MainModule.handlerOf prepared.protocol.name none cmd ∈
      (MainModule.build prepared role none).handlers := List.mem_map_of_mem h
  unfold MainModule.lines
  iterate 5 refine List.IsInfix.trans ?_ (List.prefix_append _ _).isInfix
  refine List.IsInfix.trans ?_ (List.suffix_append _ _).isInfix
  refine List.IsInfix.trans ?_ (List.infix_of_mem_flatten (List.mem_map_of_mem hhandler))
  refine List.IsInfix.trans ?_ (List.prefix_append _ _).isInfix
  exact (List.suffix_append _ _).isInfix

/-- The decoder of a command stands in the bridge. -/
theorem decoder_emitted (h : cmd ∈ prepared.protocol.decoded role) :
    (Decoder.ofCommand prepared.protocol.name cmd).lines <:+:
      (Bridge.build prepared role).lines := by
  have hdecoder : Decoder.ofCommand prepared.protocol.name cmd ∈
      (Bridge.build prepared role).decoders := List.mem_map_of_mem h
  unfold Bridge.lines
  iterate 6 refine List.IsInfix.trans ?_ (List.prefix_append _ _).isInfix
  refine List.IsInfix.trans ?_ (List.suffix_append _ _).isInfix
  exact List.infix_of_mem_flatten (List.mem_map_of_mem hdecoder)

/-- The encoder of a command stands in the bridge. -/
theorem encoder_emitted (h : cmd ∈ prepared.protocol.encoded role) :
    (Encoder.ofCommand prepared.protocol.name cmd).lines <:+:
      (Bridge.build prepared role).lines := by
  have hencoder : Encoder.ofCommand prepared.protocol.name cmd ∈
      (Bridge.build prepared role).encoders := List.mem_map_of_mem h
  unfold Bridge.lines
  iterate 4 refine List.IsInfix.trans ?_ (List.prefix_append _ _).isInfix
  refine List.IsInfix.trans ?_ (List.suffix_append _ _).isInfix
  exact List.infix_of_mem_flatten (List.mem_map_of_mem hencoder)

end Firmware
end CommandSet
