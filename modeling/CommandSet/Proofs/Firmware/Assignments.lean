import CommandSet.Proofs.Firmware.LocalNames
import CommandSet.Proofs.Firmware.Nesting
import CommandSet.Proofs.Protocol.Paths
import CommandSet.Proofs.Text.Blocks

/-!
# Assignments of handlers

A fresh handler declares its locals first and fills them afterwards, in another walk over the
attributes that opens a block at each optional one.  Both are read off its lines here.

Main definitions:

- {lit}`declaredName?`, {lit}`assignment?`: what lines declare and assign.
- {lit}`Binds`: the variables that lines declare and assign inside given blocks.
- {lit}`Position.assignments`: the assignments to the locals of an attribute, inside the presence
  tests of the optional attributes on its path.

Main results:

- Theorem {lit}`binds_loadAll`: a walk assigns the locals of one position after the other.
- Theorem {lit}`stub_assigns_locals`: a fresh handler assigns the locals that it declares.
-/

namespace CommandSet
namespace Firmware

/-! ## Reading lines -/

/-- The variable that a text declares: a type, the name, an equality sign and a value. -/
def declaredName? (text : String) : Option String :=
  match words text with
  | [_, name, ['='], _] => some (String.ofList (name.dropWhile (· == '*')))
  | _ => none

/-- The variable that a text assigns to: the name, an equality sign and a value. -/
def assignedName? (text : String) : Option String :=
  match words text with
  | [name, ['='], _] => some (String.ofList name)
  | _ => none

theorem declaredName_of_ne {text : String}
    (h : ∀ type name value, words text ≠ [type, name, ['='], value]) :
    declaredName? text = none := by
  rw [declaredName?]
  split
  next heq => exact absurd heq (h _ _ _)
  next => rfl

theorem assignedName_of_ne {text : String}
    (h : ∀ name value, words text ≠ [name, ['='], value]) : assignedName? text = none := by
  rw [assignedName?]
  split
  next heq => exact absurd heq (h _ _)
  next => rfl

/-- An assignment, with its nesting level and the heads of the blocks around it. -/
structure Assignment where
  name : String
  level : Nat
  heads : List String
deriving Repr, DecidableEq

/-- The assignment on a line. -/
def assignment? (line : NestedLine) : Option Assignment :=
  (assignedName? line.text).map fun name => ⟨name, line.level, line.heads⟩

/-- Inside the blocks with the given heads, lines declare and assign variables. -/
def Binds (heads lines declared : List String) (assigned : List Assignment) : Prop :=
  ∃ nested, Reads heads lines nested ∧ nested.filterMap (declaredName? ·.text) = declared ∧
    nested.filterMap assignment? = assigned

variable {heads : List String}

theorem Binds.nil : Binds heads [] [] [] :=
  ⟨[], .nil, rfl, rfl⟩

theorem Binds.append {first second declared declared' : List String}
    {assigned assigned' : List Assignment} (hfirst : Binds heads first declared assigned)
    (hsecond : Binds heads second declared' assigned') :
    Binds heads (first ++ second) (declared ++ declared') (assigned ++ assigned') := by
  obtain ⟨nested, hreads, rfl, rfl⟩ := hfirst
  obtain ⟨nested', hreads', rfl, rfl⟩ := hsecond
  exact ⟨nested ++ nested', hreads.append hreads', List.filterMap_append, List.filterMap_append⟩

/-- What lines bind in a block they bind around it. -/
theorem Binds.block {head : String} {body declared : List String} {assigned : List Assignment}
    (hflush : Flush head) (hbraces : Avoids lineBreaks head) (level : Nat)
    (hbody : Binds (head :: heads) body declared assigned) :
    Binds heads (indent level (opening head) :: (body ++ [indent level closing])) declared
      assigned := by
  obtain ⟨nested, hreads, hdeclared, hassigned⟩ := hbody
  exact ⟨nested, hreads.block hflush hbraces level, hdeclared, hassigned⟩

/-- A line binds what it is read as. -/
theorem Binds.line {text : String} (declared assigned : Option String) (hflush : Flush text)
    (hbraces : Avoids lineBreaks text) (hdeclared : declaredName? text = declared)
    (hassigned : assignedName? text = assigned) (level : Nat) :
    Binds heads [indent level text] declared.toList
      (assigned.toList.map fun name => ⟨name, level, heads.reverse⟩) := by
  refine ⟨_, .line hflush hbraces level, ?_, ?_⟩
  · rw [← hdeclared]
    cases h : declaredName? text <;> simp [h]
  · rw [← hassigned]
    cases h : assignedName? text <;> simp [assignment?, h]

/-- A line that neither declares nor assigns. -/
theorem Binds.other {text : String} (hflush : Flush text) (hbraces : Avoids lineBreaks text)
    (hdeclared : declaredName? text = none) (hassigned : assignedName? text = none) (level : Nat) :
    Binds heads [indent level text] [] [] :=
  .line none none hflush hbraces hdeclared hassigned level

/-! ## Lines of handlers -/

theorem words_assignment {name value : String} (hname : Unbroken name) (hvalue : Unbroken value) :
    words (name ++ " = " ++ value) = [name.toList, ['='], value.toList] := by
  have htext : name ++ " = " ++ value = name ++ " " ++ ("=" ++ " " ++ value) := by
    simp [← String.toList_inj]
  rw [htext, words_three hname (by decide) hvalue]
  rfl

/-- A declaration is a type, a name that may have a star, an equality sign and a value. -/
theorem exists_declaration (l : Local) : ∃ type star value, Unbroken type ∧ Unbroken value ∧
    (star = "" ∨ star = "*") ∧
      l.declaration = type ++ " " ++ (star ++ l.name ++ " = " ++ value) := by
  obtain ⟨type, name⟩ := l
  cases type with
  | flag =>
      refine ⟨"bool", "", "false;", by decide, by decide, .inl rfl, ?_⟩
      simp [Local.declaration, ← String.toList_inj]
  | number scalar =>
      have hscalar : Unbroken scalar.cName := by cases scalar <;> decide
      refine ⟨scalar.cName, "", "0;", hscalar, by decide, .inl rfl, ?_⟩
      simp [Local.declaration, ← String.toList_inj]
  | bytePointer =>
      refine ⟨"uint8_t", "*", "NULL;", by decide, by decide, .inr rfl, ?_⟩
      simp [Local.declaration, ← String.toList_inj]
  | textPointer =>
      refine ⟨"char", "*", "NULL;", by decide, by decide, .inr rfl, ?_⟩
      simp [Local.declaration, ← String.toList_inj]

/-- The line that declares a local. -/
theorem binds_declaration {l : Local} (hword : IsWord l.name) (hne : l.name.toList ≠ [])
    (level : Nat) : Binds heads [indent level l.declaration] [l.name] [] := by
  obtain ⟨type, star, value, htype, hvalue, hstar, hdeclaration⟩ := exists_declaration l
  have hname := hword.unbroken hne
  have hspelled : Unbroken (star ++ l.name) := by
    rcases hstar with rfl | rfl
    · rwa [String.empty_append]
    · exact (by decide : Unbroken "*").append hname.2
  have hdrop : (star ++ l.name).toList.dropWhile (· == '*') = l.name.toList := by
    obtain ⟨c, rest, htext⟩ := List.exists_cons_of_ne_nil hne
    have hc : c ≠ '*' := by
      rintro rfl
      exact (by decide : ¬IsNameRest '*') (hword '*' (htext ▸ List.mem_cons_self))
    rcases hstar with rfl | rfl <;> simp [htext, hc]
  have hwords : words l.declaration =
      [type.toList, (star ++ l.name).toList, ['='], value.toList] := by
    rw [hdeclaration, words_append htype, words_assignment hspelled hvalue]
  refine .line (some l.name) none ?_ (avoids_lineBreaks (avoids_declaration hword)) ?_ ?_ level
  · rw [hdeclaration, String.append_assoc]
    exact (flush_of_unbroken htype).append _
  · rw [declaredName?, hwords]
    simp only [hdrop, String.ofList_toList]
  · exact assignedName_of_ne fun _ _ => by simp [hwords]

/-- The line that assigns to a local. -/
theorem binds_assignment {name value : String} (hword : IsWord name) (hne : name.toList ≠ [])
    (hvalue : Unbroken value) (hbraces : Avoids lineBreaks value) (level : Nat) :
    Binds heads [indent level (name ++ " = " ++ value)] [] [⟨name, level, heads.reverse⟩] := by
  have hname := hword.unbroken hne
  have hwords := words_assignment hname hvalue
  refine .line none (some name) ?_ ?_ ?_ ?_ level
  · rw [String.append_assoc]
    exact (flush_of_unbroken hname).append _
  · rw [avoids_append, avoids_append]
    exact ⟨⟨avoids_lineBreaks (avoids_word hword), by decide⟩, hbraces⟩
  · exact declaredName_of_ne fun _ _ _ => by simp [hwords]
  · rw [assignedName?, hwords]
    simp only [String.ofList_toList]

end Firmware

/-! ## Attributes -/

namespace Position

open Firmware

/-- The head of the block for what is there only if an optional attribute is. -/
def guardHead (protocol : String) (p : Position) : String :=
  "if " ++ (p.bit protocol).testText

/-- The assignments to the locals of an attribute at a level and in blocks, behind the presence
tests of the given attributes. -/
def assignments (protocol : String) (level : Nat) (heads : List String) (guards : List Position)
    (p : Position) : List Assignment :=
  p.ownLocals.map fun l =>
    ⟨l.name, level + guards.length, heads ++ guards.map (guardHead protocol)⟩

theorem assignments_append (protocol : String) (level : Nat) (heads : List String)
    (guards guards' : List Position) (p : Position) :
    p.assignments protocol level heads (guards ++ guards') =
      p.assignments protocol (level + guards.length) (heads ++ guards.map (guardHead protocol))
        guards' := by
  simp only [assignments, List.length_append, List.map_append, Nat.add_assoc, List.append_assoc]

/-- The assignments to the locals of positions, each behind the presence tests of the optional
attributes on its path. -/
def guardedAssignments (protocol : String) (level : Nat) (heads : List String)
    (positions : List Position) : List Assignment :=
  positions.flatMap fun p => p.assignments protocol level heads (guards positions p)

/-- The first attribute of a forest guards what is below it, and nothing else. -/
theorem guardedAssignments_cons {att : Attribute} {rest : List Attribute}
    (hnames : Attribute.DistinctNames (att :: rest)) (protocol : String) (level : Nat)
    (heads : List String) (group : Group) (index : Nat) :
    guardedAssignments protocol level heads (ofTrees group index (att :: rest)) =
      assignments protocol level heads (ownGuard ⟨group, index, att⟩) ⟨group, index, att⟩ ++
        (guardedAssignments protocol (level + (ownGuard ⟨group, index, att⟩).length)
            (heads ++ (ownGuard ⟨group, index, att⟩).map (guardHead protocol))
            (ofTrees (group.below att) 0 att.children) ++
          guardedAssignments protocol level heads (ofTrees group (index + 1) rest)) := by
  rw [guardedAssignments, flatMap_guards_cons hnames fun p guards =>
    p.assignments protocol level heads guards]
  simp only [assignments_append, guardedAssignments]

end Position

namespace Firmware

variable {heads : List String} {protocol : String} {p : Position} {storage : Storage}

/-- Locals of attributes are words that are not empty. -/
theorem word_of_isLocalName (hpath : ∀ name ∈ p.path, IsName name) {name : String}
    (h : IsLocalName p name) : IsWord name ∧ name.toList ≠ [] := by
  have hnames := List.forall_mem_append.mp hpath
  obtain ⟨hpresent, hnumber, hpointer, hsize⟩ := isWord_locals
    (isWord_localStem hnames.1 (List.forall_mem_singleton.mp hnames.2))
  cases h with
  | present => exact ⟨hpresent, by simp [presentLocal]⟩
  | number => exact ⟨hnumber, by simp [numberLocal]⟩
  | pointer => exact ⟨hpointer, by simp [pointerLocal]⟩
  | size => exact ⟨hsize, by simp [sizeLocal]⟩

/-- Copying a member into a local is a line that assigns to it. -/
theorem binds_loadMember (hpath : ∀ name ∈ p.path, IsName name) {name member : String}
    (hname : IsLocalName p name) (hmember : IsWord member) (level : Nat) :
    Binds heads (Statement.lines level (.load name (p.place member))) []
      [⟨name, level, heads.reverse⟩] := by
  obtain ⟨hword, hne⟩ := word_of_isLocalName hpath hname
  have hgroups := (List.forall_mem_append.mp hpath).1
  have hblank : Avoids [' '] (p.place member).text :=
    avoids_placeText (List.forall_mem_singleton.mpr (by decide)) (by decide) hgroups hmember
  have hbraces : Avoids lineBreaks (p.place member).text := avoids_lineBreaks
    (avoids_placeText not_isNameRest_of_mem_codeBreaks (.fixed rfl) hgroups hmember)
  have hvalue : Unbroken ((p.place member).text ++ ";") := by
    refine Unbroken.append ⟨?_, hblank _ (List.mem_singleton_self _)⟩ (by decide)
    simp [Place.text]
  rw [Statement.lines, String.append_assoc]
  exact binds_assignment hword hne hvalue (avoids_append.mpr ⟨hbraces, by decide⟩) level

/-- The values of an attribute are assigned to its locals. -/
theorem binds_loads (hpath : ∀ name ∈ p.path, IsName name)
    (hstorage : p.node.dataType.storage = some storage) (hvalue : storage ≠ .nested) (level : Nat) :
    Binds heads (Statement.allLines level (p.loads protocol storage)) []
      ((p.locals storage).map fun l => ⟨l.name, level, heads.reverse⟩) := by
  have hname := List.forall_mem_singleton.mp (List.forall_mem_append.mp hpath).2
  cases storage with
  | scalar scalar =>
      exact binds_loadMember hpath (.number ⟨scalar, hstorage⟩) (isWord_numberMember hname) level
  | bytes =>
      exact (binds_loadMember hpath (.pointer (.inl hstorage)) (isWord_pointerMember hname)
        level).append (binds_loadMember hpath (.size hstorage) (isWord_sizeMember hname) level)
  | text =>
      exact binds_loadMember hpath (.pointer (.inr hstorage)) (isWord_pointerMember hname) level
  | nested => exact absurd rfl hvalue

theorem avoids_guardHead (hprotocol : IsName protocol) (hpath : ∀ name ∈ p.path, IsName name) :
    Avoids lineBreaks (p.guardHead protocol) := by
  have hnames := List.forall_mem_append.mp hpath
  have hflag := avoids_attributeFlag hprotocol (isWord_getLastD hnames.1)
    (List.forall_mem_singleton.mp hnames.2)
  exact avoids_append.mpr ⟨by decide, avoids_lineBreaks (avoids_testText hnames.1 hflag)⟩

/-- An optional attribute is assigned inside its presence test, which notes first that it is
there. -/
theorem binds_load (p : Position) (hprotocol : IsName protocol)
    (hpath : ∀ name ∈ p.path, IsName name) (hstorage : p.node.dataType.storage = some storage)
    (values : Nat → List String → List Assignment)
    (hvalues : ∀ level heads, Binds heads (Statement.allLines level (p.loads protocol storage)) []
      (values level heads.reverse)) (level : Nat) (heads : List String) :
    Binds heads
      (Statement.allLines level (load protocol p.group.ancestors p.group.width p.index p.node)) []
      ((if p.node.optional then
          [⟨presentLocal p.stem, level + 1, heads.reverse ++ [p.guardHead protocol]⟩]
        else []) ++
        values (level + p.ownGuard.length)
          (heads.reverse ++ p.ownGuard.map (Position.guardHead protocol))) := by
  rw [load_eq hstorage]
  cases hoptional : p.node.optional with
  | false => simpa [Position.ownGuard, hoptional] using hvalues level heads
  | true =>
      obtain ⟨hword, hne⟩ := word_of_isLocalName hpath (.present hoptional)
      have hnote := @binds_assignment (p.guardHead protocol :: heads) _ "true;" hword hne
        (by decide) (by decide) (level + 1)
      have hbody := hnote.append (hvalues (level + 1) (p.guardHead protocol :: heads))
      have hblock := hbody.block ((by decide : Flush "if ").append _)
        (avoids_guardHead hprotocol hpath) level
      have htrue : presentLocal p.stem ++ " = true;" = presentLocal p.stem ++ " = " ++ "true;" := by
        rw [String.append_assoc]
        rfl
      have hlines : Statement.allLines level
            [.ifPresent (p.bit protocol)
              (.notePresent (presentLocal p.stem) :: p.loads protocol storage) []] =
          indent level (opening (p.guardHead protocol)) ::
            ([indent (level + 1) (presentLocal p.stem ++ " = " ++ "true;")] ++
              Statement.allLines (level + 1) (p.loads protocol storage) ++
                [indent level closing]) := by
        simp [Statement.allLines, Statement.lines, htrue, Position.guardHead]
      rw [if_pos rfl, if_pos rfl, hlines]
      simpa [Position.ownGuard, hoptional, Position.guardHead] using hblock

/-- The assignments to the locals of an attribute that nothing else guards. -/
theorem assignments_ownGuard (protocol : String) (p : Position)
    (hstorage : p.node.dataType.storage = some storage) (level : Nat) (heads : List String) :
    p.assignments protocol level heads p.ownGuard =
      (if p.node.optional then
          [⟨presentLocal p.stem, level + 1, heads ++ [p.guardHead protocol]⟩]
        else []) ++
        (if storage = .nested then [] else p.locals storage).map fun l =>
          ⟨l.name, level + p.ownGuard.length,
            heads ++ p.ownGuard.map (Position.guardHead protocol)⟩ := by
  rw [Position.assignments, Position.ownLocals, hstorage]
  cases hoptional : p.node.optional <;> cases storage <;> simp [Position.ownGuard, hoptional]

/-- A walk assigns the locals of one attribute after the other, each inside the presence tests of
the optional attributes on its path. -/
theorem binds_loadAll (hprotocol : IsName protocol) (group : Group) (index : Nat)
    (atts : List Attribute) (hregular : ∀ att ∈ Attribute.forest atts, att.Regular) :
    (∀ p ∈ Position.ofTrees group index atts, ∀ name ∈ p.path, IsName name) →
      Attribute.DistinctNames atts → ∀ (level : Nat) (heads : List String),
        Binds heads
          (Statement.allLines level (loadAll protocol group.ancestors group.width index atts)) []
          (Position.guardedAssignments protocol level heads.reverse
            (Position.ofTrees group index atts)) := by
  refine Attribute.visit_induction ?nil ?value ?complex group index atts hregular
  case nil =>
    intro group index _ _ level heads
    exact .nil
  case value =>
    intro group index att rest storage hstorage hvalue _ hleaf ih hnames hdistinct level heads
    obtain ⟨hpath, -, hrest⟩ := Position.forall_mem_ofTrees_cons.mp hnames
    obtain ⟨-, -, hdistinctRest⟩ := Attribute.distinctNames_cons.mp hdistinct
    have hown := binds_load ⟨group, index, att⟩ hprotocol hpath hstorage
      (fun level heads => (Position.locals ⟨group, index, att⟩ storage).map fun l =>
        ⟨l.name, level, heads⟩)
      (fun level _ => binds_loads hpath hstorage hvalue level) level heads
    have hassigned := assignments_ownGuard protocol ⟨group, index, att⟩ hstorage level heads.reverse
    rw [if_neg hvalue] at hassigned
    rw [← hassigned] at hown
    rw [Position.guardedAssignments_cons hdistinct, hleaf, loadAll, allLines_append]
    exact hown.append (ih hrest hdistinctRest level heads)
  case complex =>
    intro group index att rest hstorage _ ihbelow ih hnames hdistinct level heads
    obtain ⟨hpath, hbelow, hrest⟩ := Position.forall_mem_ofTrees_cons.mp hnames
    obtain ⟨-, hdistinctBelow, hdistinctRest⟩ := Attribute.distinctNames_cons.mp hdistinct
    have hown := binds_load ⟨group, index, att⟩ hprotocol hpath hstorage
      (fun level heads => Position.guardedAssignments protocol level heads
        (Position.ofTrees (group.below att) 0 att.children))
      (ihbelow hbelow hdistinctBelow) level heads
    have hassigned := assignments_ownGuard protocol ⟨group, index, att⟩ hstorage level heads.reverse
    rw [if_pos rfl, List.map_nil, List.append_nil] at hassigned
    rw [← hassigned] at hown
    rw [Position.guardedAssignments_cons hdistinct, loadAll, allLines_append, ← List.append_assoc]
    exact hown.append (ih hrest hdistinctRest level heads)

/-! ## Whole handlers -/

/-- The lines that declare locals. -/
theorem binds_declarations (heads : List String) {locals : List Local}
    (h : ∀ l ∈ locals, IsWord l.name ∧ l.name.toList ≠ []) :
    Binds heads (locals.map fun l => indent 1 l.declaration) (locals.map (·.name)) [] := by
  induction locals with
  | nil => exact .nil
  | cons l locals ih =>
      rw [List.forall_mem_cons] at h
      exact (binds_declaration h.1.1 h.1.2 1).append (ih h.2)

/-- The last lines of a fresh handler leave its locals alone. -/
theorem binds_ending {command : String} (h : IsName command) :
    Binds heads [indent 1 "// Process data", indent 1 ("// TODO: process command " ++ command),
      indent 1 "return true;"] [] [] := by
  have hwords : words ("// TODO: process command " ++ command) =
      "//".toList :: "TODO:".toList :: "process".toList :: words ("command" ++ " " ++ command) := by
    have htext : "// TODO: process command " ++ command =
        "//" ++ " " ++ ("TODO:" ++ " " ++ ("process" ++ " " ++ ("command" ++ " " ++ command))) := by
      simp [← String.toList_inj]
    rw [htext, words_append (by decide), words_append (by decide), words_append (by decide)]
  have htodo : Binds heads [indent 1 ("// TODO: process command " ++ command)] [] [] := by
    refine .other (Flush.append (by decide) _) ?_ ?_ ?_ 1
    · exact avoids_append.mpr ⟨by decide, avoids_lineBreaks (avoids_word h.isWord)⟩
    · exact declaredName_of_ne fun _ _ _ => by simp [hwords]
    · exact assignedName_of_ne fun _ _ => by simp [hwords]
  have hprocess : Binds heads [indent 1 "// Process data"] [] [] :=
    .other (by decide) (by decide) (by decide) (by decide) 1
  have hreturn : Binds heads [indent 1 "return true;"] [] [] :=
    .other (by decide) (by decide) (by decide) (by decide) 1
  exact (hprocess.append htodo).append hreturn

/-- The check of the payload, which returns early. -/
theorem binds_payloadCheck : Binds heads [indent 1 (opening "if (pCmdPayload == NULL)"),
    indent 2 "return false;", indent 1 closing] [] [] := by
  have hreturn : Binds ("if (pCmdPayload == NULL)" :: heads) [indent 2 "return false;"] [] [] :=
    .other (by decide) (by decide) (by decide) (by decide) 2
  exact hreturn.block (by decide) (by decide) 1

/-- The locals of a command are words that are not empty. -/
theorem word_of_mem_locals {protocol : Protocol} (hwell : WellFormed protocol) {cmd : Command}
    (hcmd : cmd ∈ protocol.commands) :
    ∀ l ∈ Handler.locals cmd, IsWord l.name ∧ l.name.toList ≠ [] := by
  intro l hl
  rw [Handler.locals, ← show cmd.group.ancestors = [cmd.name] from rfl,
    declareAll_eq_flatMap cmd.group 0 cmd.attributes (hwell.regular hcmd), List.mem_flatMap] at hl
  obtain ⟨p, hp, hl⟩ := hl
  exact word_of_isLocalName (Command.isName_of_mem_path hwell hcmd hp)
    (mem_names_ownLocals.mp (List.mem_map_of_mem hl))

/-- A fresh handler declares its locals and then assigns them, position by position. -/
theorem binds_stub {protocol : Protocol} (hwell : WellFormed protocol) {cmd : Command}
    (hcmd : cmd ∈ protocol.commands) :
    Binds [] (Handler.stub protocol.name cmd) ((Handler.locals cmd).map (·.name))
      (Position.guardedAssignments protocol.name 1 [handlerSignature protocol.name cmd]
        cmd.positions) := by
  have hname := hwell.command_names cmd hcmd
  have hmiddle : Binds [handlerSignature protocol.name cmd] (Handler.stubMiddle protocol.name cmd)
      ((Handler.locals cmd).map (·.name))
      (Position.guardedAssignments protocol.name 1 [handlerSignature protocol.name cmd]
        cmd.positions) := by
    rw [Handler.stubMiddle]
    split
    next =>
      have hdeclare : Binds [handlerSignature protocol.name cmd]
          [indent 1 "// Declare attributes"] [] [] :=
        .other (by decide) (by decide) (by decide) (by decide) 1
      have hretrieve : Binds [handlerSignature protocol.name cmd]
          [indent 1 "// Retrieve attributes data"] [] [] :=
        .other (by decide) (by decide) (by decide) (by decide) 1
      have hloads : Binds [handlerSignature protocol.name cmd]
          (Statement.allLines 1 (Handler.loads protocol.name cmd)) []
          (Position.guardedAssignments protocol.name 1 [handlerSignature protocol.name cmd]
            cmd.positions) :=
        binds_loadAll hwell.protocol_name cmd.group 0 cmd.attributes (hwell.regular hcmd)
          (fun p hp => Command.isName_of_mem_path hwell hcmd hp) (hwell.distinctNames hcmd) 1 _
      have hlocals := binds_declarations [handlerSignature protocol.name cmd]
        (word_of_mem_locals hwell hcmd)
      have hall := ((((binds_payloadCheck.append hdeclare).append hlocals).append
        hretrieve).append hloads).append (binds_ending hname)
      simpa using hall
    next hnone =>
      have hempty : cmd.attributes = [] := by simpa [Command.hasAttributes] using hnone
      have hlocals : Handler.locals cmd = [] := by rw [Handler.locals, hempty, declareAll]
      have hpositions : cmd.positions = [] := by rw [Command.positions, hempty, Position.ofTrees]
      rw [hlocals, hpositions]
      exact binds_ending hname
  have hflush : Flush (handlerSignature protocol.name cmd) := by
    rw [handlerSignature_eq]
    exact Flush.append (by decide) _
  have hblock := hmiddle.block hflush
    (avoids_lineBreaks (avoids_handlerSignature hwell.protocol_name hname)) 0
  rwa [indent_zero, indent_zero, ← Handler.stub_eq] at hblock

/-- A fresh handler of an accepted protocol assigns exactly the locals it declares, in their order,
each inside the presence tests of the optional attributes on the path of its own, and one level
deeper for each test. -/
theorem stub_assigns_locals {protocol : Protocol} {prepared : Prepared}
    (h : prepare protocol = .ok prepared) {cmd : Command} (hcmd : cmd ∈ protocol.commands) :
    ∃ lines, nest [] (Handler.stub protocol.name cmd) = some lines ∧
      lines.filterMap (declaredName? ·.text) = (Handler.locals cmd).map (·.name) ∧
      (lines.filterMap assignment?).map (·.name) = (Handler.locals cmd).map (·.name) ∧
      lines.filterMap assignment? = cmd.positions.flatMap fun p =>
        p.assignments protocol.name 1 [handlerSignature protocol.name cmd]
          (Position.guards cmd.positions p) := by
  obtain ⟨-, hwell⟩ := wellFormed_of_prepare h
  obtain ⟨lines, hreads, hdeclared, hassigned⟩ := binds_stub hwell hcmd
  have hlocals : Handler.locals cmd = cmd.positions.flatMap Position.ownLocals :=
    declareAll_eq_flatMap cmd.group 0 cmd.attributes (hwell.regular hcmd)
  refine ⟨lines, hreads.nest_eq, hdeclared, ?_, hassigned⟩
  rw [hassigned, hlocals, Position.guardedAssignments, List.map_flatMap, List.map_flatMap]
  refine List.flatMap_congr fun p _ => ?_
  rw [Position.assignments, List.map_map]
  rfl

/-- The handler of the meter assigns the locals it declares. -/
theorem stub_assigns_locals_meter : prepare meter = .ok (Prepared.ofProtocol meter) ∧
    ∀ cmd ∈ meter.commands,
      ∃ lines, nest [] (Handler.stub meter.name cmd) = some lines ∧
        lines.filterMap (declaredName? ·.text) = (Handler.locals cmd).map (·.name) ∧
        (lines.filterMap assignment?).map (·.name) = (Handler.locals cmd).map (·.name) ∧
        lines.filterMap assignment? = cmd.positions.flatMap fun p =>
          p.assignments meter.name 1 [handlerSignature meter.name cmd]
            (Position.guards cmd.positions p) :=
  ⟨prepare_meter, fun _ hcmd => stub_assigns_locals prepare_meter hcmd⟩

example : (Position.guardedAssignments meter.name 1 [] meter.positions).map
      (fun assignment => (assignment.name, assignment.level)) =
    [("m_p_raw", 1), ("m_raw_size", 1), ("is_target_here", 2), ("m_target_unit", 2),
      ("is_target_range_here", 3), ("m_target_range_low", 3), ("is_target_label_here", 3),
      ("m_p_target_label", 3)] := by
  decide

end Firmware
end CommandSet
