import CommandSet.Firmware.Bridge
import CommandSet.Proofs.Firmware.Handlers
import CommandSet.Proofs.Firmware.Visits
import CommandSet.Proofs.Protocol.Paths
import Mathlib.Data.List.Infix

/-!
# Elements of attribute arrays

Decoders read and encoders write the attributes of a command in nested arrays, and name an
element by the ordinals that lead to it.  Ordinals hold no bracket, and those of siblings
differ, so no two attributes of a command share an element.

The functions put a heading in front of what they do for an attribute, which divides their
statements into sections.  A decoder has nothing to do at an attribute that always holds others
than to go through its element to those below.  An element is therefore counted as addressed when
it is named or stands on the way to a named one.

Main definitions:

- {lit}`elementsOf`: the elements of the attributes of a command.
- {lit}`outline`: the sections of a function, with the elements they name.
- {lit}`Element.trail`, {lit}`addressed`: the elements that sections come across.
- {lit}`ElementsAgree`: encoder and decoder use one element for each attribute.

Main results:

- Theorem {lit}`nodup_elements`: the elements of a command are spelled differently.
- Theorems {lit}`outline_encodeAll`, {lit}`outline_decodeAll`: a walk has a section for each
  attribute, which names no element but its own.
- Theorem {lit}`notedInOrder_ofTrees`: sections come across the elements of a forest in order.
- Theorem {lit}`elementsAgree_of_prepare`: encoders and decoders of accepted protocols agree.
-/

namespace CommandSet

open Text (upper)

/-! ## Spelling of elements -/

namespace Naming

theorem attributeOrdinal_inj {protocol parent parent' name name' : String}
    (hparent : upper parent = upper parent') :
    attributeOrdinal protocol parent name = attributeOrdinal protocol parent' name' ↔
      upper name = upper name' := by
  rw [attributeOrdinal, attributeOrdinal, hparent, String.append_right_inj]

theorem ordinals_ne_nil (protocol : String) (ancestors : List String) (name : String) :
    ordinals protocol ancestors name ≠ [] := by
  fun_cases ordinals <;> exact List.cons_ne_nil _ _

/-- Ordinals that start under the same name lead to one attribute only if the names on the
way are the same. -/
theorem ordinals_inj {protocol : String} {parent parent' : String} {rest rest' : List String}
    {name name' : String} (hparent : upper parent = upper parent')
    (h : ordinals protocol (parent :: rest) name = ordinals protocol (parent' :: rest') name') :
    (rest ++ [name]).map upper = (rest' ++ [name']).map upper := by
  induction rest generalizing parent parent' rest' with
  | nil =>
      cases rest' with
      | nil =>
          have hname := (attributeOrdinal_inj hparent).mp (List.cons.inj h).1
          simp [hname]
      | cons child' rest' =>
          exact absurd (List.cons.inj h).2.symm (ordinals_ne_nil _ _ _)
  | cons child rest ih =>
      cases rest' with
      | nil => exact absurd (List.cons.inj h).2 (ordinals_ne_nil _ _ _)
      | cons child' rest' =>
          obtain ⟨hchild, hrest⟩ := List.cons.inj h
          have hname := (attributeOrdinal_inj hparent).mp hchild
          simp only [List.cons_append, List.map_cons, hname, ih hname hrest]

/-- The ordinals that lead to a group of sub-attributes; none lead to that of a command. -/
def way (protocol : String) : (ancestors : List String) → List String
  | parent :: child :: rest =>
      attributeOrdinal protocol parent child :: way protocol (child :: rest)
  | _ => []

theorem ordinals_eq (protocol : String) (ancestors : List String) (name : String) :
    ordinals protocol ancestors name =
      way protocol ancestors ++ [attributeOrdinal protocol (ancestors.getLastD "") name] := by
  fun_induction ordinals protocol ancestors name with
  | case1 => rfl
  | case2 => rfl
  | case3 parent child rest name ih =>
      rw [ih, way, List.cons_append]
      rfl

theorem way_below (protocol : String) {ancestors : List String} (hne : ancestors ≠ [])
    (name : String) : way protocol (ancestors ++ [name]) = ordinals protocol ancestors name := by
  induction ancestors with
  | nil => contradiction
  | cons parent rest ih =>
      cases rest with
      | nil => rfl
      | cons child rest =>
          rw [ordinals, ← ih (List.cons_ne_nil _ _)]
          rfl

/-- A text that is closed by a bracket ends at the first one. -/
private theorem append_bracket_inj {first second rest rest' : List Char} (hfirst : ']' ∉ first)
    (hsecond : ']' ∉ second) (h : first ++ ']' :: rest = second ++ ']' :: rest') :
    first = second ∧ rest = rest' := by
  induction first generalizing second with
  | nil =>
      cases second with
      | nil => exact ⟨rfl, (List.cons.inj h).2⟩
      | cons d second =>
          exact absurd (List.cons.inj h).1 fun heq => hsecond (heq ▸ List.mem_cons_self)
  | cons c first ih =>
      rw [List.mem_cons, not_or] at hfirst
      cases second with
      | nil => exact absurd (List.cons.inj h).1.symm hfirst.1
      | cons d second =>
          rw [List.mem_cons, not_or] at hsecond
          obtain ⟨rfl, hrest⟩ := List.cons.inj h
          obtain ⟨rfl, rfl⟩ := ih hfirst.2 hsecond.2 hrest
          exact ⟨rfl, rfl⟩

/-- An element behind the bracket of its first ordinal. -/
private def brackets (ordinals : List String) : List Char :=
  (String.intercalate "].Payload.pSubAttArray[" ordinals).toList ++ [']']

private theorem brackets_singleton (ordinal : String) :
    brackets [ordinal] = ordinal.toList ++ [']'] := by
  rw [brackets, String.intercalate_singleton]

private theorem brackets_cons_cons (first second : String) (rest : List String) :
    brackets (first :: second :: rest) =
      first.toList ++ ']' :: (".Payload.pSubAttArray[".toList ++ brackets (second :: rest)) := by
  rw [brackets, String.intercalate_cons_of_ne_nil (List.cons_ne_nil _ _)]
  simp [brackets]

/-- Ordinals without brackets are read off the element they spell. -/
theorem elementPath_inj {root : String} {first second : List String} (hfirst : first ≠ [])
    (hsecond : second ≠ []) (hplain : ∀ ordinal ∈ first, ']' ∉ ordinal.toList)
    (hplain' : ∀ ordinal ∈ second, ']' ∉ ordinal.toList)
    (h : elementPath root first = elementPath root second) : first = second := by
  have hbrackets : brackets first = brackets second := by
    have hlist := congrArg String.toList h
    simpa [elementPath, brackets, String.toList_append] using hlist
  clear h
  induction first generalizing second with
  | nil => contradiction
  | cons a first ih =>
      obtain ⟨b, second, rfl⟩ := List.exists_cons_of_ne_nil hsecond
      rw [List.forall_mem_cons] at hplain hplain'
      rcases first with _ | ⟨c, first⟩ <;> rcases second with _ | ⟨d, second⟩ <;>
        simp only [brackets_singleton, brackets_cons_cons] at hbrackets <;>
        obtain ⟨hhead, htail⟩ := append_bracket_inj hplain.1 hplain'.1 hbrackets
      · rw [String.toList_inj.mp hhead]
      · cases htail
      · cases htail
      · have hrest := ih (List.cons_ne_nil _ _) (List.cons_ne_nil _ _) hplain.2 hplain'.2
          (List.append_cancel_left htail)
        rw [String.toList_inj.mp hhead, hrest]

end Naming

namespace Firmware

/-! ## Elements of a command -/

/-- The elements of the attributes of a command. -/
def elementsOf (protocol root : String) (cmd : Command) : List Element :=
  cmd.positions.map (Position.element protocol root)

/-- The elements of a command are spelled differently. -/
theorem nodup_elements {protocol : Protocol} (hwell : WellFormed protocol) {cmd : Command}
    (hcmd : cmd ∈ protocol.commands) (root : String) :
    ((elementsOf protocol.name root cmd).map Element.text).Nodup := by
  have hpaths := List.pairwise_map.mp (Command.nodup_paths hwell hcmd)
  rw [elementsOf, List.map_map]
  refine List.pairwise_map.mpr (hpaths.imp_of_mem fun {p q} hp hq hne heq => hne ?_)
  have hplain {p : Position} (hp : p ∈ cmd.positions) :
      ∀ ordinal ∈ (p.element protocol.name root).ordinals, ']' ∉ ordinal.toList := by
    have hnames := List.forall_mem_append.mp (Command.isName_of_mem_path hwell hcmd hp)
    have hword := isWord_ordinals hwell.protocol_name (List.forall_mem_singleton.mp hnames.2)
      hnames.1
    exact fun ordinal hordinal hmem => absurd (hword ordinal hordinal ']' hmem) (by decide)
  have hordinals := Naming.elementPath_inj (Naming.ordinals_ne_nil _ _ _)
    (Naming.ordinals_ne_nil _ _ _) (hplain hp) (hplain hq) heq
  obtain ⟨rest, hrest⟩ := Command.exists_ancestors hp
  obtain ⟨rest', hrest'⟩ := Command.exists_ancestors hq
  rw [hrest, hrest'] at hordinals
  have hbelow := Naming.ordinals_inj rfl hordinals
  rw [Position.path, Position.path, hrest, hrest', List.cons_append, List.cons_append,
    List.map_cons, List.map_cons, hbelow]

/-! ## Sections -/

namespace Statement

/-- The element that a statement names, without those that the statements in it name. -/
def element? : Statement → Option Element
  | .takeNumber _ _ element | .takeLength _ element | .takePointer _ element
  | .ifCarried element _ _ | .putWidth element _ | .putAddress element _ | .putLength element _
  | .putTextLength element _ | .putPointer element _ | .putCount element _
  | .allocate _ element _ | .requireArray element | .putAbsent element _ => some element
  | _ => none

/-- The element that a statement names is spelled out in its first line. -/
theorem element_infix_lines {statement : Statement} {element : Element}
    (h : statement.element? = some element) (level : Nat) :
    ∃ line rest, statement.lines level = line :: rest ∧
      element.text.toList <:+: line.toList := by
  have hhere (ending : String) : element.text.toList <:+: (element.text ++ ending).toList := by
    rw [String.toList_append]
    exact (List.prefix_append _ _).isInfix
  have hbehind {start ending : String} (h : element.text.toList <:+: ending.toList) :
      element.text.toList <:+: (start ++ ending).toList := by
    rw [String.toList_append]
    exact h.trans (List.suffix_append _ _).isInfix
  cases statement <;> simp only [element?, reduceCtorEq, Option.some.injEq] at h <;> subst h <;>
    refine ⟨_, _, rfl, hbehind ?_⟩ <;>
    simp only [opening, Element.slotText, String.append_assoc]
  case takeNumber => exact hbehind (hbehind (hbehind (hhere _)))
  case takeLength | takePointer => exact hbehind (hbehind (hhere _))
  case requireArray | ifCarried => exact hbehind (hhere _)
  all_goals exact hhere _

/-- What follows the title in a heading. -/
def heading? (title : String) : Statement → Option String
  | .remark text =>
      if title.toList.isPrefixOf text.toList then
        some (String.ofList (text.toList.drop title.toList.length))
      else none
  | _ => none

@[simp]
theorem heading_remark_append (title name : String) :
    heading? title (.remark (title ++ name)) = some name := by
  simp [heading?]

/-- The element that a statement names is spelled on one of its lines. -/
theorem spelledOn_own {statement : Statement} {element : Element}
    (h : statement.element? = some element) (level : Nat) :
    ∃ line ∈ statement.lines level, element.text.toList <:+: line.toList := by
  obtain ⟨line, rest, hlines, htext⟩ := element_infix_lines h level
  exact ⟨line, hlines ▸ List.mem_cons_self, htext⟩

end Statement

/-- The statements under a heading: the attribute it is for, and the elements they name. -/
structure Section where
  name : String
  elements : List Element
deriving Repr, DecidableEq

/-- The elements that statements name in front of their first heading, and their sections. -/
structure Outline where
  front : List Element
  sections : List Section
deriving Repr, DecidableEq

mutual

/-- The outline of a statement that is no heading. -/
def Statement.outline (title : String) : Statement → Outline
  | .ifPresent _ body otherwise =>
      ⟨(outline title body).front ++ (outline title otherwise).front,
        (outline title body).sections ++ (outline title otherwise).sections⟩
  | .ifCarried source _ body =>
      ⟨source :: (outline title body).front, (outline title body).sections⟩
  | statement => ⟨statement.element?.toList, []⟩

/-- The outline of statements with headings of one title.  A heading is for what follows it up to
the next one, the bodies of tests included as far as they have no headings of their own. -/
def outline (title : String) : List Statement → Outline
  | [] => ⟨[], []⟩
  | statement :: rest =>
      match statement.heading? title with
      | some name =>
          ⟨[], ⟨name, (outline title rest).front⟩ :: (outline title rest).sections⟩
      | none =>
          ⟨(statement.outline title).front ++ (outline title rest).front,
            (statement.outline title).sections ++ (outline title rest).sections⟩

end

/-- All elements of an outline. -/
def Outline.elements (outline : Outline) : List Element :=
  outline.front ++ outline.sections.flatMap (·.elements)

/-- Elements that are spelled on lines. -/
def SpelledOn (lines : List String) (elements : List Element) : Prop :=
  ∀ element ∈ elements, ∃ line ∈ lines, element.text.toList <:+: line.toList

theorem SpelledOn.of_subset {lines more : List String} {elements fewer : List Element}
    (h : SpelledOn lines elements) (hlines : lines ⊆ more) (helements : fewer ⊆ elements) :
    SpelledOn more fewer := fun element helement => by
  obtain ⟨line, hline, htext⟩ := h element (helements helement)
  exact ⟨line, hlines hline, htext⟩

theorem SpelledOn.append {lines : List String} {first second : List Element}
    (hfirst : SpelledOn lines first) (hsecond : SpelledOn lines second) :
    SpelledOn lines (first ++ second) :=
  List.forall_mem_append.mpr ⟨hfirst, hsecond⟩

/-- The elements of two outlines one after the other, up to their order. -/
theorem elements_append_subset (first second : Outline) :
    Outline.elements ⟨first.front ++ second.front, first.sections ++ second.sections⟩ ⊆
      first.elements ++ second.elements := by
  intro element helement
  simp only [Outline.elements, List.mem_append, List.flatMap_append] at helement ⊢
  tauto

/-- The element of a statement that holds no others is spelled on its lines. -/
theorem spelledOn_of_elements {title : String} {statement : Statement}
    (h : (statement.outline title).elements = statement.element?.toList) (level : Nat) :
    SpelledOn (statement.lines level) (statement.outline title).elements := by
  rw [h]
  exact fun element helement => Statement.spelledOn_own (Option.mem_toList.mp helement) level

mutual

/-- The elements that a statement and those in it name are spelled on its lines. -/
theorem spelledOn_lines (title : String) (level : Nat) : (statement : Statement) →
    SpelledOn (statement.lines level) (statement.outline title).elements
  | .ifPresent bit body otherwise => by
      have hbody := spelledOn_allLines title (level + 1) body
      have hotherwise := spelledOn_allLines title (level + 1) otherwise
      have hlines : SpelledOn ((Statement.ifPresent bit body otherwise).lines level)
          (outline title body).elements := by
        refine hbody.of_subset (fun line hline => ?_) (List.Subset.refl _)
        rw [Statement.lines]
        simp [hline]
      have hmore : SpelledOn ((Statement.ifPresent bit body otherwise).lines level)
          (outline title otherwise).elements := by
        cases otherwise with
        | nil => exact fun _ h => by cases h
        | cons first rest =>
            refine hotherwise.of_subset (fun line hline => ?_) (List.Subset.refl _)
            rw [Statement.lines]
            simp [hline]
      exact (hlines.append hmore).of_subset (List.Subset.refl _) (elements_append_subset _ _)
  | .ifCarried source slot body => by
      have hbody := spelledOn_allLines title (level + 1) body
      have hlines : SpelledOn ((Statement.ifCarried source slot body).lines level)
          (outline title body).elements := by
        refine hbody.of_subset (fun line hline => ?_) (List.Subset.refl _)
        rw [Statement.lines]
        simp [hline]
      exact List.forall_mem_cons.mpr ⟨Statement.spelledOn_own rfl level, hlines⟩
  | .remark _ | .load _ _ | .notePresent _ | .clearPresence _ _ | .setPresence _
  | .takeNumber _ _ _ | .takeLength _ _ | .takePointer _ _ | .putWidth _ _ | .putAddress _ _
  | .putLength _ _ | .putTextLength _ _ | .putPointer _ _ | .putCount _ _ | .allocate _ _ _
  | .requireArray _ | .putAbsent _ _ => spelledOn_of_elements rfl level

/-- So are those that statements name. -/
theorem spelledOn_allLines (title : String) (level : Nat) : (body : List Statement) →
    SpelledOn (Statement.allLines level body) (outline title body).elements
  | [] => fun _ h => by cases h
  | statement :: rest => by
      have hstatement := spelledOn_lines title level statement
      have hrest := spelledOn_allLines title level rest
      rw [Statement.allLines, outline]
      split
      · refine hrest.of_subset (List.subset_append_right _ _) (List.Subset.refl _)
      · exact ((hstatement.of_subset (List.subset_append_left _ _) (List.Subset.refl _)).append
          (hrest.of_subset (List.subset_append_right _ _) (List.Subset.refl _))).of_subset
            (List.Subset.refl _) (elements_append_subset _ _)

end

theorem outline_heading (title name : String) (rest : List Statement) :
    outline title (.remark (title ++ name) :: rest) =
      ⟨[], ⟨name, (outline title rest).front⟩ :: (outline title rest).sections⟩ := by
  rw [outline, Statement.heading_remark_append]

/-- What stands in front of a heading keeps its own outline. -/
theorem outline_append {title : String} {first second : List Statement}
    (h : (outline title second).front = []) :
    outline title (first ++ second) = ⟨(outline title first).front,
      (outline title first).sections ++ (outline title second).sections⟩ := by
  induction first with
  | nil => rw [List.nil_append, outline, List.nil_append, ← h]
  | cons statement first ih =>
      rw [List.cons_append, outline, outline, ih]
      split
      · rfl
      · rw [List.append_assoc]

/-- A walk through a regular forest has a section for each attribute, if every visit puts a
heading in front of what it does. -/
theorem outline_visits {title : String} (walk : Group → Nat → List Attribute → List Statement)
    (visit : Position → List Statement) (named : Position → List Element)
    (hnil : ∀ group index, walk group index [] = [])
    (hcons : ∀ group index att rest,
      walk group index (att :: rest) = visit ⟨group, index, att⟩ ++ walk group (index + 1) rest)
    (hvisit : ∀ p : Position, p.node.Regular →
      (outline title (walk p.below 0 p.node.children)).front = [] →
        outline title (visit p) = ⟨[], ⟨p.node.name, named p⟩ ::
          (outline title (walk p.below 0 p.node.children)).sections⟩)
    (atts : List Attribute) : ∀ group index, (∀ att ∈ Attribute.forest atts, att.Regular) →
      outline title (walk group index atts) =
        ⟨[], (Position.ofTrees group index atts).map fun p => ⟨p.node.name, named p⟩⟩ := by
  induction atts using Attribute.forest_induction with
  | nil =>
      intro group index _
      rw [hnil]
      rfl
  | cons att rest ihbelow ihrest =>
      intro group index hregular
      obtain ⟨hatt, hbelow, hrest⟩ := Attribute.forall_mem_forest_cons.mp hregular
      have hnested := ihbelow (group.below att) 0 hbelow
      have hfollowing := ihrest group (index + 1) hrest
      have hown := hvisit ⟨group, index, att⟩ hatt (congrArg Outline.front hnested)
      rw [hcons, outline_append (congrArg Outline.front hfollowing), hown, hfollowing,
        Position.ofTrees_cons, List.map_cons, List.map_append, List.cons_append]
      exact congrArg (fun nested : Outline => Outline.mk [] (_ :: (nested.sections ++ _))) hnested

end Firmware

/-- How often an encoder names the element of a stored value. -/
def Storage.putCount : Storage → Nat
  | .nested => 3
  | _ => 2

/-- How often a decoder names the element of a stored value: not at all where it only goes
through to the elements below. -/
def Storage.takeCount : Storage → Nat
  | .nested => 0
  | .bytes => 2
  | _ => 1

namespace Position

/-- How often a function names the element of an attribute: with its value, and once more if the
attribute is optional. -/
def nameCount (count : Storage → Nat) (p : Position) : Nat :=
  (p.node.dataType.storage.map count).getD 0 + if p.node.optional then 1 else 0

/-- The sections of a function that names every element in its own section. -/
def sections (protocol root : String) (count : Storage → Nat) (positions : List Position) :
    List Firmware.Section :=
  positions.map fun p =>
    ⟨p.node.name, List.replicate (p.nameCount count) (p.element protocol root)⟩

end Position

namespace Firmware

/-- The title of a section of an encoder. -/
def fillTitle : String :=
  "Fill attribute "

/-- The title of a section of a decoder. -/
def retrieveTitle : String :=
  "Retrieve data of attribute "

variable {protocol : String} {p : Position} {storage : Storage}

/-- An encoder names the element of an attribute before it goes on to those below. -/
theorem outline_encodes (hleaf : storage = .nested ∨ p.node.children = [])
    (hbelow : (outline fillTitle
      (encodeAll protocol p.below.ancestors p.below.width 0 p.node.children)).front = []) :
    outline fillTitle (p.encodes protocol storage) =
      ⟨List.replicate storage.putCount (p.element protocol Naming.transmitRoot),
        (outline fillTitle
          (encodeAll protocol p.below.ancestors p.below.width 0 p.node.children)).sections⟩ := by
  have hgroup : encodeGroup protocol p.below.ancestors p.node.children =
      encodeAll protocol p.below.ancestors p.below.width 0 p.node.children := rfl
  cases storage with
  | nested =>
      simp [Position.encodes, outline, Statement.outline, Statement.heading?, Statement.element?,
        hgroup, hbelow, Storage.putCount, List.replicate_succ]
  | scalar | bytes | text =>
      obtain hnested | hleaf := hleaf
      · cases hnested
      · simp [Position.encodes, outline, Statement.outline, Statement.heading?,
          Statement.element?, hleaf, encodeAll, Storage.putCount, List.replicate_succ]

/-- An encoder has one section for each attribute. -/
theorem outline_encodeAll (group : Group) (index : Nat) (atts : List Attribute)
    (hregular : ∀ att ∈ Attribute.forest atts, att.Regular) :
    outline fillTitle (encodeAll protocol group.ancestors group.width index atts) =
      ⟨[], Position.sections protocol Naming.transmitRoot Storage.putCount
        (Position.ofTrees group index atts)⟩ := by
  refine outline_visits
    (fun group index atts => encodeAll protocol group.ancestors group.width index atts)
    (fun p => encode protocol p.group.ancestors p.group.width p.index p.node) _
    (fun _ _ => rfl) (fun _ _ _ _ => rfl) (fun p hnode hbelow => ?_) atts group index hregular
  obtain ⟨storage, hstorage, hleaf⟩ := hnode.stores
  have hvalue := outline_encodes hleaf hbelow
  rw [encode_eq hstorage]
  refine (outline_heading fillTitle p.node.name _).trans ?_
  cases hoptional : p.node.optional with
  | false => simp [hvalue, Position.nameCount, hstorage, hoptional]
  | true =>
      simp [outline, Statement.outline, Statement.heading?, Statement.element?, hvalue,
        Position.nameCount, hstorage, hoptional, List.replicate_succ']

/-- A decoder clears presence bits without naming an element. -/
theorem outline_clearGroup (groups : List String) (atts : List Attribute) :
    outline retrieveTitle (clearGroup groups atts) = ⟨[], []⟩ := by
  rw [clearGroup]
  split <;> rfl

/-- A decoder names the element of a value, and goes through that of a group. -/
theorem outline_decodes (hleaf : storage = .nested ∨ p.node.children = [])
    (hbelow : (outline retrieveTitle
      (decodeAll protocol p.below.ancestors p.below.width 0 p.node.children)).front = []) :
    outline retrieveTitle (p.decodes protocol storage) =
      ⟨List.replicate storage.takeCount (p.element protocol Naming.receiveRoot),
        (outline retrieveTitle
          (decodeAll protocol p.below.ancestors p.below.width 0 p.node.children)).sections⟩ := by
  have hgroup : decodeGroup protocol p.below.ancestors p.node.children =
      clearGroup p.below.ancestors p.node.children ++
        decodeAll protocol p.below.ancestors p.below.width 0 p.node.children := rfl
  cases storage with
  | nested =>
      rw [Position.decodes, hgroup, outline_append hbelow, outline_clearGroup]
      rfl
  | scalar | bytes | text =>
      obtain hnested | hleaf := hleaf
      · cases hnested
      · simp [Position.decodes, outline, Statement.outline, Statement.heading?,
          Statement.element?, hleaf, decodeAll, Storage.takeCount, List.replicate_succ]

/-- A decoder has one section for each attribute. -/
theorem outline_decodeAll (group : Group) (index : Nat) (atts : List Attribute)
    (hregular : ∀ att ∈ Attribute.forest atts, att.Regular) :
    outline retrieveTitle (decodeAll protocol group.ancestors group.width index atts) =
      ⟨[], Position.sections protocol Naming.receiveRoot Storage.takeCount
        (Position.ofTrees group index atts)⟩ := by
  refine outline_visits
    (fun group index atts => decodeAll protocol group.ancestors group.width index atts)
    (fun p => decode protocol p.group.ancestors p.group.width p.index p.node) _
    (fun _ _ => rfl) (fun _ _ _ _ => rfl) (fun p hnode hbelow => ?_) atts group index hregular
  obtain ⟨storage, hstorage, hleaf⟩ := hnode.stores
  have hvalue := outline_decodes hleaf hbelow
  rw [decode_eq hstorage]
  refine (outline_heading retrieveTitle p.node.name _).trans ?_
  cases hoptional : p.node.optional with
  | false => simp [hvalue, Position.nameCount, hstorage, hoptional]
  | true =>
      simp [outline, Statement.outline, Statement.heading?, Statement.element?, hvalue,
        Position.nameCount, hstorage, hoptional, List.replicate_succ]

/-! ## Elements on the way -/

/-- The elements on the way to an element, itself the last. -/
def Element.trail (element : Element) : List Element :=
  element.ordinals.inits.tail.map (⟨element.root, ·⟩)

/-- The elements on the way to a group. -/
def trailTo (protocol root : String) (group : Group) : List Element :=
  (Element.mk root (Naming.way protocol group.ancestors)).trail

theorem trail_element (protocol root : String) (p : Position) :
    (p.element protocol root).trail =
      trailTo protocol root p.group ++ [p.element protocol root] := by
  have hinits : (Naming.way protocol p.group.ancestors).inits ≠ [] :=
    List.ne_nil_of_length_pos (by simp)
  rw [Position.element, Naming.ordinals_eq, Element.trail, List.inits_append,
    List.tail_append_of_ne_nil hinits, List.map_append]
  rfl

theorem trailTo_below (protocol root : String) {p : Position} (h : p.group.ancestors ≠ []) :
    trailTo protocol root p.below = (p.element protocol root).trail :=
  congrArg (fun ordinals => (Element.mk root ordinals).trail)
    (Naming.way_below protocol h p.node.name)

/-- Add an element to those come across, unless it is one of them. -/
def note (seen : List Element) (element : Element) : List Element :=
  if element ∈ seen then seen else seen ++ [element]

/-- The elements on the way to those that sections name. -/
def trails (sections : List Section) : List Element :=
  sections.flatMap fun part => part.elements.flatMap Element.trail

/-- The elements that sections come across, in the order in which they first do. -/
def addressed (sections : List Section) : List Element :=
  (trails sections).foldl note []

variable {element : Element} {elements seen : List Element}

theorem note_of_not_mem (h : element ∉ seen) : note seen element = seen ++ [element] :=
  if_neg h

theorem mem_foldl_note :
    element ∈ elements.foldl note seen ↔ element ∈ seen ∨ element ∈ elements := by
  induction elements generalizing seen with
  | nil => simp
  | cons first rest ih =>
      rw [List.foldl_cons, ih, note, List.mem_cons, ← or_assoc]
      split
      next hfirst =>
        constructor
        · rintro (h | h)
          · exact .inl (.inl h)
          · exact .inr h
        · rintro ((h | rfl) | h)
          · exact .inl h
          · exact .inl hfirst
          · exact .inr h
      next => rw [List.mem_append, List.mem_singleton]

theorem foldl_note_of_subset (h : elements ⊆ seen) : elements.foldl note seen = seen := by
  induction elements with
  | nil => rfl
  | cons first rest ih =>
      rw [List.cons_subset] at h
      rw [List.foldl_cons, note, if_pos h.1, ih h.2]

theorem flatten_replicate_subset (count : Nat) (elements : List Element) :
    (List.replicate count elements).flatten ⊆ elements := by
  intro element h
  obtain ⟨_, hmem, h⟩ := List.mem_flatten.mp h
  exact List.eq_of_mem_replicate hmem ▸ h

/-- Elements come across several times are noted once. -/
theorem foldl_note_replicate (count : Nat) :
    elements.foldl note ((List.replicate count elements).flatten.foldl note seen) =
      elements.foldl note seen := by
  cases count with
  | zero => rfl
  | succ count =>
      have hseen : elements ⊆ elements.foldl note seen := fun _ h => mem_foldl_note.mpr (.inr h)
      rw [List.replicate_succ, List.flatten_cons, List.foldl_append,
        foldl_note_of_subset (List.Subset.trans (flatten_replicate_subset count elements) hseen),
        foldl_note_of_subset hseen]

/-- On the way to an attribute that is new, the elements above it and then its own are noted. -/
theorem foldl_note_trail {root : String}
    (h : p.element protocol root ∉ seen ++ trailTo protocol root p.group) :
    (p.element protocol root).trail.foldl note seen =
      (trailTo protocol root p.group).foldl note seen ++ [p.element protocol root] := by
  rw [trail_element, List.foldl_append]
  exact note_of_not_mem (mt mem_foldl_note.mp (mt List.mem_append.mpr h))

/-- The elements on the way to those in the section of an attribute. -/
def ownTrails (protocol root : String) (count : Storage → Nat) (p : Position) : List Element :=
  (List.replicate (p.nameCount count) (p.element protocol root).trail).flatten

theorem trails_sections (protocol root : String) (count : Storage → Nat)
    (positions : List Position) :
    trails (Position.sections protocol root count positions) =
      positions.flatMap (ownTrails protocol root count) := by
  rw [trails, Position.sections, List.flatMap_map]
  exact List.flatMap_congr fun p _ => List.flatMap_replicate

/-- Whatever was noted before, as long as it holds none of them, the elements of positions are noted
in their order, behind those on the way to their group. -/
def NotedInOrder (protocol root : String) (count : Storage → Nat) (group : Group)
    (positions : List Position) : Prop :=
  (positions.map (Position.element protocol root)).Nodup → ∀ seen : List Element,
    (positions = [] → trailTo protocol root group ⊆ seen) →
    (∀ p ∈ positions, p.element protocol root ∉ seen ++ trailTo protocol root group) →
      (positions.flatMap (ownTrails protocol root count)).foldl note seen =
        (trailTo protocol root group).foldl note seen ++
          positions.map (Position.element protocol root)

section Order

variable {root : String} {count : Storage → Nat} {group : Group}

theorem NotedInOrder.nil : NotedInOrder protocol root count group [] := by
  intro _ seen hway _
  rw [foldl_note_of_subset (hway rfl)]
  exact (List.append_nil _).symm

/-- Positions of a group may be followed by more of them. -/
theorem NotedInOrder.append {first second : List Position} (hne : first ≠ [])
    (hfirst : NotedInOrder protocol root count group first)
    (hsecond : NotedInOrder protocol root count group second) :
    NotedInOrder protocol root count group (first ++ second) := by
  intro hnodup seen _ hnew
  rw [List.map_append, List.nodup_append] at hnodup
  obtain ⟨hnodupFirst, hnodupSecond, hapart⟩ := hnodup
  rw [List.forall_mem_append] at hnew
  have hnoted := hfirst hnodupFirst seen (absurd · hne) hnew.1
  have hway : trailTo protocol root group ⊆
      (first.flatMap (ownTrails protocol root count)).foldl note seen := by
    rw [hnoted]
    exact fun element h => List.mem_append_left _ (mem_foldl_note.mpr (.inr h))
  rw [List.flatMap_append, List.foldl_append, hsecond hnodupSecond _ (fun _ => hway) ?_,
    foldl_note_of_subset hway, hnoted, List.map_append, List.append_assoc]
  intro q hq h
  rw [hnoted, List.mem_append, List.mem_append, mem_foldl_note, ← List.mem_append] at h
  rcases h with (h | h) | h
  · exact hnew.2 q hq h
  · exact hapart _ h _ (List.mem_map_of_mem hq) rfl
  · exact hnew.2 q hq (List.mem_append_right _ h)

/-- An attribute is noted before those below it, be it in its own section or, if that names no
element, on the way to the first of them. -/
theorem NotedInOrder.tree {below : List Position} (hancestors : p.group.ancestors ≠ [])
    (hcount : p.nameCount count = 0 → below ≠ [])
    (hbelow : NotedInOrder protocol root count p.below below) :
    NotedInOrder protocol root count p.group (p :: below) := by
  intro hnodup seen _ hnew
  rw [List.map_cons, List.nodup_cons] at hnodup
  rw [List.forall_mem_cons] at hnew
  have htrail : trailTo protocol root p.below = (p.element protocol root).trail :=
    trailTo_below protocol root hancestors
  have hway : below = [] →
      trailTo protocol root p.below ⊆ (ownTrails protocol root count p).foldl note seen := by
    intro hnone element h
    have hpositive : p.nameCount count ≠ 0 := fun hzero => hcount hzero hnone
    obtain ⟨more, hmore⟩ := Nat.exists_eq_succ_of_ne_zero hpositive
    rw [mem_foldl_note, ownTrails, hmore, List.replicate_succ, List.flatten_cons, ← htrail]
    exact .inr (List.mem_append_left _ h)
  have hnested := hbelow hnodup.2 ((ownTrails protocol root count p).foldl note seen) hway ?_
  · rw [htrail, ownTrails, foldl_note_replicate, foldl_note_trail hnew.1] at hnested
    rw [List.flatMap_cons, List.foldl_append, ownTrails, hnested, List.append_assoc]
    rfl
  · intro q hq h
    have hor : q.element protocol root ∈ seen ∨
        q.element protocol root ∈ (p.element protocol root).trail := by
      rcases List.mem_append.mp h with h | h
      · exact (mem_foldl_note.mp h).imp_right (@flatten_replicate_subset _ _ _)
      · exact .inr (htrail ▸ h)
    rw [trail_element, List.mem_append, ← or_assoc, ← List.mem_append, List.mem_singleton] at hor
    rcases hor with h | h
    · exact hnew.2 q hq h
    · exact hnodup.1 (h ▸ List.mem_map_of_mem hq)

/-- The attributes of a regular forest are noted in their order. -/
theorem notedInOrder_ofTrees
    (hcount : ∀ p : Position, p.node.Regular → p.nameCount count = 0 → p.node.children ≠ [])
    (atts : List Attribute) : ∀ (group : Group) (index : Nat), group.ancestors ≠ [] →
      (∀ att ∈ Attribute.forest atts, att.Regular) →
        NotedInOrder protocol root count group (Position.ofTrees group index atts) := by
  induction atts using Attribute.forest_induction with
  | nil => exact fun _ _ _ _ => .nil
  | cons att rest ihbelow ihrest =>
      intro group index hancestors hregular
      obtain ⟨hatt, hbelow, hrest⟩ := Attribute.forall_mem_forest_cons.mp hregular
      let p : Position := ⟨group, index, att⟩
      have hancestors' : (group.below att).ancestors ≠ [] :=
        List.append_ne_nil_of_right_ne_nil _ (List.cons_ne_nil _ _)
      have hcountBelow : p.nameCount count = 0 →
          Position.ofTrees (group.below att) 0 att.children ≠ [] := by
        intro hzero hnone
        obtain ⟨child, children, hchildren⟩ :=
          List.exists_cons_of_ne_nil (hcount p hatt hzero)
        rw [show att.children = _ from hchildren, Position.ofTrees_cons] at hnone
        cases hnone
      rw [Position.ofTrees_cons, ← List.cons_append]
      exact .append (List.cons_ne_nil _ _)
        (.tree hancestors hcountBelow (ihbelow (group.below att) 0 hancestors' hbelow))
        (ihrest group (index + 1) hancestors hrest)

end Order

/-! ## Agreement -/

/-- The encoder and the decoder of a command use one element for each of its attributes. -/
structure ElementsAgree (protocol : String) (cmd : Command) : Prop where
  /-- Different attributes have elements of different spellings. -/
  distinct : ∀ root, ((elementsOf protocol root cmd).map Element.text).Nodup
  /-- The encoder has a section for each attribute, in which it names its element only. -/
  filled : outline fillTitle (Encoder.ofCommand protocol cmd).body =
    ⟨[], Position.sections protocol Naming.transmitRoot Storage.putCount cmd.positions⟩
  /-- The decoder has a section for each attribute, in which it names its element only. -/
  retrieved : outline retrieveTitle (Decoder.ofCommand protocol cmd).body =
    ⟨[], Position.sections protocol Naming.receiveRoot Storage.takeCount cmd.positions⟩
  /-- The sections of the encoder come across the elements of all attributes in their order. -/
  addressed_encoder :
    addressed (outline fillTitle (Encoder.ofCommand protocol cmd).body).sections =
      elementsOf protocol Naming.transmitRoot cmd
  /-- The sections of the decoder come across the elements of all attributes in their order. -/
  addressed_decoder :
    addressed (outline retrieveTitle (Decoder.ofCommand protocol cmd).body).sections =
      elementsOf protocol Naming.receiveRoot cmd
  /-- Encoder and decoder come across the same elements, but for the root. -/
  same : addressed (outline fillTitle (Encoder.ofCommand protocol cmd).body).sections =
    (addressed (outline retrieveTitle (Decoder.ofCommand protocol cmd).body).sections).map
      fun element => { element with root := Naming.transmitRoot }
  /-- Every element that the encoder names is spelled on one of its lines. -/
  spelled_encoder : SpelledOn (Encoder.ofCommand protocol cmd).lines
    (outline fillTitle (Encoder.ofCommand protocol cmd).body).elements
  /-- Every element that the decoder names is spelled on one of its lines. -/
  spelled_decoder : SpelledOn (Decoder.ofCommand protocol cmd).lines
    (outline retrieveTitle (Decoder.ofCommand protocol cmd).body).elements

/-- Sections that name the elements of a command in its order come across all of them. -/
theorem addressed_sections {protocol : Protocol} (hwell : WellFormed protocol) {cmd : Command}
    (hcmd : cmd ∈ protocol.commands) (root : String) {count : Storage → Nat}
    (hcount : ∀ p : Position, p.node.Regular → p.nameCount count = 0 → p.node.children ≠ []) :
    addressed (Position.sections protocol.name root count cmd.positions) =
      elementsOf protocol.name root cmd := by
  have hnoted := notedInOrder_ofTrees hcount cmd.attributes cmd.group 0 (List.cons_ne_nil _ _)
    (hwell.regular hcmd) (List.Nodup.of_map _ (nodup_elements hwell hcmd root)) []
    (fun _ => List.nil_subset _) fun _ _ => List.not_mem_nil
  rw [addressed, trails_sections]
  exact hnoted

/-- Every section of an encoder names an element. -/
theorem nameCount_putCount_ne_zero (hnode : p.node.Regular) : p.nameCount Storage.putCount ≠ 0 := by
  obtain ⟨storage, hstorage, -⟩ := hnode.stores
  rw [Position.nameCount, hstorage]
  cases storage <;> simp [Storage.putCount]

/-- A section of a decoder names no element only if others are below it. -/
theorem children_ne_nil_of_nameCount (hnode : p.node.Regular)
    (h : p.nameCount Storage.takeCount = 0) : p.node.children ≠ [] := by
  obtain ⟨storage, hstorage, -⟩ := hnode.stores
  rw [Position.nameCount, hstorage, Nat.add_eq_zero_iff] at h
  have hnested : storage = .nested := by
    cases storage with
    | nested => rfl
    | scalar | bytes | text => cases h.1
  rw [hnode.children]
  subst hnested
  exact (by simpa [Attribute.isComplex] using Attribute.storage_eq_nested_iff.mp hstorage)

/-- For every command of an accepted protocol, encoder and decoder use one element for each
attribute. -/
theorem elementsAgree_of_prepare {protocol : Protocol} {prepared : Prepared}
    (h : prepare protocol = .ok prepared) {cmd : Command} (hcmd : cmd ∈ protocol.commands) :
    ElementsAgree protocol.name cmd := by
  obtain ⟨-, hwell⟩ := wellFormed_of_prepare h
  have hregular := hwell.regular hcmd
  have hfilled : outline fillTitle (Encoder.ofCommand protocol.name cmd).body =
      ⟨[], Position.sections protocol.name Naming.transmitRoot Storage.putCount cmd.positions⟩ :=
    outline_encodeAll cmd.group 0 cmd.attributes hregular
  have hretrieved : outline retrieveTitle (Decoder.ofCommand protocol.name cmd).body =
      ⟨[], Position.sections protocol.name Naming.receiveRoot Storage.takeCount cmd.positions⟩ := by
    have hwalk := @outline_decodeAll protocol.name cmd.group 0 cmd.attributes hregular
    refine (outline_append (congrArg Outline.front hwalk)).trans ?_
    rw [outline_clearGroup]
    exact congrArg (fun walk : Outline => Outline.mk [] walk.sections) hwalk
  have hencoder := addressed_sections hwell hcmd Naming.transmitRoot
    fun p hnode hzero => absurd hzero (nameCount_putCount_ne_zero hnode)
  have hdecoder := addressed_sections hwell hcmd Naming.receiveRoot
    fun p hnode => children_ne_nil_of_nameCount hnode
  have hsame : elementsOf protocol.name Naming.transmitRoot cmd =
      (elementsOf protocol.name Naming.receiveRoot cmd).map
        fun element => { element with root := Naming.transmitRoot } := by
    rw [elementsOf, elementsOf, List.map_map]
    rfl
  refine ⟨nodup_elements hwell hcmd, hfilled, hretrieved, ?_, ?_, ?_, ?_, ?_⟩
  · rw [hfilled, hencoder]
  · rw [hretrieved, hdecoder]
  · rw [hfilled, hencoder, hretrieved, hdecoder, hsame]
  · exact (spelledOn_allLines fillTitle 1 _).of_subset (fun line hline => by
      simp [Encoder.lines, hline]) (List.Subset.refl _)
  · exact (spelledOn_allLines retrieveTitle 1 _).of_subset (fun line hline => by
      simp [Decoder.lines, hline]) (List.Subset.refl _)

/-- Encoder and decoder of the meter use the same elements. -/
theorem elementsAgree_meter : prepare meter = .ok (Prepared.ofProtocol meter) ∧
    ∀ cmd ∈ meter.commands, ElementsAgree meter.name cmd :=
  ⟨prepare_meter, fun _ hcmd => elementsAgree_of_prepare prepare_meter hcmd⟩

example : (meter.commands.flatMap (elementsOf meter.name Naming.receiveRoot)).map Element.text =
    ["pAttArray[METER_READ_ATT_RAW]", "pAttArray[METER_READ_ATT_TARGET]",
      "pAttArray[METER_READ_ATT_TARGET].Payload.pSubAttArray[METER_TARGET_ATT_UNIT]",
      "pAttArray[METER_READ_ATT_TARGET].Payload.pSubAttArray[METER_TARGET_ATT_RANGE]",
      "pAttArray[METER_READ_ATT_TARGET].Payload.pSubAttArray[METER_TARGET_ATT_RANGE]" ++
        ".Payload.pSubAttArray[METER_RANGE_ATT_LOW]",
      "pAttArray[METER_READ_ATT_TARGET].Payload.pSubAttArray[METER_TARGET_ATT_LABEL]"] := by
  decide

end Firmware

end CommandSet
