import CommandSet.Proofs.Firmware.AttributeLists
import CommandSet.Proofs.Firmware.Execution
import Mathlib.Algebra.GroupWithZero.Nat
import Mathlib.Algebra.Order.BigOperators.Group.List

/-!
# The arena

An encoder takes the attribute arrays of a command from an arena that is emptied for every
command.  What it takes depends on the attributes that are present: an absent complex attribute
saves its own array and all arrays below it.  The calls are read off the lines of the encoder
that run, and they are those for a sublist of the attributes, so they never need more than all
attributes do.

Main definitions:

- {lit}`AllPresent`, {lit}`Granted`: runs in which all attributes are there, and in which no
  array is refused.
- {lit}`Filled`: lines that allocate the arrays of some attributes.
- {lit}`arrayLengths`: the lengths of the arrays of a command and of some of its attributes.
- {lit}`takeSlots`: taking an array from an arena.
- {lit}`ArenaSuffices`: an encoder that gets all arrays it asks for.

Main results:

- Theorem {lit}`exists_filled_encodeAll`: the arrays of a run are those of a sublist of the
  attributes.
- Theorem {lit}`sum_slots`: all arrays together have a slot for every attribute.
- Theorem {lit}`arena_suffices`: the arena of a bridge is long enough for every run.
-/

namespace CommandSet

open Firmware

/-- What an encoder writes for the value of an attribute itself, up to the check of its array. -/
def Position.fills (protocol : String) (p : Position) : Storage → List String
  | .nested =>
      [Statement.text (.putCount (p.element protocol Naming.transmitRoot)
          (Naming.subAttributeCount protocol p.node.name)),
        Statement.text (.allocate protocol (p.element protocol Naming.transmitRoot)
          (Naming.subAttributeCount protocol p.node.name))]
  | storage => (p.encodes protocol storage).map Statement.text

namespace Firmware

/-! ## Lines of an encoder -/

theorem returns_of_head {text : String} {c : Char} (hhead : text.toList.head? = some c)
    (hc : c ≠ ' ' ∧ c ≠ 'r') (level : Nat) : returns (indent level text) = false := by
  obtain ⟨rest, htext⟩ := List.head?_eq_some_iff.mp hhead
  have hflush : Flush text := by
    rw [Flush, hhead]
    simpa using hc.1
  rw [returns, unindented_indent hflush, htext]
  simp [List.isPrefixOf, hc.2.symm]

/-- Texts that neither hold a brace nor return. -/
structure Continues (text : String) : Prop where
  flat : FlatText text
  returns : ∀ level, returns (indent level text) = false

theorem continues_of_head {text : String} {c : Char} (hhead : text.toList.head? = some c)
    (hc : c ≠ ' ' ∧ c ≠ 'r') (hbraces : Avoids lineBreaks text) : Continues text where
  flat := ⟨by rw [Flush, hhead]; simpa using hc.1, hbraces⟩
  returns := returns_of_head hhead hc

section Lines

variable {protocol : String} {p : Position} (hprotocol : IsName protocol)
  (hpath : ∀ name ∈ p.path, IsName name)

include hprotocol hpath

/-- An element and its slots are spelled without braces. -/
theorem avoids_target : Avoids lineBreaks (p.element protocol Naming.transmitRoot).text ∧
    ∀ slot, Avoids lineBreaks ((p.element protocol Naming.transmitRoot).slotText slot) := by
  have helement : Avoids lineBreaks (p.element protocol Naming.transmitRoot).text :=
    avoids_elementText hprotocol hpath (by decide) (by decide) (by decide)
  exact ⟨helement, avoids_slotText helement (by decide)⟩

/-- What an encoder puts into an element continues. -/
theorem continues_put {value : String} (hvalue : Avoids lineBreaks value) {text : String} :
    let target := p.element protocol Naming.transmitRoot
    (text = target.text ++ ".PayloadSize = " ++ value → Continues text) ∧
      ∀ slot, text = target.slotText slot ++ " = " ++ value → Continues text := by
  obtain ⟨helement, hslot⟩ := avoids_target hprotocol hpath
  constructor
  · rintro rfl
    refine continues_of_head (c := '(') ?_ (by decide)
      (avoids_append.mpr ⟨avoids_append.mpr ⟨helement, by decide⟩, hvalue⟩)
    simp [Element.text, Naming.elementPath, Naming.transmitRoot, Position.element]
  · rintro slot rfl
    refine continues_of_head (c := '(') ?_ (by decide)
      (avoids_append.mpr ⟨avoids_append.mpr ⟨hslot slot, by decide⟩, hvalue⟩)
    simp [Element.slotText, Element.text, Naming.elementPath, Naming.transmitRoot,
      Position.element]

/-- What an encoder writes for a value continues. -/
theorem continues_fills (storage : Storage) :
    ∀ text ∈ p.fills protocol storage, Continues text := by
  let target := p.element protocol Naming.transmitRoot
  have hname := isName_node hpath
  have hsize {value : String} (hvalue : Avoids lineBreaks value) (statement : Statement) :=
    (@continues_put protocol p hprotocol hpath value hvalue statement.text).1
  have hslot {value : String} (hvalue : Avoids lineBreaks value) (statement : Statement) :=
    (@continues_put protocol p hprotocol hpath value hvalue statement.text).2
  have hplace (front : String) {member : String} (hmember : IsWord member) (back : String)
      (hplain : Avoids lineBreaks front ∧ Avoids lineBreaks back) :
      Avoids lineBreaks (front ++ (p.place member).text ++ back) :=
    avoids_append.mpr ⟨avoids_append.mpr ⟨hplain.1, avoids_placeText (by decide) (by decide)
      (List.forall_mem_append.mp hpath).1 hmember⟩, hplain.2⟩
  have hpointer := hslot (hplace "" (isWord_pointerMember hname) ";" (by decide))
    (.putPointer target (p.place (pointerMember p.node.name))) .data
    (by simp [target, ← String.toList_inj])
  cases storage with
  | scalar scalar =>
      have hscalar : Avoids lineBreaks ("sizeof(" ++ scalar.cName ++ ");") := by
        cases scalar <;> decide
      refine List.forall_mem_cons.mpr ⟨?_, List.forall_mem_singleton.mpr ?_⟩
      · exact hsize hscalar (.putWidth target scalar) (by simp [target, ← String.toList_inj])
      · exact hslot (hplace "&(" (isWord_numberMember hname) ");" (by decide))
          (.putAddress target (p.place (numberMember p.node.name))) .data
          (by simp [target, ← String.toList_inj])
  | bytes =>
      refine List.forall_mem_cons.mpr ⟨?_, List.forall_mem_singleton.mpr hpointer⟩
      exact hsize (hplace "" (isWord_sizeMember hname) ";" (by decide))
        (.putLength target (p.place (sizeMember p.node.name)))
        (by simp [target, ← String.toList_inj])
  | text =>
      refine List.forall_mem_cons.mpr ⟨?_, List.forall_mem_singleton.mpr hpointer⟩
      exact hsize (hplace "strlen(" (isWord_pointerMember hname) ");" (by decide))
        (.putTextLength target (p.place (pointerMember p.node.name)))
        (by simp [target, ← String.toList_inj])
  | nested =>
      let count := Naming.subAttributeCount protocol p.node.name
      have hcount : IsWord count := isWord_subAttributeCount hprotocol hname
      have hcall : Avoids lineBreaks (allocateCall protocol count ++ ";") :=
        avoids_append.mpr
          ⟨avoids_allocateCall (by decide) (by decide) hprotocol hcount, by decide⟩
      have hending : Avoids lineBreaks (count ++ ";") :=
        avoids_append.mpr ⟨hcount.avoids (by decide), by decide⟩
      refine List.forall_mem_cons.mpr ⟨?_, List.forall_mem_singleton.mpr ?_⟩
      · exact hsize hending (.putCount target count)
          (by simp [target, count, ← String.toList_inj])
      · exact hslot hcall (.allocate protocol target count) .subArray
          (by simp [target, count, ← String.toList_inj])

/-- The arrays that are allocated for a value itself. -/
theorem filterMap_fills {storage : Storage} (hstorage : p.node.dataType.storage = some storage) :
    (p.fills protocol storage).filterMap (allocated? protocol) =
      if p.node.isComplex then [p.array protocol] else [] := by
  have hown : ((p.ownEncodes protocol storage).map Statement.text).filterMap
      (allocated? protocol) = if p.node.isComplex then [p.array protocol] else [] := by
    rw [← filterMap_allocation hprotocol (isName_node hpath) hstorage,
      ← read_ownEncodes hprotocol hpath, List.filterMap_filterMap]
    rfl
  rw [← hown]
  cases storage with
  | nested =>
      have hrequire : allocated? protocol
          (Statement.text (.requireArray (p.element protocol Naming.transmitRoot))) = none := by
        rw [allocated?, sides_requireArray hprotocol hpath]
        rfl
      have hlist : (p.ownEncodes protocol .nested).map Statement.text =
          p.fills protocol .nested ++
            [Statement.text (.requireArray (p.element protocol Naming.transmitRoot))] := rfl
      rw [hlist, List.filterMap_append, List.filterMap_cons_none hrequire, List.filterMap_nil,
        List.append_nil]
  | _ => rfl

end Lines

/-! ## Runs -/

/-- All optional ones among some attributes are present. -/
def AllPresent (protocol : String) (holds : String → Bool) (positions : List Position) : Prop :=
  ∀ p ∈ positions, p.node.optional = true → holds (p.bit protocol).testText = true

/-- No pointer is found to be null. -/
def Granted (holds : String → Bool) : Prop :=
  ∀ condition, " == NULL)".toList <:+ condition.toList → holds condition = false

/-- The arrays of the complex ones among some attributes. -/
def arrays (protocol : String) (positions : List Position) : List (String × String) :=
  (positions.filter (·.node.isComplex)).map (Position.array protocol)

theorem arrays_append (protocol : String) (first second : List Position) :
    arrays protocol (first ++ second) = arrays protocol first ++ arrays protocol second := by
  rw [arrays, List.filter_append, List.map_append, arrays, arrays]

/-- Lines that encode some attributes.  Where they are entered they allocate the arrays of some of
the attributes, of all if all are present, and return only if an array is refused. -/
structure Filled (protocol : String) (holds : String → Bool) (blocks : List Bool)
    (positions : List Position) (lines reached : List String) (visited : List Position) : Prop where
  enters : Enters holds blocks lines reached
  sublist : visited.Sublist positions
  arrays : reached.filterMap (allocated? protocol) = arrays protocol visited
  granted : Granted holds → ∀ line ∈ reached, returns line = false
  present : AllPresent protocol holds positions → blocks.all id = true → visited = positions

section Filled

variable {protocol : String} {holds : String → Bool} {blocks : List Bool}
  {positions positions' visited visited' : List Position}
  {lines lines' reached reached' : List String}

theorem Filled.nil : Filled protocol holds blocks [] [] [] [] :=
  ⟨.nil, List.nil_sublist _, rfl, fun _ => List.forall_mem_nil _, fun _ _ => rfl⟩

theorem Filled.append (h : Filled protocol holds blocks positions lines reached visited)
    (h' : Filled protocol holds blocks positions' lines' reached' visited') :
    Filled protocol holds blocks (positions ++ positions') (lines ++ lines') (reached ++ reached')
      (visited ++ visited') where
  enters := h.enters.append h'.enters
  sublist := h.sublist.append h'.sublist
  arrays := by rw [List.filterMap_append, h.arrays, h'.arrays, arrays_append]
  granted := fun hgranted =>
    List.forall_mem_append.mpr ⟨h.granted hgranted, h'.granted hgranted⟩
  present := fun hpresent hblocks => by
    rw [AllPresent, List.forall_mem_append] at hpresent
    rw [h.present hpresent.1 hblocks, h'.present hpresent.2 hblocks]

theorem allocated_indent (protocol : String) (level : Nat) (text : String) :
    allocated? protocol (indent level text) = allocated? protocol text := by
  rw [allocated?, sides_indent, allocated?]

/-- Lines of one attribute. -/
theorem Filled.texts {texts : List String} (h : ∀ text ∈ texts, Continues text) (level : Nat)
    (harrays : texts.filterMap (allocated? protocol) = Firmware.arrays protocol positions) :
    Filled protocol holds blocks positions (texts.map (indent level))
      (if blocks.all id then texts.map (indent level) else [])
      (if blocks.all id then positions else []) where
  enters := Enters.lines (fun text htext => (h text htext).flat) level
  sublist := by
    split
    · exact List.Sublist.refl _
    · exact List.nil_sublist _
  arrays := by
    split
    · rw [List.filterMap_map, ← harrays]
      exact List.filterMap_congr fun text _ => allocated_indent protocol level text
    · rfl
  granted := fun _ => by
    split
    · exact List.forall_mem_map.mpr fun text htext => (h text htext).returns level
    · exact List.forall_mem_nil _
  present := fun _ hblocks => if_pos hblocks

/-- A line that allocates nothing. -/
theorem Filled.plain {text : String} (h : Continues text) (hnone : allocated? protocol text = none)
    (level : Nat) : ∃ reached, Filled protocol holds blocks [] [indent level text] reached [] := by
  have hfilled := @Filled.texts protocol holds blocks [] _ (List.forall_mem_singleton.mpr h) level
    (List.filterMap_cons_none hnone)
  rw [ite_self, List.map_singleton] at hfilled
  exact ⟨_, hfilled⟩

/-- A block is entered if the condition in its head holds. -/
theorem enters_condition (holds : String → Bool) (condition : String) :
    Firmware.enters holds ("if " ++ condition) = holds condition := by
  have hcondition := between_append "if " condition ""
  rw [String.append_empty] at hcondition
  rw [Firmware.enters, hcondition, Option.all_some]

/-- A function gives up if a pointer is null. -/
theorem Filled.check {condition : String} (hflat : FlatText ("if " ++ condition))
    (hnull : " == NULL)".toList <:+ condition.toList) (level : Nat) :
    Filled protocol holds blocks [] [indent level (opening ("if " ++ condition)),
        indent (level + 1) "return false;", indent level closing]
      (if (holds condition :: blocks).all id then [indent (level + 1) "return false;"] else [])
      [] where
  enters := by
    have hbody := @Enters.line holds (holds condition :: blocks) "return false;"
      ⟨by decide, by decide⟩ (level + 1)
    rw [← enters_condition holds condition] at hbody
    have hblock := hbody.block hflat level
    rwa [enters_condition] at hblock
  sublist := List.nil_sublist _
  arrays := by
    have hnone : allocated? protocol (indent (level + 1) "return false;") = none := by
      rw [allocated_indent, allocated?, (by decide : sides? "return false;" = none)]
      rfl
    split
    · rw [List.filterMap_cons_none hnone]
      rfl
    · rfl
  granted := fun hgranted => by
    rw [hgranted condition hnull, if_neg (by simp)]
    exact List.forall_mem_nil _
  present := fun _ _ => rfl

/-- Attributes are encoded in a branch if the condition holds in all runs in which they are
present. -/
theorem Filled.branch {condition : String} {body other : List String}
    (hflat : FlatText ("if " ++ condition)) (level : Nat)
    (hbody : Filled protocol holds (holds condition :: blocks) positions body reached visited)
    (hother : Filled protocol holds ((!holds condition) :: blocks) [] other reached' [])
    (hcondition : AllPresent protocol holds positions → holds condition = true) :
    Filled protocol holds blocks positions
      (indent level (opening ("if " ++ condition)) :: (body ++
        indent level (opening (closing ++ " else")) :: (other ++ [indent level closing])))
      (reached ++ reached') visited where
  enters := by
    refine Enters.branch hflat level ?_ ?_
    · rw [enters_condition]
      exact hbody.enters
    · rw [enters_condition]
      exact hother.enters
  sublist := hbody.sublist
  arrays := by
    rw [List.filterMap_append, hbody.arrays, hother.arrays]
    exact List.append_nil _
  granted := fun hgranted =>
    List.forall_mem_append.mpr ⟨hbody.granted hgranted, hother.granted hgranted⟩
  present := fun hpresent hblocks => hbody.present hpresent (by
    rw [List.all_cons, hcondition hpresent, hblocks]
    rfl)

end Filled

open Statement

section Visits

variable {protocol : String} {holds : String → Bool} (hprotocol : IsName protocol)

include hprotocol

section Lines

variable {p : Position} (hpath : ∀ name ∈ p.path, IsName name)

include hpath

omit hprotocol in
/-- The heading of an attribute. -/
theorem exists_filled_heading (blocks : List Bool) (level : Nat) : ∃ reached,
    Filled protocol holds blocks [] [indent level ("// " ++ ("Fill attribute " ++ p.node.name))]
      reached [] := by
  have hword := (isName_node hpath).isWord
  have hplain {bad : List Char} (hbad : ∀ c ∈ bad, ¬IsNameRest c)
      (hfixed : Avoids bad "// " ∧ Avoids bad "Fill attribute ") :
      Avoids bad ("// " ++ ("Fill attribute " ++ p.node.name)) :=
    avoids_append.mpr ⟨hfixed.1, avoids_append.mpr ⟨hfixed.2, hword.avoids hbad⟩⟩
  refine Filled.plain (continues_of_head (c := '/') (by simp) (by decide)
    (hplain (by decide) (by decide))) ?_ level
  rw [allocated?, (sides_of_avoids (hplain (by decide) (by decide))).1]
  rfl

/-- The test of an attribute holds no braces. -/
theorem flatText_test : FlatText ("if " ++ (p.bit protocol).testText) := by
  have hnames := List.forall_mem_append.mp hpath
  refine ⟨(by decide : Flush "if ").append _, avoids_append.mpr ⟨by decide, ?_⟩⟩
  exact avoids_lineBreaks (avoids_testText hnames.1
    (avoids_attributeFlag hprotocol (isWord_getLastD hnames.1) (isName_node hpath)))

/-- The line that marks an attribute as absent. -/
theorem exists_filled_absent (slot : Slot) (blocks : List Bool) (level : Nat) : ∃ reached,
    Filled protocol holds blocks []
      (allLines level [.putAbsent (p.element protocol Naming.transmitRoot) slot]) reached [] := by
  let target := (p.element protocol Naming.transmitRoot).slotText slot
  have hnone : allocated? protocol (target ++ " = " ++ "NULL;") = none := by
    rw [allocated?, (sides_put hprotocol hpath (by decide : Unbroken "NULL;")).2 _ rfl,
      Option.bind_some, allocation_eq_none _ _ (.inl (by decide))]
  have hcontinues : Continues (target ++ " = " ++ "NULL;") :=
    (continues_put hprotocol hpath (by decide : Avoids lineBreaks "NULL;")).2 slot rfl
  have hlines : allLines level [.putAbsent (p.element protocol Naming.transmitRoot) slot] =
      [indent level (target ++ " = " ++ "NULL;")] := by
    have htext : target ++ " = NULL;" = target ++ " = " ++ "NULL;" := by
      simp [← String.toList_inj]
    simp [allLines, Statement.lines, target, htext]
  rw [hlines]
  exact Filled.plain hcontinues hnone level

/-- The check of an array that was asked for. -/
theorem exists_filled_requireArray (blocks : List Bool) (level : Nat) : ∃ reached,
    Filled protocol holds blocks []
      (allLines level [.requireArray (p.element protocol Naming.transmitRoot)]) reached [] := by
  let condition := "(" ++ (p.element protocol Naming.transmitRoot).slotText .subArray ++ " == NULL)"
  have hflat : FlatText ("if " ++ condition) := by
    refine ⟨(by decide : Flush "if ").append _, ?_⟩
    simp only [condition, avoids_append]
    exact ⟨by decide, ⟨by decide, (avoids_target hprotocol hpath).2 .subArray⟩, by decide⟩
  have hnull : " == NULL)".toList <:+ condition.toList := by
    rw [String.toList_append]
    exact List.suffix_append _ _
  have hlines : allLines level [.requireArray (p.element protocol Naming.transmitRoot)] =
      [indent level (opening ("if " ++ condition)), indent (level + 1) "return false;",
        indent level closing] := by
    have htext : "if (" ++ (p.element protocol Naming.transmitRoot).slotText .subArray ++
        " == NULL)" = "if " ++ condition := by
      simp [condition, ← String.toList_inj]
    simp [allLines, Statement.lines, htext]
  rw [hlines]
  exact ⟨_, Filled.check hflat hnull level⟩

/-- The lines that encode a value, and all below it. -/
theorem exists_filled_encodes {storage : Storage}
    (hstorage : p.node.dataType.storage = some storage)
    (hleaf : storage = .nested ∨ p.node.children = [])
    (hbelow : ∀ blocks level, ∃ reached visited, Filled protocol holds blocks
      (Position.ofTrees p.below 0 p.node.children)
      (allLines level (encodeAll protocol p.below.ancestors p.below.width 0 p.node.children))
        reached visited) (blocks : List Bool) (level : Nat) :
    ∃ reached visited, Filled protocol holds blocks
      (p :: Position.ofTrees p.below 0 p.node.children)
      (allLines level (p.encodes protocol storage)) reached visited := by
  have hown : (p.fills protocol storage).filterMap (allocated? protocol) =
      arrays protocol [p] := by
    rw [filterMap_fills hprotocol hpath hstorage, arrays, List.filter_singleton]
    cases p.node.isComplex <;> rfl
  have htexts := @Filled.texts protocol holds blocks [p] _ (continues_fills hprotocol hpath storage)
    level hown
  by_cases hnested : storage = .nested
  · subst hnested
    obtain ⟨refused, hcheck⟩ := @exists_filled_requireArray _ holds hprotocol p hpath blocks level
    obtain ⟨reached, visited, hfilled⟩ := hbelow blocks level
    have hlines : allLines level (p.encodes protocol .nested) =
        (p.fills protocol .nested).map (indent level) ++
          allLines level [.requireArray (p.element protocol Naming.transmitRoot)] ++
          allLines level
            (encodeAll protocol p.below.ancestors p.below.width 0 p.node.children) := by
      rw [Position.encodes, allLines_append]
      simp [Position.fills, allLines, Statement.lines]
      rfl
    rw [hlines]
    exact ⟨_, _, (htexts.append hcheck).append hfilled⟩
  · have hlines : allLines level (p.encodes protocol storage) =
        (p.fills protocol storage).map (indent level) := by
      cases storage with
      | nested => exact absurd rfl hnested
      | _ => simp [Position.encodes, Position.fills, allLines, Statement.lines]
    rw [hlines, hleaf.resolve_left hnested]
    exact ⟨_, _, htexts⟩

/-- The lines that encode an attribute, and all below it. -/
theorem exists_filled_encode (hregular : p.node.Regular)
    (hbelow : ∀ blocks level, ∃ reached visited, Filled protocol holds blocks
      (Position.ofTrees p.below 0 p.node.children)
      (allLines level (encodeAll protocol p.below.ancestors p.below.width 0 p.node.children))
        reached visited) (blocks : List Bool) (level : Nat) :
    ∃ reached visited, Filled protocol holds blocks
      (p :: Position.ofTrees p.below 0 p.node.children)
      (allLines level (encode protocol p.group.ancestors p.group.width p.index p.node))
        reached visited := by
  obtain ⟨storage, hstorage, hleaf⟩ := hregular.stores
  have hencodes := @exists_filled_encodes protocol holds hprotocol p hpath storage hstorage hleaf
    hbelow
  obtain ⟨remarked, hremark⟩ := @exists_filled_heading protocol holds p hpath blocks level
  rw [encode_eq hstorage]
  cases hoptional : p.node.optional with
  | false =>
      obtain ⟨reached, visited, hfilled⟩ := hencodes blocks level
      exact ⟨_, _, hremark.append hfilled⟩
  | true =>
      let condition := (p.bit protocol).testText
      obtain ⟨reached, visited, hfilled⟩ := hencodes (holds condition :: blocks) (level + 1)
      obtain ⟨marked, habsent⟩ := @exists_filled_absent _ holds hprotocol p hpath
        (Slot.ofStorage storage) ((!holds condition) :: blocks) (level + 1)
      have hbranch := Filled.branch (flatText_test hprotocol hpath) level hfilled habsent
        fun hpresent => hpresent p List.mem_cons_self hoptional
      have hlines : allLines level [.remark ("Fill attribute " ++ p.node.name),
          .ifPresent (p.bit protocol) (p.encodes protocol storage)
            [.putAbsent (p.element protocol Naming.transmitRoot) (Slot.ofStorage storage)]] =
          [indent level ("// " ++ ("Fill attribute " ++ p.node.name))] ++
          (indent level (opening ("if " ++ condition)) ::
            (allLines (level + 1) (p.encodes protocol storage) ++
              indent level (opening (closing ++ " else")) ::
                (allLines (level + 1) [.putAbsent (p.element protocol Naming.transmitRoot)
                  (Slot.ofStorage storage)] ++ [indent level closing]))) := by
        simp [allLines, Statement.lines, condition]
      rw [if_pos rfl, hlines]
      exact ⟨_, _, hremark.append hbranch⟩

end Lines

/-- The lines that encode attributes one after the other. -/
theorem exists_filled_encodeAll (atts : List Attribute) : ∀ (group : Group) (index : Nat),
    (∀ att ∈ Attribute.forest atts, att.Regular) →
    (∀ p ∈ Position.ofTrees group index atts, ∀ name ∈ p.path, IsName name) →
    ∀ blocks level, ∃ reached visited, Filled protocol holds blocks
      (Position.ofTrees group index atts)
      (allLines level (encodeAll protocol group.ancestors group.width index atts))
        reached visited := by
  induction atts using Attribute.forest_induction with
  | nil =>
      intro group index _ _ blocks level
      exact ⟨[], [], .nil⟩
  | cons att rest ihbelow ihrest =>
      intro group index hregular hpath blocks level
      obtain ⟨hatt, hbelow, hrest⟩ := Attribute.forall_mem_forest_cons.mp hregular
      obtain ⟨hown, hpathBelow, hpathRest⟩ := Position.forall_mem_ofTrees_cons.mp hpath
      obtain ⟨reached, visited, hfilled⟩ := @exists_filled_encode protocol holds hprotocol
        ⟨group, index, att⟩ hown hatt (ihbelow (group.below att) 0 hbelow hpathBelow) blocks level
      obtain ⟨reached', visited', hfilled'⟩ := ihrest group (index + 1) hrest hpathRest blocks level
      rw [Position.ofTrees_cons, encodeAll, allLines_append]
      exact ⟨_, _, hfilled.append hfilled'⟩

end Visits

/-! ## Encoders -/

/-- An encoder stands under no condition. -/
theorem enters_head (holds : String → Bool) (encoder : Encoder) :
    Firmware.enters holds encoder.head = true := by
  have hfront : ¬"if ".toList <+: encoder.head.toList := by
    rintro ⟨rest, hrest⟩
    have hletter := congrArg List.head? hrest
    unfold Encoder.head at hletter
    simp at hletter
  rw [Firmware.enters, between_eq_none "" hfront]
  rfl

section Encoders

variable {protocol : Protocol} {cmd : Command} (hwell : WellFormed protocol)
  (hcmd : cmd ∈ protocol.commands)

include hwell hcmd

theorem flatText_head : FlatText (Encoder.ofCommand protocol.name cmd).head := by
  refine ⟨(((by decide : Flush "static bool ").append _).append _ |>.append _).append _, ?_⟩
  exact avoids_codecHead hwell.protocol_name (hwell.command_names cmd hcmd) (by decide)
    (.fixed rfl) (by decide)

theorem continues_allocation : Continues (Encoder.ofCommand protocol.name cmd).allocation := by
  have hcount := isWord_attributeCount hwell.protocol_name (hwell.command_names cmd hcmd)
  unfold Encoder.allocation
  refine continues_of_head (c := '*') (by simp) (by decide) ?_
  rw [avoids_append, avoids_append]
  exact ⟨⟨by decide, avoids_allocateCall (by decide) (by decide) hwell.protocol_name hcount⟩,
    by decide⟩

/-- The lines that are entered in an encoder allocate the array of its command and those of some
of the attributes. -/
theorem exists_entered_encoder (holds : String → Bool) : ∃ front visited,
    entered holds [] (Encoder.ofCommand protocol.name cmd).lines =
      front ++ [indent 1 "return true;", ""] ∧
    visited.Sublist cmd.positions ∧
    front.filterMap (allocated? protocol.name) =
      ("*pAttArrayPtr", cmd.group.count protocol.name) :: arrays protocol.name visited ∧
    (Granted holds → ∀ line ∈ front, returns line = false) ∧
    (AllPresent protocol.name holds cmd.positions → visited = cmd.positions) := by
  let encoder := Encoder.ofCommand protocol.name cmd
  let texts := ["// Allocate attribute array", encoder.allocation]
  obtain ⟨reached, visited, hbody⟩ := @exists_filled_encodeAll protocol.name holds
    hwell.protocol_name cmd.attributes cmd.group 0 (hwell.regular hcmd)
    (fun p hp => Command.isName_of_mem_path hwell hcmd hp) [true] 1
  obtain ⟨refused, hpayload⟩ : ∃ refused, Filled protocol.name holds [true] []
      [indent 1 (opening "if (pCmdPayload == NULL)"), indent 2 "return false;", indent 1 closing]
      refused [] :=
    ⟨_, @Filled.check protocol.name holds [true] "(pCmdPayload == NULL)" ⟨by decide, by decide⟩
      (by decide) 1⟩
  obtain ⟨refused', harray⟩ : ∃ refused, Filled protocol.name holds [true] []
      [indent 1 (opening "if (*pAttArrayPtr == NULL)"), indent 2 "return false;", indent 1 closing]
      refused [] :=
    ⟨_, @Filled.check protocol.name holds [true] "(*pAttArrayPtr == NULL)" ⟨by decide, by decide⟩
      (by decide) 1⟩
  have htexts : ∀ text ∈ texts, Continues text :=
    List.forall_mem_cons.mpr ⟨continues_of_head (c := '/') rfl (by decide) (by decide),
      List.forall_mem_singleton.mpr (continues_allocation hwell hcmd)⟩
  have hown : (texts.map (indent 1)).filterMap (allocated? protocol.name) =
      [("*pAttArrayPtr", cmd.group.count protocol.name)] := by
    have hremark : allocated? protocol.name (indent 1 "// Allocate attribute array") = none := by
      rw [allocated?, (by decide : sides? (indent 1 "// Allocate attribute array") = none)]
      rfl
    rw [List.map_cons, List.filterMap_cons_none hremark, List.map_singleton, List.filterMap_cons,
      allocated_indent, allocated?, sides_allocation hwell hcmd, Option.bind_some, allocation_call]
    rfl
  have hlines : Enters holds [true] (texts.map (indent 1)) (texts.map (indent 1)) :=
    @Enters.lines holds [true] texts (fun text htext => (htexts text htext).flat) 1
  have hreturn : Enters holds [true] [indent 1 "return true;"] [indent 1 "return true;"] :=
    @Enters.line holds [true] "return true;" ⟨by decide, by decide⟩ 1
  have hfilled := hpayload.enters.append (hlines.append (harray.enters.append hbody.enters))
  have hmiddle := hfilled.append hreturn
  rw [← enters_head holds] at hmiddle
  refine ⟨refused ++ (texts.map (indent 1) ++ (refused' ++ reached)), visited, ?_, hbody.sublist,
    ?_, fun hgranted => ?_, fun hpresent => hbody.present hpresent rfl⟩
  · have hblock := hmiddle.block (flatText_head hwell hcmd) 0 [""]
    have hlast : entered holds [] [""] = [""] := rfl
    rw [hlast] at hblock
    rw [List.append_cons]
    refine Eq.trans (congrArg (entered holds []) ?_) hblock
    simp only [encoder, texts]
    unfold Encoder.lines Encoder.head Encoder.allocation
    simp [Encoder.ofCommand, encodeGroup, indent_zero]
    rfl
  · rw [List.filterMap_append, List.filterMap_append, List.filterMap_append, hpayload.arrays,
      harray.arrays, hbody.arrays, hown]
    rfl
  · simp only [List.forall_mem_append, List.forall_mem_map]
    exact ⟨hpayload.granted hgranted, fun text htext => (htexts text htext).returns 1,
      harray.granted hgranted, hbody.granted hgranted⟩

/-- The arrays that a run allocates are those for some of the attributes, or fewer. -/
theorem exists_sublist_run (holds : String → Bool) : ∃ visited, visited.Sublist cmd.positions ∧
    (run holds (Encoder.ofCommand protocol.name cmd).lines).filterMap (allocated? protocol.name) <+:
      ("*pAttArrayPtr", cmd.group.count protocol.name) :: arrays protocol.name visited ∧
    (Granted holds → AllPresent protocol.name holds cmd.positions → visited = cmd.positions ∧
      (run holds (Encoder.ofCommand protocol.name cmd).lines).filterMap (allocated? protocol.name) =
        ("*pAttArrayPtr", cmd.group.count protocol.name) :: arrays protocol.name visited) := by
  obtain ⟨front, visited, hentered, hsublist, harrays, hgranted, hpresent⟩ :=
    exists_entered_encoder hwell hcmd holds
  have hending : [indent 1 "return true;", ""].filterMap (allocated? protocol.name) = [] := by
    have hreturn : sides? (indent 1 "return true;") = none ∧ sides? "" = none := by decide
    simp [allocated?, hreturn]
  refine ⟨visited, hsublist, ?_, fun hgrant hall => ?_⟩
  · have hprefix := (run_isPrefix holds (Encoder.ofCommand protocol.name cmd).lines).filterMap
      (allocated? protocol.name)
    rwa [hentered, List.filterMap_append, hending, List.append_nil, harrays] at hprefix
  · exact ⟨hpresent hall, by rw [run_eq hentered (hgranted hgrant) (by decide), harrays]⟩

end Encoders

/-! ## Slots -/

/-- The slots that some attributes take for what is below them. -/
def slotsBelow (positions : List Position) : Nat :=
  ((positions.filter (·.node.isComplex)).map fun p => p.node.children.length).sum

theorem slotsBelow_cons (p : Position) (rest : List Position) :
    slotsBelow (p :: rest) =
      (if p.node.isComplex then p.node.children.length else 0) + slotsBelow rest := by
  rw [slotsBelow, List.filter_cons]
  split
  next => rw [List.map_cons, List.sum_cons, slotsBelow]
  next => rw [Nat.zero_add, slotsBelow]

theorem slotsBelow_append (first second : List Position) :
    slotsBelow (first ++ second) = slotsBelow first + slotsBelow second := by
  rw [slotsBelow, List.filter_append, List.map_append, List.sum_append, slotsBelow, slotsBelow]

theorem slotsBelow_le {first second : List Position} (h : first.Sublist second) :
    slotsBelow first ≤ slotsBelow second :=
  ((h.filter _).map _).sum_le_sum fun _ _ => Nat.zero_le _

/-- All arrays together have a slot for every attribute. -/
theorem sum_slots (group : Group) (index : Nat) (atts : List Attribute)
    (hregular : ∀ att ∈ Attribute.forest atts, att.Regular) :
    atts.length + slotsBelow (Position.ofTrees group index atts) = Attribute.forestSize atts := by
  refine Attribute.visit_induction ?nil ?value ?complex group index atts hregular
  case nil =>
    intro group index
    rfl
  case value =>
    intro group index att rest storage hstorage hvalue hsimple hleaf ih
    rw [Position.ofTrees_cons, hleaf, Position.ofTrees, List.nil_append, slotsBelow_cons, hsimple,
      Attribute.forestSize, Attribute.treeSize_eq, hleaf, Attribute.forestSize, List.length_cons,
      ← ih]
    simp
    omega
  case complex =>
    intro group index att rest hstorage hcomplex ihbelow ih
    rw [Position.ofTrees_cons, slotsBelow_cons, slotsBelow_append, if_pos hcomplex,
      Attribute.forestSize, Attribute.treeSize_eq, ← ihbelow, ← ih, List.length_cons]
    dsimp only
    omega

/-- No command takes more slots than the most that any takes. -/
theorem slots_le_maxSlots {protocol : Protocol} {cmd : Command} (h : cmd ∈ protocol.commands) :
    cmd.slots ≤ protocol.maxSlots := by
  have hfold : ∀ (sizes : List Nat) (most : Nat), (∀ n ∈ sizes, n ≤ sizes.foldl max most) ∧
      most ≤ sizes.foldl max most := by
    intro sizes
    induction sizes with
    | nil => simp
    | cons n sizes ih =>
        intro most
        rcases ih (max most n) with ⟨hall, hmost⟩
        rw [List.foldl_cons, List.forall_mem_cons]
        exact ⟨⟨(Nat.le_max_right most n).trans hmost, hall⟩, (Nat.le_max_left most n).trans hmost⟩
  exact (hfold _ 0).1 _ (List.mem_map_of_mem h)

/-- The lengths of the array of a command and of those of some of its attributes. -/
def arrayLengths (cmd : Command) (visited : List Position) : List Nat :=
  cmd.attributes.length ::
    (visited.filter (·.node.isComplex)).map fun p => p.node.children.length

/-- All arrays of a command together have the length that it counts. -/
theorem sum_arrayLengths {cmd : Command}
    (hregular : ∀ att ∈ Attribute.forest cmd.attributes, att.Regular) :
    (arrayLengths cmd cmd.positions).sum = cmd.slots :=
  List.sum_cons.trans (sum_slots cmd.group 0 cmd.attributes hregular)

/-- Arrays of fewer attributes are no longer. -/
theorem sum_arrayLengths_le {cmd : Command} {visited : List Position}
    (hregular : ∀ att ∈ Attribute.forest cmd.attributes, att.Regular)
    (h : visited.Sublist cmd.positions) : (arrayLengths cmd visited).sum ≤ cmd.slots :=
  calc (arrayLengths cmd visited).sum
      = cmd.attributes.length + slotsBelow visited := List.sum_cons
    _ ≤ cmd.attributes.length + slotsBelow cmd.positions :=
        Nat.add_le_add_left (slotsBelow_le h) _
    _ = cmd.slots := sum_slots cmd.group 0 cmd.attributes hregular

/-! ## The arena of a bridge -/

/-- Take an array from an arena of which some slots are used already. -/
def takeSlots (capacity used count : Nat) : Option Nat :=
  if used + count > capacity then none else some (used + count)

/-- Arrays that fit an arena together are granted one after the other. -/
theorem foldlM_takeSlots {capacity : Nat} (counts : List Nat) (used : Nat)
    (h : used + counts.sum ≤ capacity) :
    counts.foldlM (takeSlots capacity) used = some (used + counts.sum) := by
  induction counts generalizing used with
  | nil => rfl
  | cons count counts ih =>
      rw [List.sum_cons] at h ⊢
      have hone : ¬used + count > capacity := by omega
      rw [List.foldlM_cons, takeSlots, if_neg hone, ← Nat.add_assoc]
      exact ih (used + count) (by omega)

/-- The encoder of a command allocates an array for its attributes and one for those of each
complex attribute, under counts that the bridge header defines, and every run of it gets all
arrays it asks for. -/
structure ArenaSuffices (protocol : Protocol) (prepared : Prepared) (role : Role)
    (cmd : Command) : Prop where
  emitted : (Encoder.ofCommand protocol.name cmd).lines <:+: (Bridge.build prepared role).lines
  calls : (Encoder.ofCommand protocol.name cmd).lines.filterMap (allocated? protocol.name) =
    ("*pAttArrayPtr", cmd.group.count protocol.name) :: arrays protocol.name cmd.positions
  own : Defines (BridgeHeader.build prepared).lines (cmd.group.count protocol.name)
    (toString cmd.attributes.length)
  below : ∀ p ∈ cmd.positions, p.node.isComplex = true →
    Defines (BridgeHeader.build prepared).lines (p.array protocol.name).2
      (toString p.node.children.length)
  runs : ∀ holds, ∃ counts : List Nat,
    List.Forall₂
      (fun call n => Defines (BridgeHeader.build prepared).lines call.2 (toString n))
      ((run holds (Encoder.ofCommand protocol.name cmd).lines).filterMap
        (allocated? protocol.name)) counts ∧
    counts.sum ≤ (Bridge.build prepared role).arena ∧
    counts.foldlM (takeSlots (Bridge.build prepared role).arena) 0 = some counts.sum ∧
    (Granted holds → AllPresent protocol.name holds cmd.positions → counts.sum = cmd.slots)

/-- The arena of a bridge is long enough for every run of its encoders. -/
theorem arena_suffices {protocol : Protocol} {prepared : Prepared}
    (hprepare : prepare protocol = .ok prepared) (role : Role) :
    Defines (Bridge.build prepared role).lines (Bridge.arenaMacro protocol.name)
      (toString (Bridge.build prepared role).arena) ∧
    ∀ cmd ∈ protocol.encoded role, ArenaSuffices protocol prepared role cmd := by
  obtain ⟨rfl, hwell⟩ := wellFormed_of_prepare hprepare
  refine ⟨defines_arena hwell role, fun cmd hcmd => ?_⟩
  rcases List.mem_filter.mp hcmd with ⟨hmem, hencoded⟩
  have hcarrier : cmd ∈ protocol.carriers :=
    List.mem_filter.mpr ⟨hmem, (Bool.and_eq_true_iff.mp hencoded).2⟩
  have hregular := hwell.regular hmem
  have hown := defines_attributeCount hwell hcarrier
  have hbelow : ∀ p ∈ cmd.positions, p.node.isComplex = true →
      Defines (BridgeHeader.build (Prepared.ofProtocol protocol)).lines (p.array protocol.name).2
        (toString p.node.children.length) := fun p hp hcomplex =>
    defines_subAttributeCount hwell (stores_position hwell hmem hp).1 hcomplex
  constructor
  case emitted => exact @encoder_emitted (Prepared.ofProtocol protocol) role cmd hcmd
  case calls => exact allocations_encoder hwell hmem
  case own => exact hown
  case below => exact hbelow
  case runs =>
    intro holds
    obtain ⟨visited, hsublist, hprefix, hall⟩ := exists_sublist_run hwell hmem holds
    let calls := (run holds (Encoder.ofCommand protocol.name cmd).lines).filterMap
      (allocated? protocol.name)
    let lengths := arrayLengths cmd visited
    have hdefined : List.Forall₂ (fun call n => Defines
        (BridgeHeader.build (Prepared.ofProtocol protocol)).lines call.2 (toString n))
        (("*pAttArrayPtr", cmd.group.count protocol.name) :: arrays protocol.name visited)
        lengths := by
      refine List.Forall₂.cons hown ?_
      rw [arrays, List.forall₂_map_left_iff, List.forall₂_map_right_iff, List.forall₂_same]
      intro p hp
      obtain ⟨hvisited, hcomplex⟩ := List.mem_filter.mp hp
      exact hbelow p (hsublist.subset hvisited) hcomplex
    -- a run may end early, so it makes the first of these calls only
    have hfits : (lengths.take calls.length).sum ≤
        (Bridge.build (Prepared.ofProtocol protocol) role).arena :=
      calc (lengths.take calls.length).sum
          ≤ lengths.sum := (List.take_sublist _ _).sum_le_sum fun _ _ => Nat.zero_le _
        _ ≤ cmd.slots := sum_arrayLengths_le hregular hsublist
        _ ≤ protocol.maxSlots := slots_le_maxSlots hmem
        _ ≤ max protocol.maxSlots 1 := Nat.le_max_left _ _
    refine ⟨lengths.take calls.length, ?_, hfits, ?_, fun hgranted hpresent => ?_⟩
    · have htaken := List.forall₂_take calls.length hdefined
      rwa [← List.prefix_iff_eq_take.mp hprefix] at htaken
    · rw [foldlM_takeSlots _ 0 ((Nat.zero_add _).trans_le hfits), Nat.zero_add]
    · obtain ⟨hvisited, hcalls⟩ := hall hgranted hpresent
      have hlength : calls.length = lengths.length :=
        (congrArg List.length hcalls).trans hdefined.length_eq
      rw [hlength, List.take_length]
      exact (congrArg (fun positions => (arrayLengths cmd positions).sum) hvisited).trans
        (sum_arrayLengths hregular)

theorem arena_suffices_meter :
    prepare meter = .ok (Prepared.ofProtocol meter) ∧
    Defines (Bridge.build (Prepared.ofProtocol meter) .a).lines (Bridge.arenaMacro meter.name)
      (toString (Bridge.build (Prepared.ofProtocol meter) .a).arena) ∧
    ∀ cmd ∈ meter.encoded .a, ArenaSuffices meter (Prepared.ofProtocol meter) .a cmd :=
  ⟨prepare_meter, arena_suffices prepare_meter .a⟩

end Firmware
end CommandSet
