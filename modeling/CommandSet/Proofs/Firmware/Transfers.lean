import CommandSet.Proofs.Firmware.Assignments
import CommandSet.Proofs.Firmware.PayloadPaths

/-!
# Transfers of values

Handlers and encoders move values by assignments.  A reader that takes both sides of an
assignment finds in their text what is transferred for one attribute after the other.

Main definitions:

- {lit}`sides?`: the two sides of the assignment on a line.
- {lit}`local?`, {lit}`copied?`: the local that a line declares and the number that it copies.
- {lit}`Position.loadSides`, {lit}`Position.encodeSides`: what is assigned for an attribute in a
  handler and in an encoder.

Main results:

- Theorem {lit}`read_stub`: the locals and assignments of a handler.
- Theorem {lit}`read_decoder`: the numbers that a decoder copies.
- Theorem {lit}`read_encoder`: the assignments of an encoder.
-/

namespace CommandSet

/-! ## Words of lines -/

/-- The words of a text hold its characters. -/
theorem mem_of_mem_words {line : String} {word : List Char} (hword : word ∈ words line) {c : Char}
    (hc : c ∈ word) : c ∈ line.toList := by
  have hfrom (text : List Char) : ∀ seen, word ∈ wordsFrom seen text → c ∈ seen ∨ c ∈ text := by
    induction text with
    | nil =>
        intro seen h
        rw [wordsFrom] at h
        split at h
        · cases h
        · obtain rfl := List.mem_singleton.mp h
          exact .inl (List.mem_reverse.mp hc)
    | cons d text ih =>
        intro seen h
        have hrest (seen : List Char) (h : word ∈ wordsFrom seen text) :
            c ∈ seen ∨ c ∈ d :: text :=
          (ih seen h).imp_right (List.mem_cons_of_mem d)
        rw [wordsFrom] at h
        split at h
        · split at h
          · exact .inr ((hrest [] h).resolve_left List.not_mem_nil)
          · rcases List.mem_cons.mp h with rfl | h
            · exact .inl (List.mem_reverse.mp hc)
            · exact .inr ((hrest [] h).resolve_left List.not_mem_nil)
        · rcases hrest _ h with hseen | htext
          · rcases List.mem_cons.mp hseen with rfl | hseen
            · exact .inr List.mem_cons_self
            · exact .inl hseen
          · exact .inr htext
  exact (hfrom line.toList [] hword).resolve_left List.not_mem_nil

namespace Firmware

/-! ## Both sides of assignments -/

/-- The two sides of the assignment on a line. -/
def sides? (line : String) : Option (String × String) :=
  match words line with
  | [target, ['='], value] => some (String.ofList target, String.ofList value)
  | _ => none

theorem sides_of_ne {text : String} (h : ∀ target value, words text ≠ [target, ['='], value]) :
    sides? text = none := by
  rw [sides?]
  split
  next heq => exact absurd heq (h _ _)
  next => rfl

/-- Without an equality sign nothing is declared or assigned. -/
theorem sides_of_avoids {text : String} (h : Avoids ['='] text) :
    sides? text = none ∧ declaredName? text = none := by
  have hword : ['='] ∉ words text := fun hmem =>
    h '=' List.mem_cons_self (mem_of_mem_words hmem (List.mem_singleton_self _))
  constructor
  · refine sides_of_ne fun _ _ heq => hword ?_
    simp [heq]
  · refine declaredName_of_ne fun _ _ _ heq => hword ?_
    simp [heq]

/-- A text whose second word is no equality sign assigns nothing. -/
theorem sides_of_second {first second : String} (hfirst : Unbroken first)
    (hsecond : Unbroken second) (hne : second ≠ "=") (rest : String) :
    sides? (first ++ " " ++ (second ++ " " ++ rest)) = none := by
  refine sides_of_ne fun _ _ heq => hne (String.toList_inj.mp ?_)
  rw [words_append hfirst, words_append hsecond] at heq
  exact (List.cons.inj (List.cons.inj heq).2).1

/-- A condition neither declares nor assigns. -/
theorem sides_of_condition (left operator rest : String) (hleft : Unbroken left)
    (hoperator : Unbroken operator) (hne : left ≠ "=" ∧ operator ≠ "=") {text : String}
    (htext : text = "if" ++ " " ++ (left ++ " " ++ (operator ++ " " ++ rest))) :
    sides? text = none ∧ declaredName? text = none := by
  have hwords : words text = "if".toList :: left.toList :: operator.toList :: words rest := by
    rw [htext, words_append (by decide), words_append hleft, words_append hoperator]
  constructor
  · exact htext ▸ sides_of_second (by decide) hleft hne.1 _
  · refine declaredName_of_ne fun _ _ _ heq => hne.2 (String.toList_inj.mp ?_)
    rw [hwords] at heq
    exact (List.cons.inj (List.cons.inj (List.cons.inj heq).2).2).1

/-- An assignment declares nothing. -/
theorem sides_assignment {target value : String} (htarget : Unbroken target)
    (hvalue : Unbroken value) : sides? (target ++ " = " ++ value) = some (target, value) ∧
      declaredName? (target ++ " = " ++ value) = none := by
  have hwords := words_assignment htarget hvalue
  constructor
  · rw [sides?, hwords]
    simp only [String.ofList_toList]
  · exact declaredName_of_ne fun _ _ _ => by simp [hwords]

/-- What is declared on the line of a local. -/
def local? (line : String) : Option Declaration :=
  if (declaredName? line).isSome then declaration? line else none

theorem local_of_none {text : String} (h : declaredName? text = none) : local? text = none := by
  rw [local?, h]
  rfl

/-- What a local is declared as. -/
def Local.declared (l : Local) : Declaration :=
  match l.type with
  | .flag => ⟨"bool", false, l.name, ""⟩
  | .number scalar => ⟨scalar.cName, false, l.name, ""⟩
  | .bytePointer => ⟨"uint8_t", true, l.name, ""⟩
  | .textPointer => ⟨"char", true, l.name, ""⟩

/-- The declaration of a local is read back, and assigns nothing. -/
theorem local_declaration {l : Local} (hword : IsWord l.name) (hne : l.name.toList ≠ []) :
    local? l.declaration = some l.declared ∧ sides? l.declaration = none := by
  have hread (base star value : String) (hbase : Unbroken base) (hvalue : Unbroken value)
      (hstar : star = "" ∨ star = "*")
      (htext : l.declaration = base ++ " " ++ (star ++ l.name ++ " = " ++ value)) :
      local? l.declaration = some ⟨base, star == "*", l.name, ""⟩ ∧
        sides? l.declaration = none := by
    have hname : Unbroken (star ++ l.name) := by
      refine ⟨by simp [hne], ?_⟩
      rw [String.toList_append, List.mem_append, not_or]
      exact ⟨by rcases hstar with rfl | rfl <;> decide, hword.blank_not_mem⟩
    have hwords : words l.declaration =
        [base.toList, (star ++ l.name).toList, ['='], value.toList] := by
      rw [htext, words_append hbase, words_assignment hname hvalue]
    have hdeclared : (declaredName? l.declaration).isSome = true := by
      rw [declaredName?, hwords]
      rfl
    have hparts : words l.declaration =
        base.toList :: (star.toList ++ (l.name.toList ++ [])) :: [['='], value.toList] := by
      rw [hwords, String.toList_append, List.append_nil]
    have hpointer : (star.toList == ['*']) = (star == "*") := by
      rcases hstar with rfl | rfl <;> decide
    have hread : declaration? l.declaration = some ⟨base, star.toList == ['*'], l.name, ""⟩ :=
      declaration_of_words hparts (by rcases hstar with rfl | rfl <;> decide) hword (by simp)
        (by simp)
    refine ⟨?_, sides_of_ne fun _ _ => by simp [hwords]⟩
    rw [local?, if_pos hdeclared, hread, hpointer]
  obtain ⟨type, name⟩ := l
  cases type with
  | flag =>
      exact hread "bool" "" "false;" (by decide) (by decide) (.inl rfl)
        (by simp [Local.declaration, ← String.toList_inj])
  | number scalar =>
      have hscalar : Unbroken scalar.cName := by cases scalar <;> decide
      exact hread scalar.cName "" "0;" hscalar (by decide) (.inl rfl)
        (by simp [Local.declaration, ← String.toList_inj])
  | bytePointer =>
      exact hread "uint8_t" "*" "NULL;" (by decide) (by decide) (.inr rfl)
        (by simp [Local.declaration, ← String.toList_inj])
  | textPointer =>
      exact hread "char" "*" "NULL;" (by decide) (by decide) (.inr rfl)
        (by simp [Local.declaration, ← String.toList_inj])

end Firmware

/-! ## Attributes -/

namespace Position

open Firmware

/-- What a handler assigns from the members of an attribute. -/
def valueSides (p : Position) : Storage → List (String × String)
  | .scalar _ => [(numberLocal p.stem, (p.place (numberMember p.node.name)).text ++ ";")]
  | .bytes =>
      [(pointerLocal p.stem, (p.place (pointerMember p.node.name)).text ++ ";"),
        (sizeLocal p.stem, (p.place (sizeMember p.node.name)).text ++ ";")]
  | .text => [(pointerLocal p.stem, (p.place (pointerMember p.node.name)).text ++ ";")]
  | .nested => []

/-- What a handler assigns for an attribute. -/
def loadSides (p : Position) (storage : Storage) : List (String × String) :=
  (if p.node.optional then [(presentLocal p.stem, "true;")] else []) ++ p.valueSides storage

/-- What an encoder assigns for an attribute that is present. -/
def encodeSides (protocol : String) (p : Position) (storage : Storage) : List (String × String) :=
  let target := p.element protocol Naming.transmitRoot
  match storage with
  | .scalar scalar =>
      [(target.text ++ ".PayloadSize", "sizeof(" ++ scalar.cName ++ ");"),
        (target.slotText .data, "&(" ++ (p.place (numberMember p.node.name)).text ++ ");")]
  | .bytes =>
      [(target.text ++ ".PayloadSize", (p.place (sizeMember p.node.name)).text ++ ";"),
        (target.slotText .data, (p.place (pointerMember p.node.name)).text ++ ";")]
  | .text =>
      [(target.text ++ ".PayloadSize",
          "strlen(" ++ (p.place (pointerMember p.node.name)).text ++ ");"),
        (target.slotText .data, (p.place (pointerMember p.node.name)).text ++ ";")]
  | .nested =>
      [(target.text ++ ".PayloadSize", Naming.subAttributeCount protocol p.node.name ++ ";"),
        (target.slotText .subArray,
          allocateCall protocol (Naming.subAttributeCount protocol p.node.name) ++ ";")]

end Position

namespace Firmware

variable {protocol : String} {p : Position}

theorem unbroken_allocateCall {count : String} (hprotocol : IsName protocol)
    (hcount : IsWord count) : Unbroken (allocateCall protocol count ++ ";") := by
  have hblank : Avoids [' '] (allocateCall protocol count ++ ";") := by
    exact avoids_append.mpr
      ⟨avoids_allocateCall (by decide) (by decide) hprotocol hcount, by decide⟩
  exact ⟨by simp, hblank ' ' List.mem_cons_self⟩

section Values

variable (hprotocol : IsName protocol) (hpath : ∀ name ∈ p.path, IsName name)

include hpath

theorem unbroken_place {member : String} (hmember : IsWord member) :
    Unbroken (p.place member).text := by
  refine ⟨by simp [Place.text], ?_⟩
  have hblank : Avoids [' '] (p.place member).text :=
    avoids_placeText (by decide) (by decide) (List.forall_mem_append.mp hpath).1 hmember
  exact hblank ' ' List.mem_cons_self

/-- A place between a text in front and one behind. -/
theorem unbroken_around (front : String) {member : String} (hmember : IsWord member)
    (back : String) (hplain : ' ' ∉ front.toList ++ back.toList) :
    Unbroken (front ++ (p.place member).text ++ back) := by
  have hmiddle := unbroken_place hpath hmember
  rw [List.mem_append, not_or] at hplain
  refine ⟨by simp [hmiddle.1], ?_⟩
  simp only [String.toList_append, List.mem_append, not_or]
  exact ⟨⟨hplain.1, hmiddle.2⟩, hplain.2⟩

/-- The test of a presence bit neither declares nor assigns. -/
theorem sides_test (protocol : String) :
    sides? (opening ("if " ++ (p.bit protocol).testText)) = none ∧
      declaredName? (opening ("if " ++ (p.bit protocol).testText)) = none := by
  have hcell : Avoids [' '] ((p.bit protocol).width.cellOf
      (PresenceBit.field p.group.ancestors).text (p.bit protocol).index) :=
    avoids_cellOf (by decide) (by decide) (avoids_placeText (by decide) (by decide)
      (List.forall_mem_append.mp hpath).1 isWord_presenceMember)
  refine sides_of_condition ("((" ++ (p.bit protocol).width.cellOf
    (PresenceBit.field p.group.ancestors).text (p.bit protocol).index) "&"
    ((p.bit protocol).flag ++ r") != 0) {") ?_ (by decide) ⟨?_, by decide⟩ ?_
  · exact (by decide : Unbroken "((").append (hcell ' ' List.mem_cons_self)
  · simp [← String.toList_inj]
  · simp [PresenceBit.testText, PresenceWidth.testExpr, opening, ← String.toList_inj]
    rfl

include hprotocol

theorem unbroken_element {root : String} (hroot : Unbroken root) :
    Unbroken (p.element protocol root).text ∧
      ∀ slot, Unbroken ((p.element protocol root).slotText slot) := by
  have hne : (p.element protocol root).text.toList ≠ [] := by
    simp [Element.text, Naming.elementPath]
  have helement : Avoids [' '] (p.element protocol root).text :=
    avoids_elementText hprotocol hpath (by decide) (List.forall_mem_singleton.mpr hroot.2)
      (by decide)
  refine ⟨⟨hne, helement ' ' List.mem_cons_self⟩, fun slot => ⟨?_, ?_⟩⟩
  · simp [Element.slotText]
  · exact avoids_slotText helement (by decide) slot ' ' List.mem_cons_self

omit hprotocol in
/-- What a handler does for an attribute, read line by line. -/
theorem read_loadTexts (protocol : String) (storage : Storage) :
    (p.loadTexts protocol storage).filterMap sides? = p.loadSides storage ∧
      (p.loadTexts protocol storage).filterMap local? = [] := by
  have hname := isName_node hpath
  have hstem : IsWord p.stem := isWord_localStem (List.forall_mem_append.mp hpath).1 hname
  obtain ⟨hpresent, hnumber, hpointer, hsize⟩ := isWord_locals hstem
  have hread {name : String} (hword : IsWord name) (hne : name.toList ≠ []) {value : String}
      (hvalue : Unbroken value) :
      sides? (name ++ " = " ++ value ++ ";") = some (name, value ++ ";") ∧
        local? (name ++ " = " ++ value ++ ";") = none := by
    have hending : Unbroken (value ++ ";") := hvalue.append (by decide)
    have hsides := sides_assignment (hword.unbroken hne) hending
    rw [← String.append_assoc] at hsides
    exact hsides.imp_right local_of_none
  have hscalar := hread hnumber (by simp [numberLocal])
    (unbroken_place hpath (isWord_numberMember hname))
  have hdata := hread hpointer (by simp [pointerLocal])
    (unbroken_place hpath (isWord_pointerMember hname))
  have hlength := hread hsize (by simp [sizeLocal])
    (unbroken_place hpath (isWord_sizeMember hname))
  have htest := (sides_test hpath protocol).imp_right local_of_none
  have hnote := hread hpresent (by simp [presentLocal]) (by decide : Unbroken "true")
  have htrue : presentLocal p.stem ++ " = " ++ "true" ++ ";" =
      presentLocal p.stem ++ " = true;" := by
    simp only [String.append_assoc]
    rfl
  rw [htrue] at hnote
  rw [Position.loadTexts, Position.loadSides, List.filterMap_append, List.filterMap_append]
  constructor
  · congr 1
    · split <;> simp [htest.1, hnote.1]
    · cases storage <;>
        simp [Position.ownLoads, Position.loads, Position.valueSides, hscalar.1, hdata.1,
          hlength.1]
  · rw [List.append_eq_nil_iff]
    constructor
    · split <;> simp [htest.2, hnote.2]
    · cases storage <;>
        simp [Position.ownLoads, Position.loads, hscalar.2, hdata.2, hlength.2]

/-- An encoder assigns to the size of an element and to what it carries. -/
theorem sides_put {value : String} (hvalue : Unbroken value) {text : String} :
    let target := p.element protocol Naming.transmitRoot
    (text = target.text ++ ".PayloadSize" ++ " = " ++ value →
        sides? text = some (target.text ++ ".PayloadSize", value)) ∧
      ∀ slot, text = target.slotText slot ++ " = " ++ value →
        sides? text = some (target.slotText slot, value) := by
  obtain ⟨helement, hslot⟩ :=
    unbroken_element hprotocol hpath (by decide : Unbroken Naming.transmitRoot)
  constructor
  · rintro rfl
    exact (sides_assignment (helement.append (by decide)) hvalue).1
  · rintro slot rfl
    exact (sides_assignment (hslot slot) hvalue).1

/-- The check of an array assigns nothing. -/
theorem sides_requireArray :
    sides? (Statement.text (.requireArray (p.element protocol Naming.transmitRoot))) = none := by
  let target := p.element protocol Naming.transmitRoot
  have helement := (unbroken_element hprotocol hpath
    (by decide : Unbroken Naming.transmitRoot)).2 .subArray
  have hleft : Unbroken ("(" ++ target.slotText .subArray) :=
    (by decide : Unbroken "(").append helement.2
  have hne : "(" ++ target.slotText .subArray ≠ "=" := fun heq => by
    have hhead := congrArg (·.toList.head?) heq
    simp at hhead
  refine (sides_of_condition ("(" ++ target.slotText .subArray) "==" r"NULL) {" hleft
    (by decide) ⟨hne, by decide⟩ ?_).1
  simp [target, opening, ← String.toList_inj]

/-- What an encoder does with a value itself, read line by line. -/
theorem read_ownEncodes (storage : Storage) :
    ((p.ownEncodes protocol storage).map Statement.text).filterMap sides? =
      p.encodeSides protocol storage := by
  let target := p.element protocol Naming.transmitRoot
  have hname := isName_node hpath
  have hsize {value : String} (hvalue : Unbroken value) (statement : Statement) :=
    (@sides_put protocol p hprotocol hpath value hvalue statement.text).1
  have hslot {value : String} (hvalue : Unbroken value) (statement : Statement) :=
    (@sides_put protocol p hprotocol hpath value hvalue statement.text).2
  have hsizeMember := unbroken_around hpath "" (isWord_sizeMember hname) ";" (by decide)
  have hpointerMember := unbroken_around hpath "" (isWord_pointerMember hname) ";" (by decide)
  rw [String.empty_append] at hsizeMember hpointerMember
  have hdata := hslot hpointerMember (.putPointer target (p.place (pointerMember p.node.name)))
    .data (by simp [target, ← String.toList_inj])
  cases storage with
  | scalar scalar =>
      have hscalar : Unbroken ("sizeof(" ++ scalar.cName ++ ");") := by cases scalar <;> decide
      have hwidth := hsize hscalar (.putWidth target scalar)
        (by simp [target, ← String.toList_inj])
      have haddress := hslot
        (unbroken_around hpath "&(" (isWord_numberMember hname) ");" (by decide))
        (.putAddress target (p.place (numberMember p.node.name))) .data
        (by simp [target, ← String.toList_inj])
      simp only [Position.ownEncodes, Position.encodes, List.map_cons, List.map_nil,
        List.filterMap_cons, List.filterMap_nil, target, hwidth, haddress, Position.encodeSides]
  | bytes =>
      have hlength := hsize hsizeMember (.putLength target (p.place (sizeMember p.node.name)))
        (by simp [target, ← String.toList_inj])
      simp only [Position.ownEncodes, Position.encodes, List.map_cons, List.map_nil,
        List.filterMap_cons, List.filterMap_nil, target, hlength, hdata, Position.encodeSides]
  | text =>
      have hlength := hsize
        (unbroken_around hpath "strlen(" (isWord_pointerMember hname) ");" (by decide))
        (.putTextLength target (p.place (pointerMember p.node.name)))
        (by simp [target, ← String.toList_inj])
      simp only [Position.ownEncodes, Position.encodes, List.map_cons, List.map_nil,
        List.filterMap_cons, List.filterMap_nil, target, hlength, hdata, Position.encodeSides]
  | nested =>
      let count := Naming.subAttributeCount protocol p.node.name
      have hword : IsWord count := isWord_subAttributeCount hprotocol hname
      have hcount : Unbroken (count ++ ";") := ⟨by simp, by
        simpa [String.toList_append] using hword.blank_not_mem⟩
      have hcall := unbroken_allocateCall hprotocol hword
      have hput := hsize hcount (.putCount target count) (by simp [target, ← String.toList_inj])
      have hallocate := hslot hcall (.allocate protocol target count) .subArray
        (by simp [target, ← String.toList_inj])
      have hrequire := sides_requireArray hprotocol hpath
      simp only [Position.ownEncodes, List.map_cons, List.map_nil, List.filterMap_cons,
        List.filterMap_nil, target, count, hput, hallocate, hrequire, Position.encodeSides]

/-- What an encoder does for an attribute that is present, read line by line. -/
theorem read_encodeTexts (storage : Storage) :
    (p.encodeTexts protocol storage).filterMap sides? = p.encodeSides protocol storage := by
  have hname := isName_node hpath
  have hheading : sides? ("// " ++ ("Fill attribute " ++ p.node.name)) = none :=
    (sides_of_avoids (avoids_append.mpr ⟨by decide,
      avoids_append.mpr ⟨by decide, hname.isWord.avoids (by decide)⟩⟩)).1
  have htest := (sides_test hpath protocol).1
  rw [Position.encodeTexts, List.filterMap_cons_none hheading, List.filterMap_append,
    read_ownEncodes hprotocol hpath]
  split <;> simp [htest]

end Values

/-! ## Copied numbers -/

/-- The type and the place of a number that a line copies. -/
def copied? (line : String) : Option (String × String) := do
  let inner ← between? "memcpy(&(" "));" (unindented line).toList
  match words inner with
  | [target, _, size] => do
      let place ← between? "" ")," target
      let type ← between? "sizeof(" "" size
      some (type, place)
  | _ => none

/-- Lines that start otherwise copy no number. -/
theorem copied_eq_none {text : String}
    (h : ¬"memcpy(&(".toList <+: (unindented text).toList) : copied? text = none := by
  rw [copied?, between_eq_none _ h]
  rfl

/-- The same for a text that is not indented, by its first character. -/
theorem copied_of_head {text : String} {c : Char} (hhead : text.toList.head? = some c)
    (hc : c ≠ ' ' ∧ c ≠ 'm') : copied? text = none := by
  obtain ⟨rest, htext⟩ := List.head?_eq_some_iff.mp hhead
  have hflush : Flush text := by
    rw [Flush, hhead]
    simpa using hc.1
  refine copied_eq_none ?_
  rw [hflush.unindented_eq, htext]
  exact fun hprefix => hc.2 (List.cons_prefix_cons.mp hprefix).1.symm

theorem copied_copy {place source type : String} (hplace : Unbroken place)
    (hsource : Unbroken source) (htype : Unbroken type) :
    copied? ("memcpy(&(" ++ place ++ "), " ++ source ++ ", sizeof(" ++ type ++ "));") =
      some (type, place) := by
  have hflush : unindented ("memcpy(&(" ++ place ++ "), " ++ source ++ ", sizeof(" ++ type ++
      "));") = "memcpy(&(" ++ place ++ "), " ++ source ++ ", sizeof(" ++ type ++ "));" := by
    simp [unindented, ← String.toList_inj]
  have htext : "memcpy(&(" ++ place ++ "), " ++ source ++ ", sizeof(" ++ type ++ "));" =
      "memcpy(&(" ++ (place ++ ")," ++ " " ++ (source ++ "," ++ " " ++ ("sizeof(" ++ type))) ++
        "));" := by
    simp [← String.toList_inj]
  have hwords := words_three (hplace.append (by decide : ' ' ∉ "),".toList))
    (hsource.append (by decide : ' ' ∉ ",".toList))
    ((by decide : Unbroken "sizeof(").append htype.2)
  have hfirst := between_append "" place "),"
  have hlast := between_append "sizeof(" type ""
  rw [String.empty_append] at hfirst
  rw [String.append_empty] at hlast
  rw [copied?, hflush, htext, between_append, Option.bind_eq_bind, Option.bind_some, hwords]
  simp only [hfirst, hlast, Option.bind_some]

end Firmware

/-- The number that a decoder copies for an attribute. -/
def Position.copies (p : Position) : Storage → List (String × String)
  | .scalar scalar => [(scalar.cName, (p.place (Firmware.numberMember p.node.name)).text)]
  | _ => []

namespace Firmware

section Copies

variable {p : Position}

theorem copied_remark (text : String) : copied? ("// " ++ text) = none :=
  copied_of_head (c := '/') (by simp) (by decide)

/-- Bitfields are set and cleared without a copy. -/
theorem copied_field (width : PresenceWidth) (groups : List String) (flag : String) (index : Nat) :
    copied? (width.setStatement (PresenceBit.field groups).text flag index) = none ∧
      copied? (width.clearStatement (PresenceBit.field groups).text) = none := by
  constructor
  · refine copied_of_head (c := 'p') ?_ (by decide)
    rw [PresenceWidth.setStatement, PresenceWidth.cellOf]
    split <;> simp [Place.text]
  · cases width with
    | bytes n =>
        refine copied_eq_none ?_
        simp [PresenceWidth.clearStatement, unindented]
    | _ =>
        refine copied_of_head (c := 'p') ?_ (by decide)
        simp [PresenceWidth.clearStatement, Place.text]

/-- Bitfields are cleared without a copy. -/
theorem copied_clearGroup (groups : List String) (atts : List Attribute) :
    ((clearGroup groups atts).map Statement.text).filterMap copied? = [] := by
  rw [clearGroup]
  split
  next =>
    have hremark : copied? "// Initialize optional attribute flags bitfield" = none :=
      copied_of_head (c := '/') (by decide) (by decide)
    have hclear := (copied_field (PresenceWidth.ofCount atts.length) groups "" 0).2
    simp [hremark, hclear]
  next => rfl

variable (hprotocol : IsName protocol) (hpath : ∀ name ∈ p.path, IsName name)

include hprotocol hpath

/-- What a decoder does for an attribute, read line by line. -/
theorem read_decodeTexts (storage : Storage) :
    (p.decodeTexts protocol storage).filterMap copied? = p.copies storage := by
  have hname := isName_node hpath
  have hpointer (member rest : String) : copied? ((p.place member).text ++ rest) = none :=
    copied_of_head (c := 'p') (by simp [Place.text]) (by decide)
  have hcarried (slot : Slot) : copied? (opening ("if (" ++
      (p.element protocol Naming.receiveRoot).slotText slot ++ " != NULL)")) = none :=
    copied_of_head (c := 'i') (by simp [opening]) (by decide)
  have hset : copied? (p.bit protocol).setText = none :=
    (copied_field _ (p.bit protocol).groups _ _).1
  have hpresence : (if p.node.optional then
      [opening ("if (" ++
          (p.element protocol Naming.receiveRoot).slotText (Slot.ofStorage storage) ++ " != NULL)"),
        (p.bit protocol).setText]
      else []).filterMap copied? = [] := by
    split <;> simp [hcarried, hset]
  rw [Position.decodeTexts, List.filterMap_cons_none (copied_remark _), List.filterMap_append,
    hpresence, List.nil_append]
  cases storage with
  | scalar scalar =>
      have hscalar : Unbroken scalar.cName := by cases scalar <;> decide
      have hsource := (unbroken_element hprotocol hpath
        (by decide : Unbroken Naming.receiveRoot)).2 .data
      have hcopy := copied_copy (unbroken_place hpath (isWord_numberMember hname)) hsource hscalar
      simp [Position.ownDecodes, Position.decodes, Position.copies, hcopy]
  | bytes | text =>
      simp [Position.ownDecodes, Position.decodes, Position.copies, hpointer, String.append_assoc]
  | nested => exact copied_clearGroup _ _

end Copies

/-! ## Functions of a command -/

theorem sides_indent (level : Nat) (text : String) : sides? (indent level text) = sides? text := by
  rw [sides?, words_indent, sides?]

theorem local_indent (level : Nat) (text : String) : local? (indent level text) = local? text := by
  rw [local?, declaredName?, declaration?, words_indent, local?, declaredName?, declaration?]

/-- The frame of a handler neither declares nor assigns. -/
theorem sides_frame {protocol : String} {cmd : Command} (hprotocol : IsName protocol)
    (hname : IsName cmd.name) : ∀ line ∈ Handler.frame protocol cmd,
      sides? line = none ∧ declaredName? line = none := by
  have hsignature : Avoids ['='] (opening (handlerSignature protocol cmd)) :=
    avoids_append.mpr ⟨avoids_signature (by decide) (by decide) hprotocol hname, by decide⟩
  have htodo : Avoids ['='] ("// TODO: process command " ++ cmd.name) :=
    avoids_append.mpr ⟨by decide, hname.isWord.avoids (by decide)⟩
  simp only [Handler.frame, List.forall_mem_cons]
  exact ⟨sides_of_avoids hsignature, by decide, by decide, by decide, by decide,
    sides_of_avoids htodo, by decide, List.forall_mem_nil _⟩

variable {protocol : Protocol} {cmd : Command}

/-- Declarations and assignments are read at every indentation, and there are none where blocks
end. -/
theorem lineReader_sides {α : Type} (read : String × String → Option α) :
    LineReader fun line => ((sides? line).bind read).toList where
  indented level text := by rw [sides_indent]
  closing := by rw [(by decide : sides? closing = none)]; rfl
  otherwise := by rw [(by decide : sides? (opening (closing ++ " else")) = none)]; rfl
  giveUp := by rw [(by decide : sides? "return false;" = none)]; rfl

theorem lineReader_local : LineReader fun line => (local? line).toList where
  indented level text := by rw [local_indent]
  closing := by decide
  otherwise := by decide
  giveUp := by decide

theorem lineReader_copied : LineReader fun line => (copied? line).toList where
  indented level text := by
    rw [copied?, unindented_of_indent, copied?]
  closing := by decide
  otherwise := by decide
  giveUp := by decide

/-- The assignments of a fresh handler, attribute by attribute, and the locals it declares. -/
theorem read_stub (hwell : WellFormed protocol) (hcmd : cmd ∈ protocol.commands) :
    (Handler.stub protocol.name cmd).filterMap sides? =
        cmd.positions.flatMap (·.stored Position.loadSides) ∧
      (Handler.stub protocol.name cmd).filterMap local? =
        (Handler.locals cmd).map Local.declared := by
  have hpath : ∀ p ∈ cmd.positions, ∀ name ∈ p.path, IsName name := fun p hp =>
    Command.isName_of_mem_path hwell hcmd hp
  have hframe := sides_frame hwell.protocol_name (hwell.command_names cmd hcmd)
  have hlocals : ∀ l ∈ Handler.locals cmd,
      local? l.declaration = some l.declared ∧ sides? l.declaration = none := fun l hl =>
    local_declaration (word_of_mem_locals hwell hcmd l hl).1 (word_of_mem_locals hwell hcmd l hl).2
  simp only [List.filterMap_eq_flatMap_toList]
  constructor
  · have hreader : LineReader fun line => (sides? line).toList := by
      simpa using lineReader_sides some
    rw [hreader.flatMap_stub (hwell.regular hcmd)
      fun line hline => by rw [(hframe line hline).1]; rfl]
    have hnone : (Handler.locals cmd).flatMap (fun l => (sides? l.declaration).toList) = [] :=
      List.flatMap_eq_nil_iff.mpr fun l hl => by rw [(hlocals l hl).2]; rfl
    rw [hnone, List.nil_append]
    refine Position.flatMap_stored fun p hp storage => ?_
    rw [← List.filterMap_eq_flatMap_toList]
    exact (read_loadTexts (hpath p hp) protocol.name storage).1
  · rw [lineReader_local.flatMap_stub (hwell.regular hcmd)
      fun line hline => by rw [local_of_none (hframe line hline).2]; rfl]
    have hloads : (cmd.positions.flatMap fun p =>
        (p.stored (Position.loadTexts protocol.name)).flatMap fun line => (local? line).toList) =
          cmd.positions.flatMap (·.stored fun _ _ => []) :=
      Position.flatMap_stored fun p hp storage => by
        rw [← List.filterMap_eq_flatMap_toList]
        exact (read_loadTexts (hpath p hp) protocol.name storage).2
    have hnone : cmd.positions.flatMap (·.stored fun _ _ => ([] : List Declaration)) = [] :=
      List.flatMap_eq_nil_iff.mpr fun p _ => by
        rw [Position.stored]
        cases p.node.dataType.storage <;> rfl
    rw [hloads, hnone, List.append_nil, ← List.filterMap_eq_flatMap_toList,
      ← List.filterMap_eq_map]
    exact List.filterMap_congr fun l hl => (hlocals l hl).1

/-- The numbers that a decoder copies, attribute by attribute. -/
theorem read_decoder (hwell : WellFormed protocol) (hcmd : cmd ∈ protocol.commands) :
    (Decoder.ofCommand protocol.name cmd).lines.filterMap copied? =
      cmd.positions.flatMap (·.stored Position.copies) := by
  have hpath : ∀ p ∈ cmd.positions, ∀ name ∈ p.path, IsName name := fun p hp =>
    Command.isName_of_mem_path hwell hcmd hp
  have hframe : ∀ line ∈ (Decoder.ofCommand protocol.name cmd).frame,
      (copied? line).toList = [] := by
    have hhead : copied? (opening (Decoder.ofCommand protocol.name cmd).head) = none :=
      copied_of_head (c := 's') (by unfold Decoder.head; simp [opening]) (by decide)
    simp only [Decoder.frame, List.forall_mem_cons, hhead]
    exact ⟨rfl, by decide, by decide, by decide, List.forall_mem_nil _⟩
  have hclear : ((clearGroup [cmd.name] cmd.attributes).map Statement.text).flatMap
      (fun line => (copied? line).toList) = [] := by
    rw [← List.filterMap_eq_flatMap_toList, copied_clearGroup]
  rw [List.filterMap_eq_flatMap_toList,
    lineReader_copied.flatMap_decoder (hwell.regular hcmd) hframe, hclear, List.nil_append]
  refine Position.flatMap_stored fun p hp storage => ?_
  rw [← List.filterMap_eq_flatMap_toList]
  exact read_decodeTexts hwell.protocol_name (hpath p hp) storage

/-- An encoder assigns the array of its command. -/
theorem sides_allocation (hwell : WellFormed protocol) (hcmd : cmd ∈ protocol.commands) :
    sides? (Encoder.ofCommand protocol.name cmd).allocation =
      some ("*pAttArrayPtr", allocateCall protocol.name
        (Naming.attributeCount protocol.name cmd.name) ++ ";") := by
  have hprotocol := hwell.protocol_name
  have hcall := unbroken_allocateCall hprotocol
    (isWord_attributeCount hprotocol (hwell.command_names cmd hcmd))
  have hsides := (sides_assignment (by decide : Unbroken "*pAttArrayPtr") hcall).1
  rw [← hsides]
  exact congrArg sides? (String.append_assoc ..)

/-- What is read in the assignments of an encoder, attribute by attribute, if nothing is read where
an element is marked as absent. -/
theorem read_encoder {α : Type} {read : String × String → Option α} (hwell : WellFormed protocol)
    (hcmd : cmd ∈ protocol.commands) (habsent : ∀ target, read (target, "NULL;") = none) :
    (Encoder.ofCommand protocol.name cmd).lines.filterMap (fun line => (sides? line).bind read) =
      (read ("*pAttArrayPtr", allocateCall protocol.name
        (Naming.attributeCount protocol.name cmd.name) ++ ";")).toList ++
        cmd.positions.flatMap (·.stored fun p storage =>
          (p.encodeSides protocol.name storage).filterMap read) := by
  have hpath : ∀ p ∈ cmd.positions, ∀ name ∈ p.path, IsName name := fun p hp =>
    Command.isName_of_mem_path hwell hcmd hp
  have hprotocol := hwell.protocol_name
  have hname := hwell.command_names cmd hcmd
  have hreader : LineReader fun line => ((sides? line).bind read).toList :=
    lineReader_sides read
  have hframe : ∀ line ∈ (Encoder.ofCommand protocol.name cmd).frame,
      ((sides? line).bind read).toList = [] := by
    have hhead : Avoids ['='] (opening (Encoder.ofCommand protocol.name cmd).head) :=
      avoids_append.mpr
        ⟨avoids_codecHead hprotocol hname (by decide) (.fixed rfl) (by decide), by decide⟩
    have hnone : ∀ line ∈ (Encoder.ofCommand protocol.name cmd).frame, sides? line = none := by
      simp only [Encoder.frame, List.forall_mem_cons]
      exact ⟨(sides_of_avoids hhead).1, by decide, by decide, by decide, by decide, by decide,
        List.forall_mem_nil _⟩
    exact fun line hline => by rw [hnone line hline]; rfl
  have hnone : ∀ p ∈ cmd.positions, ∀ slot, ((sides? (Statement.text
      (.putAbsent (p.element protocol.name Naming.transmitRoot) slot))).bind read).toList = [] := by
    intro p hp slot
    let target := p.element protocol.name Naming.transmitRoot
    have hsides : sides? (Statement.text (.putAbsent target slot)) =
        some (target.slotText slot, "NULL;") :=
      (sides_put hprotocol (hpath p hp) (by decide : Unbroken "NULL;")).2 slot
        (by simp [target, ← String.toList_inj])
    rw [hsides, Option.bind_some, habsent]
    rfl
  rw [List.filterMap_eq_flatMap_toList, hreader.flatMap_encoder (hwell.regular hcmd) hframe hnone,
    sides_allocation hwell hcmd, Option.bind_some]
  congr 1
  refine Position.flatMap_stored fun p hp storage => ?_
  rw [← List.filterMap_eq_flatMap_toList, ← List.filterMap_filterMap,
    read_encodeTexts hwell.protocol_name (hpath p hp)]

end Firmware
end CommandSet
