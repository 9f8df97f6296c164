import CommandSet.Proofs.Firmware.Counts
import CommandSet.Proofs.Firmware.FunctionBodies
import CommandSet.Proofs.Firmware.Handlers
import CommandSet.Proofs.Protocol.Paths
import CommandSet.Proofs.Text.Between

/-!
# Paths into the payload

Handlers, decoders and encoders reach into the payload by member paths behind a pointer.  All
paths on a line are found by looking for the pointer at each of its characters, and those of a
function are the paths of its attributes, one position after the other.

Main definitions:

- {lit}`payloadPaths`: the paths on a line.
- {lit}`Position.loadPaths`, {lit}`Position.decodePaths`, {lit}`Position.encodePaths`: the paths
  of an attribute in a handler, a decoder and an encoder.

Main results:

- Theorem {lit}`payloadPaths_place`: the path of a place is read off the text around it.
- Theorems {lit}`payloadPaths_stub`, {lit}`payloadPaths_decoder`, {lit}`payloadPaths_encoder`: the
  paths of the functions of a command.
-/

namespace CommandSet
namespace Firmware

/-! ## Reading -/

/-- Characters of paths: those of names and the point between them. -/
def isPathChar (c : Char) : Bool :=
  c.isAlphanum || c == '_' || c == '.'

/-- The pointer that all paths start behind. -/
def payloadPointer : List Char :=
  "pCmdPayload->".toList

/-- The runs of path characters behind every pointer in a text. -/
def pathRuns : List Char → List (List Char)
  | [] => []
  | c :: rest =>
      (((c :: rest).dropPrefix? payloadPointer).map (·.takeWhile isPathChar)).toList ++
        pathRuns rest

/-- The member paths on a line, each a list of names. -/
def payloadPaths (line : String) : List (List String) :=
  (pathRuns line.toList).map fun run => (run.splitOn '.').map String.ofList

/-- A text that has the pointer at its front shows an arrow behind twelve characters. -/
private theorem takeWhile_of_dropPrefix {text behind : List Char}
    (h : text.dropPrefix? payloadPointer = some behind) :
    text.takeWhile (· != '>') = "pCmdPayload-".toList := by
  obtain ⟨front, rfl, hfront⟩ := List.dropPrefix?_eq_some_iff.mp h
  obtain rfl := beq_iff_eq.mp hfront
  rfl

/-- A text whose first arrow does not stand behind the pointer has none at its front. -/
private theorem dropPrefix_eq_none {front : List Char} (behind : List Char) (hfront : '>' ∉ front)
    (hne : front ≠ "pCmdPayload-".toList) :
    (front ++ '>' :: behind).dropPrefix? payloadPointer = none := by
  by_contra hsome
  obtain ⟨rest, hrest⟩ := Option.ne_none_iff_exists'.mp hsome
  have hshown := takeWhile_of_dropPrefix hrest
  have hplain : ∀ c ∈ front, (c != '>') = true := fun c hc =>
    bne_iff_ne.mpr fun heq => hfront (heq ▸ hc)
  rw [List.takeWhile_append_of_pos hplain, List.takeWhile_cons_of_neg (by simp),
    List.append_nil] at hshown
  exact hne hshown

/-- A text without arrows holds no path. -/
theorem pathRuns_eq_nil {text : List Char} (h : '>' ∉ text) : pathRuns text = [] := by
  induction text with
  | nil => rfl
  | cons c rest ih =>
      have hnone : (c :: rest).dropPrefix? payloadPointer = none := by
        by_contra hsome
        obtain ⟨behind, hbehind⟩ := Option.ne_none_iff_exists'.mp hsome
        obtain ⟨front, heq, hfront⟩ := List.dropPrefix?_eq_some_iff.mp hbehind
        obtain rfl := beq_iff_eq.mp hfront
        exact h (heq ▸ List.mem_append_left _ (by decide))
      rw [pathRuns, hnone, ih fun hmem => h (List.mem_cons_of_mem c hmem)]
      rfl

/-- The rest of a pointer is no pointer. -/
private theorem pathRuns_of_length {front behind : List Char} (hfront : '>' ∉ front)
    (hlength : front.length < 12) (hbehind : '>' ∉ behind) :
    pathRuns (front ++ '>' :: behind) = [] := by
  induction front with
  | nil =>
      have hnone := dropPrefix_eq_none behind hfront (by decide)
      rw [List.nil_append] at hnone ⊢
      rw [pathRuns, hnone, pathRuns_eq_nil hbehind]
      rfl
  | cons c front ih =>
      have hnone := dropPrefix_eq_none behind hfront fun heq => by
        rw [heq] at hlength
        exact absurd hlength (by decide)
      rw [List.mem_cons, not_or] at hfront
      rw [List.length_cons] at hlength
      rw [List.cons_append] at hnone ⊢
      rw [pathRuns, hnone, ih hfront.2 (by omega)]
      rfl

/-- The path behind the only pointer of a text. -/
theorem pathRuns_pointer {front path back : List Char} (hfront : '>' ∉ front)
    (hpath : ∀ c ∈ path, isPathChar c = true) (hback : '>' ∉ back)
    (hend : ∀ c ∈ back.head?, isPathChar c = false) :
    pathRuns (front ++ (payloadPointer ++ (path ++ back))) = [path] := by
  have harrow : '>' ∉ path ++ back := by
    rw [List.mem_append, not_or]
    exact ⟨fun hmem => absurd (hpath _ hmem) (by decide), hback⟩
  induction front with
  | nil =>
      have hrun : (path ++ back).takeWhile isPathChar = path := by
        rw [List.takeWhile_append_of_pos hpath]
        cases back with
        | nil => rw [List.takeWhile_nil, List.append_nil]
        | cons c back =>
            rw [List.takeWhile_cons_of_neg (by simp [hend c rfl]), List.append_nil]
      have hrest : pathRuns ("CmdPayload-".toList ++ '>' :: (path ++ back)) = [] :=
        pathRuns_of_length (by decide) (by decide) harrow
      have hfound := dropPrefix_append payloadPointer (path ++ back)
      have hsplit : payloadPointer ++ (path ++ back) =
          'p' :: ("CmdPayload-".toList ++ '>' :: (path ++ back)) := rfl
      rw [List.nil_append, hsplit, pathRuns, hrest, ← hsplit, hfound, List.append_nil]
      simp only [Option.map_some, Option.toList_some, hrun]
  | cons c front ih =>
      have hsplit : c :: front ++ (payloadPointer ++ (path ++ back)) =
          (c :: front ++ "pCmdPayload-".toList) ++ '>' :: (path ++ back) := by
        have hpointer : payloadPointer = "pCmdPayload-".toList ++ ['>'] := rfl
        rw [hpointer, List.append_assoc, List.append_assoc, List.singleton_append]
      have hnone : (c :: front ++ (payloadPointer ++ (path ++ back))).dropPrefix? payloadPointer =
          none := by
        rw [hsplit]
        refine dropPrefix_eq_none _ ?_ fun heq => ?_
        · rw [List.mem_append, not_or]
          exact ⟨hfront, by decide⟩
        · have hlength := congrArg List.length heq
          simp at hlength
      rw [List.mem_cons, not_or] at hfront
      rw [List.cons_append, pathRuns, ← List.cons_append, hnone, ih hfront.2]
      rfl

/-! ## Places -/

/-- The names on the path of a place. -/
def Place.path (place : Place) : List String :=
  place.groups.map Naming.groupMember ++ [place.member]

/-- Places that are spelled with words. -/
structure Place.Spelled (place : Place) : Prop where
  groups : ∀ group ∈ place.groups, IsName group
  member : IsWord place.member

/-- Texts that end the path in front of them and hold no other. -/
structure EndsPath (text : String) : Prop where
  plain : Avoids ['>'] text
  first : ∀ c ∈ text.toList.head?, isPathChar c = false

instance (text : String) : Decidable (EndsPath text) :=
  decidable_of_iff (Avoids ['>'] text ∧ text.toList.head?.all (!isPathChar ·) = true) <| by
    simp only [Option.all_eq_true, Bool.not_eq_true']
    exact ⟨fun h => ⟨h.1, h.2⟩, fun h => ⟨h.plain, h.first⟩⟩

theorem EndsPath.append {first second : String} (hfirst : EndsPath first) (hne : first.toList ≠ [])
    (hsecond : Avoids ['>'] second) : EndsPath (first ++ second) where
  plain := avoids_append.mpr ⟨hfirst.plain, hsecond⟩
  first := by
    rw [String.toList_append, List.head?_append_of_ne_nil _ hne]
    exact hfirst.first

theorem payloadPaths_eq_nil {text : String} (h : Avoids ['>'] text) : payloadPaths text = [] := by
  rw [payloadPaths, pathRuns_eq_nil (h '>' List.mem_cons_self)]
  rfl

theorem Place.Spelled.isWord_path {place : Place} (h : place.Spelled) :
    ∀ name ∈ place.path, IsWord name := by
  rw [Place.path, List.forall_mem_append, List.forall_mem_map, List.forall_mem_singleton]
  exact ⟨fun group hgroup => (h.groups group hgroup).isWord.lower.append (.fixed rfl), h.member⟩

/-- The path of a place is read off the text around it. -/
theorem payloadPaths_place {place : Place} (front back : String) {text : String}
    (hplace : place.Spelled) (htext : text = front ++ (place.text ++ back))
    (hfront : Avoids ['>'] front) (hback : EndsPath back) : payloadPaths text = [place.path] := by
  have hword := hplace.isWord_path
  have hlist : text.toList = front.toList ++
      (payloadPointer ++ ([('.' : Char)].intercalate (place.path.map String.toList) ++
        back.toList)) := by
    rw [htext, Place.text, Naming.memberPath]
    simp only [String.toList_append, String.toList_intercalate, List.append_assoc]
    rfl
  have hchars : ∀ c ∈ [('.' : Char)].intercalate (place.path.map String.toList),
      isPathChar c = true := by
    intro c hc
    have hpart : c ∈ (String.intercalate "." place.path).toList := by
      rwa [String.toList_intercalate]
    by_contra hnot
    have hother : ∀ bad ∈ [c], ¬IsNameRest bad := by
      rw [List.forall_mem_singleton, ← isNameRest_iff]
      simp only [isPathChar, Bool.or_eq_true, not_or] at hnot
      simp [hnot.1]
    have hpoint : Avoids [c] "." := by
      rw [Avoids, List.forall_mem_singleton]
      have hne : c ≠ '.' := fun heq => hnot (heq ▸ rfl)
      simpa using hne
    have havoids := avoids_intercalate hpoint fun name hname => (hword name hname).avoids hother
    exact havoids c List.mem_cons_self hpart
  have hsplit : ∀ name ∈ place.path.map String.toList, '.' ∉ name := by
    rw [List.forall_mem_map]
    exact fun name hname hmem => absurd (hword name hname '.' hmem) (by decide)
  rw [payloadPaths, hlist, pathRuns_pointer (hfront '>' List.mem_cons_self) hchars
    (hback.plain '>' List.mem_cons_self) hback.first, List.map_singleton,
    List.splitOn_intercalate '.' hsplit (by simp [Place.path]), List.map_map]
  simp

/-! ## Texts of attributes -/

section Attributes

variable {protocol : String} {p : Position} {bad : List Char} {root : String}

theorem spelled_place (hpath : ∀ name ∈ p.path, IsName name) {member : String}
    (h : IsWord member) : (p.place member).Spelled :=
  ⟨(List.forall_mem_append.mp hpath).1, h⟩

theorem isName_node (hpath : ∀ name ∈ p.path, IsName name) : IsName p.node.name :=
  List.forall_mem_singleton.mp (List.forall_mem_append.mp hpath).2

theorem avoids_elementText (hprotocol : IsName protocol) (hpath : ∀ name ∈ p.path, IsName name)
    (hword : ∀ c ∈ bad, ¬IsNameRest c) (hroot : Avoids bad root)
    (hfixed : Avoids bad "[].Payload.pSubAttArray[") :
    Avoids bad (p.element protocol root).text := by
  have hopening : Avoids bad "[" ∧ Avoids bad "].Payload.pSubAttArray[" := avoids_append.mp hfixed
  have hclosing : Avoids bad "]" ∧ Avoids bad ".Payload.pSubAttArray[" :=
    avoids_append.mp hopening.2
  have hordinals := isWord_ordinals hprotocol (isName_node hpath)
    (List.forall_mem_append.mp hpath).1
  rw [Element.text, Naming.elementPath, avoids_append, avoids_append, avoids_append]
  exact ⟨⟨⟨hroot, hopening.1⟩,
    avoids_intercalate hopening.2 fun ordinal h => (hordinals ordinal h).avoids hword⟩, hclosing.1⟩

theorem avoids_slotText {element : Element} (h : Avoids bad element.text)
    (hfixed : ∀ part ∈ [".Payload.", "pData", "pSubAttArray"], Avoids bad part) (slot : Slot) :
    Avoids bad (element.slotText slot) := by
  simp only [List.forall_mem_cons] at hfixed
  obtain ⟨hpayload, hdata, harray, -⟩ := hfixed
  rw [Element.slotText, avoids_append, avoids_append]
  refine ⟨⟨h, hpayload⟩, ?_⟩
  cases slot with
  | data => exact hdata
  | subArray => exact harray

/-- The cell of a bitfield is the field or a part of it. -/
theorem exists_cellOf (width : PresenceWidth) (index : Nat) {ending : String}
    (hend : EndsPath ending) :
    ∃ back, EndsPath back ∧ ∀ field, width.cellOf field index ++ ending = field ++ back := by
  cases hcell : width.cell? index with
  | none =>
      refine ⟨ending, hend, fun field => ?_⟩
      rw [PresenceWidth.cellOf, hcell]
  | some cell =>
      refine ⟨"[" ++ (toString cell ++ ("]" ++ ending)), ?_, fun field => ?_⟩
      · refine EndsPath.append (by decide) (by decide) ?_
        rw [avoids_append, avoids_append]
        exact ⟨(isWord_toString cell).avoids (by decide), by decide, hend.plain⟩
      · rw [PresenceWidth.cellOf, hcell]
        simp only [String.append_assoc]

theorem isWord_presenceMember : IsWord presenceMember :=
  .fixed rfl

variable (hprotocol : IsName protocol) (hpath : ∀ name ∈ p.path, IsName name)

include hpath in
theorem spelled_field : (PresenceBit.field p.group.ancestors).Spelled :=
  ⟨(List.forall_mem_append.mp hpath).1, isWord_presenceMember⟩

include hprotocol hpath in
theorem avoids_flag : Avoids ['>'] (p.bit protocol).flag :=
  (isWord_attributeFlag hprotocol (isWord_getLastD (List.forall_mem_append.mp hpath).1)
    (isName_node hpath)).avoids (by decide)

include hprotocol hpath in
/-- The condition that an attribute is there names its bitfield. -/
theorem payloadPaths_test :
    payloadPaths (opening ("if " ++ (p.bit protocol).testText)) =
      [(PresenceBit.field p.group.ancestors).path] := by
  have hflag := avoids_flag hprotocol hpath
  have hending : EndsPath (" & " ++ ((p.bit protocol).flag ++ r") != 0) {")) := by
    refine EndsPath.append (by decide) (by decide) ?_
    rw [avoids_append]
    exact ⟨hflag, by decide⟩
  obtain ⟨back, hback, hcell⟩ :=
    exists_cellOf (p.bit protocol).width (p.bit protocol).index hending
  refine payloadPaths_place "if ((" back (spelled_field hpath) ?_ (by decide) hback
  rw [← hcell, PresenceBit.testText, PresenceWidth.testExpr, opening]
  simp [← String.toList_inj]
  rfl

include hprotocol hpath in
/-- So does the statement that notes it. -/
theorem payloadPaths_set :
    payloadPaths (p.bit protocol).setText = [(PresenceBit.field p.group.ancestors).path] := by
  have hending : EndsPath (" |= " ++ ((p.bit protocol).flag ++ ";")) := by
    refine EndsPath.append (by decide) (by decide) ?_
    rw [avoids_append]
    exact ⟨avoids_flag hprotocol hpath, by decide⟩
  obtain ⟨back, hback, hcell⟩ :=
    exists_cellOf (p.bit protocol).width (p.bit protocol).index hending
  refine payloadPaths_place "" back (spelled_field hpath) ?_ (by decide) hback
  rw [← hcell, PresenceBit.setText, PresenceWidth.setStatement, String.empty_append]
  simp only [String.append_assoc]
  rfl

/-- The statement that clears a bitfield names it. -/
theorem payloadPaths_clear {groups : List String} (h : ∀ group ∈ groups, IsName group)
    (width : PresenceWidth) : payloadPaths (Statement.clearPresence groups width).text =
      [(PresenceBit.field groups).path] := by
  have hfield : (PresenceBit.field groups).Spelled := ⟨h, isWord_presenceMember⟩
  rw [Statement.text_clearPresence]
  cases width with
  | bytes n =>
      refine payloadPaths_place "memset(" (", 0, " ++ (toString n ++ ");")) hfield ?_ (by decide)
        (EndsPath.append (by decide) (by decide) ?_)
      · simp only [PresenceWidth.clearStatement, String.append_assoc]
      · rw [avoids_append]
        exact ⟨(isWord_toString n).avoids (by decide), by decide⟩
  | u8 | u16 | u32 =>
      exact payloadPaths_place "" " = 0;" hfield
        (String.empty_append).symm (by decide) (by decide)

/-- Bitfields are cleared where there are any. -/
theorem payloadPaths_clearGroup (groups : List String) (h : ∀ group ∈ groups, IsName group)
    (atts : List Attribute) :
    ((clearGroup groups atts).map Statement.text).flatMap payloadPaths =
      if atts.any (·.optional) then [(PresenceBit.field groups).path] else [] := by
  rw [clearGroup]
  split
  next =>
    have hremark : payloadPaths "// Initialize optional attribute flags bitfield" = [] :=
      payloadPaths_eq_nil (by decide)
    have hclear := payloadPaths_clear h (PresenceWidth.ofCount atts.length)
    rw [Statement.text_clearPresence] at hclear
    simp [hremark, hclear]
  next => rfl

end Attributes

end Firmware

/-! ## Functions -/

namespace Position

open Firmware

/-- The path of the bitfield that holds the bit of an attribute, if it is optional. -/
def presencePaths (p : Position) : List (List String) :=
  if p.node.optional then [(PresenceBit.field p.group.ancestors).path] else []

/-- The paths of members in the group of an attribute. -/
def memberPaths (p : Position) (members : List String) : List (List String) :=
  members.map fun member => (p.place member).path

/-- The members that a handler reads. -/
def loadMembers (p : Position) : Storage → List String
  | .scalar _ => [numberMember p.node.name]
  | .bytes => [pointerMember p.node.name, sizeMember p.node.name]
  | .text => [pointerMember p.node.name]
  | .nested => []

/-- The members that a decoder writes. -/
def decodeMembers (p : Position) : Storage → List String
  | .scalar _ => [numberMember p.node.name]
  | .bytes => [sizeMember p.node.name, pointerMember p.node.name]
  | .text => [pointerMember p.node.name]
  | .nested => []

/-- The members that an encoder reads; of a text also the length is taken. -/
def encodeMembers (p : Position) : Storage → List String
  | .scalar _ => [numberMember p.node.name]
  | .bytes => [sizeMember p.node.name, pointerMember p.node.name]
  | .text => [pointerMember p.node.name, pointerMember p.node.name]
  | .nested => []

/-- The path of the bitfield below an attribute, if there is one. -/
def belowPaths (p : Position) : List (List String) :=
  if p.node.children.any (·.optional) then [(PresenceBit.field p.below.ancestors).path] else []

/-- The paths by which a handler reads an attribute. -/
def loadPaths (p : Position) (storage : Storage) : List (List String) :=
  p.presencePaths ++ p.memberPaths (p.loadMembers storage)

/-- The paths by which a decoder writes an attribute; of a complex one the bitfield is cleared. -/
def decodePaths (p : Position) (storage : Storage) : List (List String) :=
  p.presencePaths ++ (p.memberPaths (p.decodeMembers storage) ++
    if storage = .nested then p.belowPaths else [])

/-- The paths by which an encoder reads an attribute. -/
def encodePaths (p : Position) (storage : Storage) : List (List String) :=
  p.presencePaths ++ p.memberPaths (p.encodeMembers storage)

end Position

namespace Firmware

variable {protocol : String} {p : Position}

section Values

variable (hprotocol : IsName protocol) (hpath : ∀ name ∈ p.path, IsName name)

include hpath

/-- The path of a member is read off the text around it. -/
theorem payloadPaths_member (front back : String) {member text : String} (hmember : IsWord member)
    (htext : text = front ++ ((p.place member).text ++ back)) (hfront : Avoids ['>'] front)
    (hback : EndsPath back) : payloadPaths text = [(p.place member).path] :=
  payloadPaths_place front back (spelled_place hpath hmember) htext hfront hback

/-- A heading holds no path. -/
theorem payloadPaths_heading (title : String) (h : Avoids ['>'] title) :
    payloadPaths ("// " ++ (title ++ p.node.name)) = [] := by
  refine payloadPaths_eq_nil ?_
  rw [avoids_append, avoids_append]
  exact ⟨by decide, h, (isName_node hpath).isWord.avoids (by decide)⟩

/-- A member that is copied into a local. -/
theorem payloadPaths_copied {name member : String} (hname : IsWord name) (hmember : IsWord member) :
    payloadPaths (name ++ " = " ++ (p.place member).text ++ ";") = [(p.place member).path] :=
  payloadPaths_member hpath _ _ hmember (String.append_assoc ..)
    (avoids_append.mpr ⟨hname.avoids (by decide), by decide⟩) (by decide)

/-- A member that is given to an element, between a text in front and one behind. -/
theorem payloadPaths_put (front back : String) {target member : String}
    (htarget : Avoids ['>'] target) (hmember : IsWord member) (hfront : Avoids ['>'] front)
    (hback : EndsPath back) :
    payloadPaths (target ++ front ++ (p.place member).text ++ back) = [(p.place member).path] :=
  payloadPaths_member hpath _ _ hmember (String.append_assoc ..)
    (avoids_append.mpr ⟨htarget, hfront⟩) hback

include hprotocol

theorem avoids_arrow (root : String) (hroot : Avoids ['>'] root) :
    Avoids ['>'] (p.element protocol root).text ∧
      ∀ slot, Avoids ['>'] ((p.element protocol root).slotText slot) := by
  have helement := avoids_elementText hprotocol hpath (by decide) hroot (by decide)
  exact ⟨helement, avoids_slotText helement (by decide)⟩

/-- A number that is copied out of an element. -/
theorem payloadPaths_takeNumber {member : String} (hmember : IsWord member) (scalar : Scalar) :
    payloadPaths ("memcpy(&(" ++ (p.place member).text ++ "), " ++
        (p.element protocol Naming.receiveRoot).slotText .data ++ ", sizeof(" ++ scalar.cName ++
          "));") = [(p.place member).path] := by
  refine payloadPaths_member hpath "memcpy(&("
    ("), " ++ ((p.element protocol Naming.receiveRoot).slotText .data ++
      (", sizeof(" ++ (scalar.cName ++ "));")))) hmember ?_ (by decide) ?_
  · simp only [String.append_assoc]
  · have hslot := (avoids_arrow hprotocol hpath Naming.receiveRoot (by decide)).2 .data
    refine EndsPath.append (by decide) (by decide) ?_
    rw [avoids_append, avoids_append, avoids_append]
    exact ⟨hslot, by decide, by cases scalar <;> decide, by decide⟩

/-- A member that is taken over from an element. -/
theorem payloadPaths_take {member : String} (hmember : IsWord member) :
    payloadPaths ((p.place member).text ++ " = " ++
        (p.element protocol Naming.receiveRoot).text ++ ".PayloadSize;") =
          [(p.place member).path] ∧
      payloadPaths ((p.place member).text ++ " = " ++
        (p.element protocol Naming.receiveRoot).slotText .data ++ ";") =
          [(p.place member).path] := by
  have hplain := avoids_arrow hprotocol hpath Naming.receiveRoot (by decide)
  have htake {source : String} (hsource : Avoids ['>'] source) {ending : String}
      (hend : Avoids ['>'] ending) :
      payloadPaths ((p.place member).text ++ " = " ++ source ++ ending) =
        [(p.place member).path] := by
    refine payloadPaths_member hpath "" (" = " ++ (source ++ ending)) hmember
      ?_ (by decide) ?_
    · simp only [String.append_assoc, String.empty_append]
    · exact EndsPath.append (by decide) (by decide) (avoids_append.mpr ⟨hsource, hend⟩)
  exact ⟨htake hplain.1 (by decide), htake (hplain.2 .data) (by decide)⟩

end Values

variable (hprotocol : IsName protocol) (hpath : ∀ name ∈ p.path, IsName name)

include hprotocol hpath

omit hprotocol in
/-- The paths that a handler reads for a value itself. -/
theorem flatMap_ownLoads (protocol : String) (storage : Storage) :
    ((p.ownLoads protocol storage).map Statement.text).flatMap payloadPaths =
      p.memberPaths (p.loadMembers storage) := by
  have hname := isName_node hpath
  have hstem : IsWord p.stem := isWord_localStem (List.forall_mem_append.mp hpath).1 hname
  obtain ⟨-, hnumber, hpointer, hsize⟩ := isWord_locals hstem
  have hscalar := payloadPaths_copied hpath hnumber (isWord_numberMember hname)
  have hdata := payloadPaths_copied hpath hpointer (isWord_pointerMember hname)
  have hlength := payloadPaths_copied hpath hsize (isWord_sizeMember hname)
  cases storage <;>
    simp [Position.ownLoads, Position.loads, Position.loadMembers, Position.memberPaths, hscalar,
      hdata, hlength]

omit hprotocol in
/-- The note that an attribute is there names no path. -/
theorem payloadPaths_note : payloadPaths (presentLocal p.stem ++ " = true;") = [] := by
  have hstem : IsWord p.stem :=
    isWord_localStem (List.forall_mem_append.mp hpath).1 (isName_node hpath)
  exact payloadPaths_eq_nil
    (avoids_append.mpr ⟨(isWord_locals hstem).1.avoids (by decide), by decide⟩)

/-- The paths that a handler reads for an attribute. -/
theorem flatMap_loadTexts (storage : Storage) :
    (p.loadTexts protocol storage).flatMap payloadPaths = p.loadPaths storage := by
  have htest := payloadPaths_test hprotocol hpath
  have hnote := payloadPaths_note hpath
  rw [Position.loadTexts, Position.loadPaths, Position.presencePaths, List.flatMap_append,
    flatMap_ownLoads hpath]
  congr 1
  split <;> simp [htest, hnote]

/-- The condition that an element carries something names no path. -/
theorem payloadPaths_carried (slot : Slot) : payloadPaths (opening ("if (" ++
    (p.element protocol Naming.receiveRoot).slotText slot ++ " != NULL)")) = [] := by
  have hslot := (avoids_arrow hprotocol hpath Naming.receiveRoot (by decide)).2 slot
  refine payloadPaths_eq_nil ?_
  rw [opening, avoids_append, avoids_append, avoids_append]
  exact ⟨⟨⟨by decide, hslot⟩, by decide⟩, by decide⟩

/-- The paths that a decoder writes for a value itself; of a complex attribute the bitfield is
cleared. -/
theorem flatMap_ownDecodes (storage : Storage) :
    ((p.ownDecodes protocol storage).map Statement.text).flatMap payloadPaths =
      p.memberPaths (p.decodeMembers storage) ++
        if storage = .nested then p.belowPaths else [] := by
  have hname := isName_node hpath
  have hscalar := payloadPaths_takeNumber hprotocol hpath (isWord_numberMember hname)
  have hdata := (payloadPaths_take hprotocol hpath (isWord_pointerMember hname)).2
  have hlength := (payloadPaths_take hprotocol hpath (isWord_sizeMember hname)).1
  have hbelow := payloadPaths_clearGroup p.below.ancestors hpath p.node.children
  cases storage <;>
    simp [Position.ownDecodes, Position.decodes, Position.decodeMembers, Position.memberPaths,
      Position.belowPaths, hscalar, hdata, hlength, hbelow]

/-- The paths that a decoder writes for an attribute. -/
theorem flatMap_decodeTexts (storage : Storage) :
    (p.decodeTexts protocol storage).flatMap payloadPaths = p.decodePaths storage := by
  have hcarried := payloadPaths_carried hprotocol hpath
  have hheading := payloadPaths_heading hpath "Retrieve data of attribute " (by decide)
  have hset := payloadPaths_set hprotocol hpath
  rw [Position.decodeTexts, Position.decodePaths, Position.presencePaths, List.flatMap_cons,
    hheading, List.nil_append, List.flatMap_append, flatMap_ownDecodes hprotocol hpath]
  congr 1
  split <;> simp [hcarried, hset]

/-- The paths that an encoder reads for a value itself. -/
theorem flatMap_ownEncodes (storage : Storage) :
    ((p.ownEncodes protocol storage).map Statement.text).flatMap payloadPaths =
      p.memberPaths (p.encodeMembers storage) := by
  have hname := isName_node hpath
  obtain ⟨helement, hslot⟩ := avoids_arrow hprotocol hpath Naming.transmitRoot (by decide)
  have hnumber := isWord_numberMember hname
  have hpointer := isWord_pointerMember hname
  have hsize := isWord_sizeMember hname
  have hcount : Avoids ['>'] (Naming.subAttributeCount protocol p.node.name) :=
    (isWord_subAttributeCount hprotocol hname).avoids (by decide)
  cases storage with
  | scalar scalar =>
      have hwidth : payloadPaths ((p.element protocol Naming.transmitRoot).text ++
          ".PayloadSize = sizeof(" ++ scalar.cName ++ ");") = [] := by
        refine payloadPaths_eq_nil ?_
        rw [avoids_append, avoids_append, avoids_append]
        exact ⟨⟨⟨helement, by decide⟩, by cases scalar <;> decide⟩, by decide⟩
      have haddress := payloadPaths_put hpath " = &(" ");" (hslot .data) hnumber
        (by decide) (by decide)
      simp [Position.ownEncodes, Position.encodes, Position.encodeMembers,
        Position.memberPaths, hwidth, haddress]
  | bytes | text =>
      have hlength := payloadPaths_put hpath ".PayloadSize = " ";" helement hsize
        (by decide) (by decide)
      have hcounted := payloadPaths_put hpath ".PayloadSize = strlen(" ");" helement hpointer
        (by decide) (by decide)
      have hdata := payloadPaths_put hpath " = " ";" (hslot .data) hpointer
        (by decide) (by decide)
      simp [Position.ownEncodes, Position.encodes, Position.encodeMembers,
        Position.memberPaths, hlength, hcounted, hdata]
  | nested =>
      have hput : payloadPaths ((p.element protocol Naming.transmitRoot).text ++
          ".PayloadSize = " ++ Naming.subAttributeCount protocol p.node.name ++ ";") = [] := by
        refine payloadPaths_eq_nil ?_
        rw [avoids_append, avoids_append, avoids_append]
        exact ⟨⟨⟨helement, by decide⟩, hcount⟩, by decide⟩
      have hallocate : payloadPaths ((p.element protocol Naming.transmitRoot).slotText
          .subArray ++ " = " ++
            allocateCall protocol (Naming.subAttributeCount protocol p.node.name) ++ ";") =
          [] := by
        refine payloadPaths_eq_nil ?_
        rw [avoids_append, avoids_append, avoids_append]
        exact ⟨⟨⟨hslot .subArray, by decide⟩, avoids_allocateCall (by decide) (by decide)
          hprotocol (isWord_subAttributeCount hprotocol hname)⟩, by decide⟩
      have hrequire : payloadPaths (opening ("if (" ++
          (p.element protocol Naming.transmitRoot).slotText .subArray ++ " == NULL)")) = [] := by
        refine payloadPaths_eq_nil ?_
        rw [opening, avoids_append, avoids_append, avoids_append]
        exact ⟨⟨⟨by decide, hslot .subArray⟩, by decide⟩, by decide⟩
      simp [Position.ownEncodes, Position.encodeMembers, Position.memberPaths, hput, hallocate,
        hrequire]

/-- The paths that an encoder reads for an attribute. -/
theorem flatMap_encodeTexts (storage : Storage) :
    (p.encodeTexts protocol storage).flatMap payloadPaths = p.encodePaths storage := by
  have hheading := payloadPaths_heading hpath "Fill attribute " (by decide)
  have htest := payloadPaths_test hprotocol hpath
  rw [Position.encodeTexts, Position.encodePaths, Position.presencePaths, List.flatMap_cons,
    hheading, List.nil_append, List.flatMap_append, flatMap_ownEncodes hprotocol hpath]
  congr 1
  split <;> simp [htest]

omit hprotocol hpath

/-! ## Functions of a command -/

theorem pathRuns_blank (text : List Char) : pathRuns (' ' :: text) = pathRuns text := by
  have hnone : (' ' :: text).dropPrefix? payloadPointer = none := rfl
  rw [pathRuns, hnone]
  rfl

/-- Paths are found at every indentation. -/
theorem lineReader_payloadPaths : LineReader payloadPaths where
  indented := by
    intro level text
    rw [payloadPaths, payloadPaths, toList_indent]
    congr 1
    induction 4 * level with
    | zero => rfl
    | succ n ih => rw [List.replicate_succ, List.cons_append, pathRuns_blank, ih]
  closing := payloadPaths_eq_nil (by decide)
  otherwise := payloadPaths_eq_nil (by decide)
  giveUp := payloadPaths_eq_nil (by decide)

variable {protocol : Protocol} {cmd : Command}

theorem avoids_arrow_declaration {l : Local} (h : IsWord l.name) :
    Avoids ['>'] l.declaration := by
  have hname : Avoids ['>'] l.name := h.avoids (by decide)
  obtain ⟨type, name⟩ := l
  cases type with
  | number scalar =>
      have hscalar : Avoids ['>'] scalar.cName := by cases scalar <;> decide
      simp only [Local.declaration, avoids_append]
      exact ⟨⟨⟨hscalar, by decide⟩, hname⟩, by decide⟩
  | _ =>
      simp only [Local.declaration, avoids_append]
      exact ⟨⟨by decide, hname⟩, by decide⟩

section Commands

variable (hwell : WellFormed protocol) (hcmd : cmd ∈ protocol.commands)

include hwell hcmd

/-- The attributes of a command store something, and are reached by names. -/
theorem stores_position {p : Position} (hp : p ∈ cmd.positions) : p ∈ protocol.positions ∧
    (∀ name ∈ p.path, IsName name) ∧ ∃ storage, p.node.dataType.storage = some storage := by
  have hposition : p ∈ protocol.positions := List.mem_flatMap.mpr ⟨cmd, hcmd, hp⟩
  have hnode : p.node ∈ protocol.attributes := by
    rw [← map_node_positions]
    exact List.mem_map_of_mem hposition
  have hregular : p.node.Regular := ⟨hwell.types _ hnode, hwell.children _ hnode⟩
  obtain ⟨storage, hstorage, -⟩ := hregular.stores
  exact ⟨hposition, Command.isName_of_mem_path hwell hcmd hp, storage, hstorage⟩

/-- A handler names no path around what it does for the attributes, and its locals name none. -/
theorem payloadPaths_handlerFrame :
    (∀ line ∈ Handler.frame protocol.name cmd, payloadPaths line = []) ∧
      ∀ l ∈ Handler.locals cmd, payloadPaths l.declaration = [] := by
  have hprotocol := hwell.protocol_name
  have hname := hwell.command_names cmd hcmd
  constructor
  · have hsignature : Avoids ['>'] (opening (handlerSignature protocol.name cmd)) :=
      avoids_append.mpr
        ⟨avoids_signature (by decide) (by decide) hprotocol hname, by decide⟩
    have htodo : Avoids ['>'] ("// TODO: process command " ++ cmd.name) :=
      avoids_append.mpr ⟨by decide, hname.isWord.avoids (by decide)⟩
    simp only [Handler.frame, List.forall_mem_cons]
    exact ⟨payloadPaths_eq_nil hsignature, payloadPaths_eq_nil (by decide),
      payloadPaths_eq_nil (by decide), payloadPaths_eq_nil (by decide),
      payloadPaths_eq_nil (by decide), payloadPaths_eq_nil htodo,
      payloadPaths_eq_nil (by decide), List.forall_mem_nil _⟩
  · intro l hl
    have hatts : ∀ att ∈ Attribute.forest cmd.attributes, IsName att.name := fun att hatt =>
      hwell.attribute_names att (List.mem_flatMap.mpr ⟨cmd, hcmd, hatt⟩)
    exact payloadPaths_eq_nil (avoids_arrow_declaration
      (isWord_declareAll _ _ (List.forall_mem_singleton.mpr hname) hatts l hl))

/-- A decoder names no path around what it does for the attributes. -/
theorem payloadPaths_decoderFrame :
    ∀ line ∈ (Decoder.ofCommand protocol.name cmd).frame, payloadPaths line = [] := by
  have hprotocol := hwell.protocol_name
  have hname := hwell.command_names cmd hcmd
  have hhead : Avoids ['>'] (opening (Decoder.ofCommand protocol.name cmd).head) :=
    avoids_append.mpr
      ⟨avoids_codecHead hprotocol hname (by decide) (.fixed rfl) (by decide), by decide⟩
  simp only [Decoder.frame, List.forall_mem_cons]
  exact ⟨payloadPaths_eq_nil hhead, payloadPaths_eq_nil (by decide),
    payloadPaths_eq_nil (by decide), payloadPaths_eq_nil (by decide), List.forall_mem_nil _⟩

/-- An encoder names no path around what it does for the attributes, nor where it allocates. -/
theorem payloadPaths_encoderFrame :
    (∀ line ∈ (Encoder.ofCommand protocol.name cmd).frame, payloadPaths line = []) ∧
      payloadPaths (Encoder.ofCommand protocol.name cmd).allocation = [] := by
  have hprotocol := hwell.protocol_name
  have hname := hwell.command_names cmd hcmd
  constructor
  · have hhead : Avoids ['>'] (opening (Encoder.ofCommand protocol.name cmd).head) :=
      avoids_append.mpr
        ⟨avoids_codecHead hprotocol hname (by decide) (.fixed rfl) (by decide), by decide⟩
    simp only [Encoder.frame, List.forall_mem_cons]
    exact ⟨payloadPaths_eq_nil hhead, payloadPaths_eq_nil (by decide),
      payloadPaths_eq_nil (by decide), payloadPaths_eq_nil (by decide),
      payloadPaths_eq_nil (by decide), payloadPaths_eq_nil (by decide), List.forall_mem_nil _⟩
  · refine payloadPaths_eq_nil ?_
    unfold Encoder.allocation
    rw [avoids_append, avoids_append]
    exact ⟨⟨by decide, avoids_allocateCall (by decide) (by decide) hprotocol
      (isWord_attributeCount hprotocol hname)⟩, by decide⟩

/-- Where an element is marked as absent, no path is named. -/
theorem payloadPaths_absent : ∀ p ∈ cmd.positions, ∀ slot, payloadPaths (Statement.text
    (.putAbsent (p.element protocol.name Naming.transmitRoot) slot)) = [] := by
  intro p hp slot
  have hslot := (avoids_arrow hwell.protocol_name (Command.isName_of_mem_path hwell hcmd hp)
    Naming.transmitRoot (by decide)).2 slot
  rw [Statement.text_putAbsent]
  exact payloadPaths_eq_nil (avoids_append.mpr ⟨hslot, by decide⟩)

/-- The paths in the fresh handler of a command. -/
theorem payloadPaths_stub :
    (Handler.stub protocol.name cmd).flatMap payloadPaths =
      cmd.positions.flatMap (·.stored Position.loadPaths) := by
  obtain ⟨hframe, hdeclared⟩ := payloadPaths_handlerFrame hwell hcmd
  have hlocals : (Handler.locals cmd).flatMap (fun l => payloadPaths l.declaration) = [] :=
    List.flatMap_eq_nil_iff.mpr hdeclared
  rw [lineReader_payloadPaths.flatMap_stub (hwell.regular hcmd) hframe, hlocals, List.nil_append]
  exact Position.flatMap_stored fun p hp storage => flatMap_loadTexts hwell.protocol_name
    (Command.isName_of_mem_path hwell hcmd hp) storage

/-- The paths in the decoder of a command: first that of its own bitfield, if it has one. -/
theorem payloadPaths_decoder :
    (Decoder.ofCommand protocol.name cmd).lines.flatMap payloadPaths =
      (if cmd.attributes.any (·.optional) then [(PresenceBit.field [cmd.name]).path] else []) ++
        cmd.positions.flatMap (·.stored Position.decodePaths) := by
  rw [lineReader_payloadPaths.flatMap_decoder (hwell.regular hcmd)
      (payloadPaths_decoderFrame hwell hcmd),
    payloadPaths_clearGroup [cmd.name]
      (List.forall_mem_singleton.mpr (hwell.command_names cmd hcmd))]
  congr 1
  exact Position.flatMap_stored fun p hp storage => flatMap_decodeTexts hwell.protocol_name
    (Command.isName_of_mem_path hwell hcmd hp) storage

/-- The paths in the encoder of a command. -/
theorem payloadPaths_encoder :
    (Encoder.ofCommand protocol.name cmd).lines.flatMap payloadPaths =
      cmd.positions.flatMap (·.stored Position.encodePaths) := by
  obtain ⟨hframe, hallocation⟩ := payloadPaths_encoderFrame hwell hcmd
  rw [lineReader_payloadPaths.flatMap_encoder (hwell.regular hcmd) hframe
    (payloadPaths_absent hwell hcmd), hallocation, List.nil_append]
  exact Position.flatMap_stored fun p hp storage => flatMap_encodeTexts hwell.protocol_name
    (Command.isName_of_mem_path hwell hcmd hp) storage

end Commands

end Firmware
end CommandSet
