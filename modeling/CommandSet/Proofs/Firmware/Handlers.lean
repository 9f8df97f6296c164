import CommandSet.Proofs.Firmware.Signatures
import CommandSet.Proofs.Protocol.WellFormed

/-!
# Fresh handlers

A fresh handler is generated code between its signature and a closing brace, whatever
the attributes of its command are.

Main definition:

- {lit}`Handler.stubMiddle`: the lines between the first and the last of a fresh handler.

Main results:

- Theorem {lit}`Handler.stub_eq`: the three parts of a fresh handler.
- Theorem {lit}`Handler.code_stubMiddle`: its inner lines are generated code.
-/

namespace CommandSet
namespace Firmware

/-! ## Texts -/

/-- Stems of locals are words. -/
theorem isWord_localStem {ancestors : List String} {name : String}
    (hancestors : ∀ ancestor ∈ ancestors, IsName ancestor) (hname : IsName name) :
    IsWord (Naming.localStem ancestors name) := by
  refine isWord_intercalate ?_
  rw [List.forall_mem_append, List.forall_mem_singleton, List.forall_mem_map]
  exact ⟨fun ancestor h => (hancestors ancestor (List.mem_of_mem_drop h)).isWord.lower,
    hname.isWord.lower⟩

/-- Places hold names, points and an arrow. -/
theorem avoids_placeText {bad : List Char} (hword : ∀ c ∈ bad, ¬IsNameRest c)
    (hfixed : Avoids bad "pCmdPayload->.") {groups : List String} {member : String}
    (hgroups : ∀ group ∈ groups, IsName group) (hmember : IsWord member) :
    Avoids bad (Place.text ⟨groups, member⟩) := by
  have hparts : Avoids bad "pCmdPayload->" ∧ Avoids bad "." := avoids_append.mp hfixed
  have htext : Place.text ⟨groups, member⟩ =
      "pCmdPayload->" ++ Naming.memberPath groups member := rfl
  rw [htext, avoids_append]
  refine ⟨hparts.1, avoids_intercalate hparts.2 ?_⟩
  rw [List.forall_mem_append, List.forall_mem_singleton, List.forall_mem_map]
  refine ⟨fun group h => ?_, hmember.avoids hword⟩
  exact ((hgroups group h).isWord.lower.append (.fixed rfl)).avoids hword

/-- Calls that allocate hold names and what stands around them. -/
theorem avoids_allocateCall {bad : List Char} (hword : ∀ c ∈ bad, ¬IsNameRest c)
    (hfixed : ∀ part ∈ ["LCSF_Bridge_", "AllocateAtt(", ")"], Avoids bad part)
    {protocol count : String} (hprotocol : IsName protocol) (hcount : IsWord count) :
    Avoids bad (allocateCall protocol count) := by
  simp only [List.forall_mem_cons] at hfixed
  unfold allocateCall
  rw [avoids_append, avoids_append, avoids_append, avoids_append]
  exact ⟨⟨⟨⟨hfixed.1, hprotocol.isWord.avoids hword⟩, hfixed.2.1⟩, hcount.avoids hword⟩,
    hfixed.2.2.1⟩

theorem isWord_numberMember {name : String} (h : IsName name) : IsWord (numberMember name) :=
  h.isWord.lower

theorem isWord_pointerMember {name : String} (h : IsName name) : IsWord (pointerMember name) :=
  IsWord.append (.fixed rfl) h.isWord.lower

theorem isWord_sizeMember {name : String} (h : IsName name) : IsWord (sizeMember name) :=
  h.isWord.lower.append (.fixed rfl)

theorem isWord_attributeOrdinal {protocol parent name : String} (hprotocol : IsName protocol)
    (hparent : IsWord parent) (hname : IsName name) :
    IsWord (Naming.attributeOrdinal protocol parent name) :=
  (((hprotocol.isWord.upper.append (.fixed rfl)).append hparent.upper).append (.fixed rfl)).append
    hname.isWord.upper

theorem isWord_attributeFlag {protocol parent name : String} (hprotocol : IsName protocol)
    (hparent : IsWord parent) (hname : IsName name) :
    IsWord (Naming.attributeFlag protocol parent name) :=
  (isWord_attributeOrdinal hprotocol hparent hname).append (.fixed rfl)

/-- The ordinals that lead to an attribute are words. -/
theorem isWord_ordinals {protocol : String} (hprotocol : IsName protocol) {name : String}
    (hname : IsName name) {ancestors : List String}
    (hancestors : ∀ ancestor ∈ ancestors, IsName ancestor) :
    ∀ ordinal ∈ Naming.ordinals protocol ancestors name, IsWord ordinal := by
  induction ancestors with
  | nil =>
      have hnone : IsWord "" := by simp [IsWord]
      exact List.forall_mem_singleton.mpr (isWord_attributeOrdinal hprotocol hnone hname)
  | cons parent rest ih =>
      rw [List.forall_mem_cons] at hancestors
      cases rest with
      | nil =>
          exact List.forall_mem_singleton.mpr
            (isWord_attributeOrdinal hprotocol hancestors.1.isWord hname)
      | cons child rest =>
          have hchild := (List.forall_mem_cons.mp hancestors.2).1
          exact List.forall_mem_cons.mpr
            ⟨isWord_attributeOrdinal hprotocol hancestors.1.isWord hchild, ih hancestors.2⟩

theorem avoids_attributeFlag {protocol parent name : String} (hprotocol : IsName protocol)
    (hparent : IsWord parent) (hname : IsName name) :
    Avoids codeBreaks (Naming.attributeFlag protocol parent name) :=
  avoids_word (isWord_attributeFlag hprotocol hparent hname)

/-- Cells hold their field, a number and brackets. -/
theorem avoids_cellOf {bad : List Char} (hword : ∀ c ∈ bad, ¬IsNameRest c)
    (hfixed : Avoids bad "[]") {width : PresenceWidth} {field : String} {index : Nat}
    (h : Avoids bad field) : Avoids bad (width.cellOf field index) := by
  have hparts : Avoids bad "[" ∧ Avoids bad "]" := avoids_append.mp hfixed
  rw [PresenceWidth.cellOf]
  split
  · simp only [avoids_append]
    exact ⟨⟨⟨h, hparts.1⟩, (isWord_toString _).avoids hword⟩, hparts.2⟩
  · exact h

theorem avoids_testText {bit : PresenceBit} (hgroups : ∀ group ∈ bit.groups, IsName group)
    (hflag : Avoids codeBreaks bit.flag) : Avoids codeBreaks bit.testText := by
  have hfield : Avoids codeBreaks (PresenceBit.field bit.groups).text :=
    avoids_placeText not_isNameRest_of_mem_codeBreaks (.fixed rfl) hgroups (.fixed rfl)
  simp only [PresenceBit.testText, PresenceWidth.testExpr, avoids_append]
  exact ⟨⟨⟨⟨.fixed rfl, avoids_cellOf not_isNameRest_of_mem_codeBreaks (.fixed rfl) hfield⟩,
    .fixed rfl⟩, hflag⟩, .fixed rfl⟩

/-! ## Locals -/

theorem avoids_declaration {l : Local} (h : IsWord l.name) : Avoids codeBreaks l.declaration := by
  have hname := avoids_word h
  obtain ⟨type, name⟩ := l
  cases type with
  | number scalar =>
      have hscalar : Avoids codeBreaks scalar.cName := by cases scalar <;> decide
      simp only [Local.declaration, avoids_append]
      exact ⟨⟨⟨hscalar, .fixed rfl⟩, hname⟩, .fixed rfl⟩
  | _ =>
      simp only [Local.declaration, avoids_append]
      exact ⟨⟨.fixed rfl, hname⟩, .fixed rfl⟩

theorem isWord_locals {stem : String} (h : IsWord stem) :
    IsWord (presentLocal stem) ∧ IsWord (numberLocal stem) ∧ IsWord (pointerLocal stem) ∧
      IsWord (sizeLocal stem) := by
  have hfixed : IsWord "is_" ∧ IsWord "_here" ∧ IsWord "m_" ∧ IsWord "m_p_" ∧ IsWord "_size" := by
    simp [IsWord, IsNameRest, IsNameStart]
  obtain ⟨his, hhere, hm, hp, hsize⟩ := hfixed
  exact ⟨(his.append h).append hhere, hm.append h, hp.append h, (hm.append h).append hsize⟩

mutual

/-- The locals of an attribute are words. -/
theorem isWord_declare : (ancestors : List String) → (att : Attribute) →
    (∀ ancestor ∈ ancestors, IsName ancestor) → (∀ b ∈ att.subtree, IsName b.name) →
    ∀ l ∈ declare ancestors att, IsWord l.name
  | ancestors, ⟨name, id, optional, dataType, children, description⟩, hancestors, hnames => by
      rw [Attribute.subtree, List.forall_mem_cons] at hnames
      obtain ⟨hname, hchildren⟩ := hnames
      obtain ⟨hpresent, hnumber, hpointer, hsize⟩ :=
        isWord_locals (isWord_localStem hancestors hname)
      rw [declare]
      cases hstorage : dataType.storage with
      | none => simp
      | some storage =>
          simp only [List.forall_mem_append]
          refine ⟨?_, ?_⟩
          · split
            · exact List.forall_mem_singleton.mpr hpresent
            · simp
          · cases storage with
            | scalar scalar => exact List.forall_mem_singleton.mpr hnumber
            | bytes =>
                exact List.forall_mem_cons.mpr ⟨hpointer, List.forall_mem_singleton.mpr hsize⟩
            | text => exact List.forall_mem_singleton.mpr hpointer
            | nested =>
                refine isWord_declareAll (ancestors ++ [name]) children ?_ hchildren
                rw [List.forall_mem_append, List.forall_mem_singleton]
                exact ⟨hancestors, hname⟩

/-- The locals of sibling attributes are words. -/
theorem isWord_declareAll : (ancestors : List String) → (atts : List Attribute) →
    (∀ ancestor ∈ ancestors, IsName ancestor) → (∀ b ∈ Attribute.forest atts, IsName b.name) →
    ∀ l ∈ declareAll ancestors atts, IsWord l.name
  | _, [], _, _ => by simp [declareAll]
  | ancestors, att :: rest, hancestors, hnames => by
      rw [Attribute.forest, List.forall_mem_append] at hnames
      rw [declareAll, List.forall_mem_append]
      exact ⟨isWord_declare ancestors att hancestors hnames.1,
        isWord_declareAll ancestors rest hancestors hnames.2⟩

end

/-! ## Statements -/

theorem allLines_append (level : Nat) (first second : List Statement) :
    Statement.allLines level (first ++ second) =
      Statement.allLines level first ++ Statement.allLines level second := by
  induction first with
  | nil => simp [Statement.allLines]
  | cons statement first ih =>
      rw [List.cons_append, Statement.allLines, Statement.allLines, ih, List.append_assoc]

/-- Copying a member into a local is a line. -/
private theorem code_load {level : Nat} {name : String} {source : Place} {rest : List Statement}
    (hname : IsWord name) (hsource : Avoids codeBreaks source.text)
    (hrest : Code (Statement.allLines level rest)) :
    Code (Statement.allLines level (.load name source :: rest)) := by
  rw [Statement.allLines, Statement.lines, List.singleton_append]
  refine .line (avoids_lineBreaks ?_) hrest
  simp only [avoids_indent (by decide : ' ' ∉ codeBreaks), avoids_append]
  exact ⟨⟨⟨avoids_word hname, .fixed rfl⟩, hsource⟩, .fixed rfl⟩

/-- Statements that may stand under a presence test are generated code with it. -/
private theorem code_guarded {level : Nat} {optional : Bool} {bit : PresenceBit} {name : String}
    {values : List Statement} (hgroups : ∀ group ∈ bit.groups, IsName group)
    (hflag : Avoids codeBreaks bit.flag) (hname : IsWord name)
    (hvalues : ∀ level, Code (Statement.allLines level values)) :
    Code (Statement.allLines level
      (if optional then [.ifPresent bit (.notePresent name :: values) []] else values)) := by
  cases optional with
  | false => exact hvalues level
  | true =>
      have hhead : Avoids codeBreaks ("if " ++ bit.testText) := by
        rw [avoids_append]
        exact ⟨.fixed rfl, avoids_testText hgroups hflag⟩
      have hnote : Avoids lineBreaks (indent (level + 1) (name ++ " = true;")) := by
        refine avoids_lineBreaks ?_
        simp only [avoids_indent (by decide : ' ' ∉ codeBreaks), avoids_append]
        exact ⟨avoids_word hname, .fixed rfl⟩
      have hbody : Code (Statement.allLines (level + 1) (.notePresent name :: values)) := by
        rw [Statement.allLines, Statement.lines, List.singleton_append]
        exact .line hnote (hvalues (level + 1))
      have hblock := Code.block level hhead hbody .nil
      simpa [Statement.allLines, Statement.lines] using hblock

/-- The group that an attribute lies in, or none for a command's own. -/
theorem isWord_getLastD {ancestors : List String}
    (h : ∀ ancestor ∈ ancestors, IsName ancestor) : IsWord (ancestors.getLastD "") := by
  rw [List.getLastD_eq_getLast?]
  cases hlast : ancestors.getLast? with
  | none => simp [IsWord]
  | some ancestor => exact (h ancestor (List.mem_of_getLast? hlast)).isWord

mutual

/-- The statements of an attribute are generated code. -/
theorem code_loadOne (protocol : String) (hprotocol : IsName protocol) : (ancestors : List String) →
    (width : PresenceWidth) → (index : Nat) → (att : Attribute) →
    (∀ ancestor ∈ ancestors, IsName ancestor) → (∀ b ∈ att.subtree, IsName b.name) →
    ∀ level, Code (Statement.allLines level (load protocol ancestors width index att))
  | ancestors, width, index, ⟨name, id, optional, dataType, children, description⟩, hancestors,
      hnames => by
      intro level
      rw [Attribute.subtree, List.forall_mem_cons] at hnames
      obtain ⟨hname, hchildren⟩ := hnames
      obtain ⟨hpresent, hnumber, hpointer, hsize⟩ :=
        isWord_locals (isWord_localStem hancestors hname)
      have hplace {member : String} (h : IsWord member) :
          Avoids codeBreaks (Place.text ⟨ancestors, member⟩) :=
        avoids_placeText not_isNameRest_of_mem_codeBreaks (.fixed rfl) hancestors h
      have hflag := avoids_attributeFlag hprotocol (isWord_getLastD hancestors) hname
      have hnested : ∀ ancestor ∈ ancestors ++ [name], IsName ancestor := by
        rw [List.forall_mem_append, List.forall_mem_singleton]
        exact ⟨hancestors, hname⟩
      rw [load]
      cases dataType.storage with
      | none => exact .nil
      | some storage =>
          cases storage with
          | scalar _ =>
              exact code_guarded hancestors hflag hpresent fun level =>
                code_load hnumber (hplace (isWord_numberMember hname)) .nil
          | bytes =>
              exact code_guarded hancestors hflag hpresent fun level =>
                code_load hpointer (hplace (isWord_pointerMember hname))
                  (code_load hsize (hplace (isWord_sizeMember hname)) .nil)
          | text =>
              exact code_guarded hancestors hflag hpresent fun level =>
                code_load hpointer (hplace (isWord_pointerMember hname)) .nil
          | nested =>
              exact code_guarded hancestors hflag hpresent fun level =>
                code_loadAll protocol hprotocol _ _ 0 children hnested hchildren level

/-- The statements of sibling attributes are generated code. -/
theorem code_loadAll (protocol : String) (hprotocol : IsName protocol) : (ancestors : List String) →
    (width : PresenceWidth) → (index : Nat) → (atts : List Attribute) →
    (∀ ancestor ∈ ancestors, IsName ancestor) → (∀ b ∈ Attribute.forest atts, IsName b.name) →
    ∀ level, Code (Statement.allLines level (loadAll protocol ancestors width index atts))
  | _, _, _, [], _, _ => by
      intro level
      exact .nil
  | ancestors, width, index, att :: rest, hancestors, hnames => by
      intro level
      rw [Attribute.forest, List.forall_mem_append] at hnames
      rw [loadAll, allLines_append]
      exact (code_loadOne protocol hprotocol ancestors width index att hancestors hnames.1
        level).append
        (code_loadAll protocol hprotocol ancestors width (index + 1) rest hancestors hnames.2 level)

end

/-! ## Whole handlers -/

/-- The lines of a fresh handler between its signature and its closing brace. -/
def Handler.stubMiddle (protocol : String) (cmd : Command) : List String :=
  (if cmd.hasAttributes then
    [indent 1 (opening "if (pCmdPayload == NULL)"), indent 2 "return false;",
      indent 1 closing, indent 1 "// Declare attributes"] ++
      (Handler.locals cmd).map (fun l => indent 1 l.declaration) ++
      [indent 1 "// Retrieve attributes data"] ++ Statement.allLines 1 (Handler.loads protocol cmd)
  else []) ++
  [indent 1 "// Process data", indent 1 ("// TODO: process command " ++ cmd.name),
    indent 1 "return true;"]

/-- A fresh handler is its signature, its inner lines and a closing brace. -/
theorem Handler.stub_eq (protocol : String) (cmd : Command) :
    Handler.stub protocol cmd =
      opening (handlerSignature protocol cmd) ::
        (Handler.stubMiddle protocol cmd ++ [closing]) := by
  simp only [Handler.stub, Handler.stubMiddle, List.append_assoc, List.cons_append,
    List.nil_append]

private theorem code_declarations {locals : List Local} (h : ∀ l ∈ locals, IsWord l.name) :
    Code (locals.map fun l => indent 1 l.declaration) := by
  induction locals with
  | nil => exact .nil
  | cons l locals ih =>
      rw [List.forall_mem_cons] at h
      refine .line ?_ (ih h.2)
      exact (avoids_indent (by decide)).mpr (avoids_lineBreaks (avoids_declaration h.1))

/-- The inner lines of a fresh handler are generated code. -/
theorem Handler.code_stubMiddle {protocol : String} {cmd : Command} (hprotocol : IsName protocol)
    (hcmd : IsName cmd.name) (hnames : ∀ att ∈ Attribute.forest cmd.attributes, IsName att.name) :
    Code (Handler.stubMiddle protocol cmd) := by
  have hancestors : ∀ ancestor ∈ [cmd.name], IsName ancestor := List.forall_mem_singleton.mpr hcmd
  have hend : Code [indent 1 "// Process data", indent 1 ("// TODO: process command " ++ cmd.name),
      indent 1 "return true;"] := by
    refine .line (by decide) (.line ?_ (.line (by decide) .nil))
    rw [avoids_indent (by decide), avoids_append]
    exact ⟨by decide, avoids_lineBreaks (avoids_word hcmd.isWord)⟩
  rw [Handler.stubMiddle]
  refine Code.append ?_ hend
  split
  · have hguard : Code [indent 1 (opening "if (pCmdPayload == NULL)"), indent 2 "return false;",
        indent 1 closing, indent 1 "// Declare attributes"] := by
      have hreturn : Code [indent 2 "return false;"] := .line (by decide) .nil
      exact .block 1 (by decide) hreturn (.line (by decide) .nil)
    have hlocals : Code ((Handler.locals cmd).map fun l => indent 1 l.declaration) :=
      code_declarations (isWord_declareAll _ _ hancestors hnames)
    have hremark : Code [indent 1 "// Retrieve attributes data"] := .line (by decide) .nil
    have hloads : Code (Statement.allLines 1 (Handler.loads protocol cmd)) :=
      code_loadAll protocol hprotocol _ _ _ _ hancestors hnames 1
    exact ((hguard.append hlocals).append hremark).append hloads
  · exact .nil

end Firmware
end CommandSet
