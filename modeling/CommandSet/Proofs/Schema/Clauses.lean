import CommandSet.Proofs.Schema.Numbers
import CommandSet.Proofs.Schema.Quoting

/-!
# Attributes, commands and protocols as written

The clauses of the grammar read every way of writing an attribute, a command or a
protocol.  The proofs follow the nesting of attributes: a body is read once the
attributes in it are, and an attribute once its body is.  The limits of the grammar are
kept by counting tokens, since every nested body and every attribute takes some.

Main results:

- Theorem {lit}`attribute_read`: a written attribute is read as a draft of it.
- Theorem {lit}`command_read`: a written command is read as a draft of it.
- Theorem {lit}`document_read`: a written protocol is read as a draft of it.
-/

namespace CommandSet
namespace Schema

open Grammar

/-! ## Numbers as identifiers -/

/-- A numeral whose value fits names an identifier. -/
theorem itemId_of_value {owner : String} {id : Int16} {numeral : Numeral}
    (h : numeral.value = id.toInt) : itemId owner numeral = .ok id := by
  have hlow := Int16.le_toInt id
  have hhigh := Int16.toInt_lt id
  have hword : numeralWord numeral = .ok id.toInt := by
    have hmin : ¬id.toInt < -0x8000000000000000 := by omega
    have hmax : ¬0x8000000000000000 ≤ id.toInt := by omega
    simp only [numeralWord, Numeral.word?, h, if_neg hmin, if_neg hmax, Except.mapError]
  have hfits : -0x8000 ≤ id.toInt ∧ id.toInt < 0x8000 := ⟨by omega, by omega⟩
  simp only [itemId, hword, bind, Except.bind, if_pos hfits, Int16.ofInt_toInt]
  rfl

theorem protocolId_of_value {id : UInt16} {numeral : Numeral} (h : numeral.value = id.toNat) :
    protocolId numeral = .ok id := by
  have hhigh := UInt16.toNat_lt id
  have hword : numeralWord numeral = .ok (id.toNat : Int) := by
    have hmin : ¬(id.toNat : Int) < -0x8000000000000000 := by omega
    have hmax : ¬0x8000000000000000 ≤ (id.toNat : Int) := by omega
    simp only [numeralWord, Numeral.word?, h, if_neg hmin, if_neg hmax, Except.mapError]
  have hfits : 0 ≤ (id.toNat : Int) ∧ (id.toNat : Int) < 0x10000 := ⟨by omega, by omega⟩
  simp only [protocolId, hword, bind, Except.bind, if_pos hfits, Int.toNat_natCast,
    UInt16.ofNat_toNat]
  rfl

/-! ## Optional parts -/

/-- The word in front of an attribute is read or found missing; either way the
attribute is next. -/
theorem optional_read {optional : Bool} {text next : List Char}
    (hspread : Spread (optionalTokens optional) text) (hsolid : Solid next)
    (hnext : ¬"optional".toList <+: next) :
    ∃ found : Option Unit, found.isSome = optional ∧
      ReadsUpTo (Reader.maybe optionalWord) (text ++ next) found next := by
  cases optional with
  | false =>
      cases hspread
      have hword : Refuses optionalWord next := (refuses_word hnext).named _
      exact ⟨none, rfl, next, hword.maybe, reads_no_layout hsolid⟩
  | true =>
      cases hspread with
      | @cons _ _ gap _ hgap hrest =>
          cases hrest
          have hword : ReadsToken optionalWord "optional".toList () := fun rest hrest =>
            (readsToken_word "optional" rest hrest).named _
          obtain ⟨mid, hread, hlayout⟩ := hword.upTo hgap hsolid
          refine ⟨some (), rfl, mid, ?_, hlayout⟩
          simpa using hread.maybe

/-- A description is read or found missing; either way the body is next. -/
theorem description_read {description : String} {tokens : List Token} {text next : List Char}
    (h : DescriptionTokens description tokens) (hplain : '\\' ∉ description.toList)
    (hspread : Spread tokens text) (hsolid : Solid next) (hnext : ¬"\"".toList <+: next) :
    ∃ draft, describe draft = description ∧
      ReadsUpTo (Reader.maybe string) (text ++ next) draft next := by
  cases h with
  | omitted =>
      cases hspread
      have hstring : Refuses string next := ((refuses_word hnext).bind).named _
      exact ⟨none, rfl, next, hstring.maybe, reads_no_layout hsolid⟩
  | @quoted _ chars hchars =>
      cases hspread with
      | @cons _ _ gap _ hgap hrest =>
          cases hrest
          obtain ⟨mid, hread, hlayout⟩ := (readsToken_string hchars hplain).upTo hgap hsolid
          refine ⟨some chars, ?_, mid, ?_, hlayout⟩
          · rw [describe, Option.map_some, Option.getD_some, unescape_eq_ofList hchars hplain,
              String.ofList_toList]
          · simpa using hread.maybe

theorem DescriptionTokens.solid {description : String} {tokens : List Token}
    {text next : List Char} (h : DescriptionTokens description tokens)
    (hspread : Spread tokens text) (hnext : Solid next) : Solid (text ++ next) := by
  cases h with
  | omitted =>
      cases hspread
      exact hnext
  | quoted _ =>
      cases hspread
      simp [Solid, layoutStarts, layoutBlanks]

/-! ## Entries -/

/-- The word, the name and the number with which an item starts. -/
theorem entry_read {β : Type} {w name : String} {number : Token} {n : Int} {numeral : Numeral}
    {text next rest : List Char} {f : String → Numeral → Reader β} {b : β} (hname : IsName name)
    (hnumber : NumberToken n number) (hnumeral : ReadsToken Grammar.number number numeral)
    (hspread : Spread [w.toList, name.toList, ['='], number] text) (hsolid : Solid next)
    (hf : ReadsUpTo (f name numeral) next b rest) :
    ReadsUpTo
      (do
        Reader.word w
        layout
        let name ← ident
        layout
        Reader.word "="
        layout
        let id ← Grammar.number
        layout
        f name id)
      (text ++ next) b rest := by
  cases hspread with
  | cons hgap₁ hspread =>
  cases hspread with
  | cons hgap₂ hspread =>
  cases hspread with
  | cons hgap₃ hspread =>
  cases hspread with
  | cons hgap₄ hspread =>
  cases hspread
  simp only [List.append_assoc, List.nil_append]
  have hequals : SolidToken ['='] := by simp [SolidToken, Solid, layoutStarts, layoutBlanks]
  refine ReadsUpTo.bind_upTo ((readsToken_word w).upTo hgap₁ ?_) ?_
  · exact (solidToken_name hname).solid_append _
  refine ReadsUpTo.bind_upTo ((readsToken_ident hname).upTo hgap₂ ?_) ?_
  · exact hequals.solid_append _
  refine ReadsUpTo.bind_upTo ((readsToken_word "=").upTo hgap₃ ?_) ?_
  · exact hnumber.solidToken.solid_append _
  exact ReadsUpTo.bind_upTo (hnumeral.upTo hgap₄ hsolid) hf

/-! ## Bodies -/

/-- What may be written down of an attribute. -/
def PlainAttribute (att : Attribute) : Prop :=
  IsName att.name ∧ '\\' ∉ att.description.toList

/-- Written attributes are read one after the other, up to a text with which no
attribute starts. -/
def AttributesRead (atts : List Attribute) : Prop :=
  ∀ (limit depth count : Nat) ⦃tokens : List Token⦄ ⦃text next : List Char⦄,
    AttributesTokens atts tokens → Spread tokens text → Solid next →
    Refuses (attributeClause (body limit depth)) next →
    tokens.length ≤ limit → tokens.length ≤ depth → tokens.length ≤ count →
    ∃ drafts, AttributeDraft.toAttributes drafts = .ok atts ∧
      Reads (Reader.many layout (attributeClause (body limit depth)) count) (text ++ next)
        drafts next

/-- No attribute starts with a closing brace. -/
theorem refuses_attributeClause (limit depth : Nat) (rest : List Char) :
    Refuses (attributeClause (body limit depth)) ('}' :: rest) := by
  have hsolid : Solid ('}' :: rest) := by simp [Solid, layoutStarts, layoutBlanks]
  have hword : Refuses optionalWord ('}' :: rest) := (refuses_word (by simp)).named _
  exact (hword.maybe.bind_refuses
    ((reads_no_layout hsolid).bind_refuses (refuses_word (by simp)).bind)).named _

/-- A written attribute starts with one of two words. -/
theorem AttributeTokens.solid {att : Attribute} {tokens : List Token} {text : List Char}
    (h : AttributeTokens att tokens) (hspread : Spread tokens text) (rest : List Char) :
    Solid (text ++ rest) := by
  cases h with
  | mk _ _ _ =>
      cases hoptional : att.optional <;> rw [hoptional] at hspread <;> cases hspread <;>
        simp [Solid, layoutStarts, layoutBlanks]

theorem AttributeTokens.length_pos {att : Attribute} {tokens : List Token}
    (h : AttributeTokens att tokens) : 0 < tokens.length := by
  cases h with
  | mk _ _ _ =>
      simp only [List.length_append, List.length_cons]
      omega

theorem AttributesTokens.solid {atts : List Attribute} {tokens : List Token}
    {text rest : List Char} (h : AttributesTokens atts tokens) (hspread : Spread tokens text)
    (hrest : Solid rest) : Solid (text ++ rest) := by
  cases h with
  | nil =>
      cases hspread
      exact hrest
  | cons hfirst _ =>
      obtain ⟨first, more, hfirstSpread, -, rfl⟩ := hspread.append_inv
      rw [List.append_assoc]
      exact hfirst.solid hfirstSpread _

/-- A written body starts neither with layout nor with a quote. -/
theorem BodyTokens.next {atts : List Attribute} {tokens : List Token} {text : List Char}
    (h : BodyTokens atts tokens) (hspread : Spread tokens text) (rest : List Char) :
    Solid (text ++ rest) ∧ ¬"\"".toList <+: text ++ rest := by
  cases h with
  | terminator =>
      cases hspread
      simp [Solid, layoutStarts, layoutBlanks]
  | braces _ =>
      cases hspread
      simp [Solid, layoutStarts, layoutBlanks]

/-- No body starts with the terminator, which stands for none. -/
theorem terminator_read (limit depth : Nat) {text next : List Char} (hspread : Spread [[';']] text)
    (hsolid : Solid next) :
    ReadsUpTo (bodyOrTerminator (body limit depth)) (text ++ next) [] next := by
  cases hspread with
  | @cons _ _ gap _ hgap hrest =>
      cases hrest
      have hbody : Refuses (body limit depth) (';' :: (gap ++ next)) := by
        cases depth with
        | zero => exact fun offset attempts => ⟨attempts, rfl⟩
        | succ depth => exact ((refuses_word (by simp)).bind).named _
      have hword : Reads terminator (';' :: (gap ++ next)) () (gap ++ next) :=
        (reads_word ";" (gap ++ next)).named _
      have hread : Reads (bodyOrTerminator (body limit depth)) (';' :: (gap ++ next)) []
          (gap ++ next) := by
        refine hbody.orElse ?_
        exact hword.bind (reads_pure [] _)
      refine ⟨gap ++ next, ?_, reads_layout hgap.layout hsolid⟩
      simpa using hread

/-- Attributes in braces are read once the attributes are. -/
theorem braces_read {atts : List Attribute} (hatts : AttributesRead atts) (limit depth : Nat)
    {inner : List Token} {text next : List Char} (hinner : AttributesTokens atts inner)
    (hspread : Spread (['{'] :: (inner ++ [['}']])) text) (hsolid : Solid next)
    (hlimit : inner.length ≤ limit) (hdepth : inner.length ≤ depth) :
    ∃ drafts, AttributeDraft.toAttributes drafts = .ok atts ∧
      ReadsUpTo (body limit (depth + 1)) (text ++ next) drafts next := by
  cases hspread with
  | @cons _ _ gap _ hgap hrest =>
      obtain ⟨inside, closing, hinside, hclosing, rfl⟩ := hrest.append_inv
      cases hclosing with
      | @cons _ _ last _ hlast hnil =>
          cases hnil
          have hstop : Solid ('}' :: (last ++ next)) := by
            simp [Solid, layoutStarts, layoutBlanks]
          obtain ⟨drafts, hdrafts, hread⟩ := hatts limit depth limit hinner hinside hstop
            (refuses_attributeClause limit depth (last ++ next)) hlimit hdepth hlimit
          have hopen : ReadsUpTo (Reader.word r"{")
              ('{' :: (gap ++ (inside ++ '}' :: (last ++ next)))) ()
              (inside ++ '}' :: (last ++ next)) :=
            (readsToken_word r"{").upTo hgap (hinner.solid hinside hstop)
          have hmany : ReadsUpTo (Reader.many layout (attributeClause (body limit depth)) limit)
              (inside ++ '}' :: (last ++ next)) drafts ('}' :: (last ++ next)) :=
            ⟨_, hread, reads_no_layout hstop⟩
          have hclose : ReadsUpTo (Reader.word r"}") ('}' :: (last ++ next)) () next :=
            (readsToken_word r"}").upTo hlast hsolid
          refine ⟨drafts, hdrafts, ?_⟩
          simp only [List.cons_append, List.append_assoc, List.nil_append]
          refine ReadsUpTo.named .body ?_
          refine hopen.bind_upTo ?_
          refine hmany.bind_upTo ?_
          exact hclose.map fun _ => drafts

/-- A body is read once the attributes in it are. -/
theorem body_read {atts : List Attribute} (hatts : AttributesRead atts) {tokens : List Token}
    {text next : List Char} {limit depth : Nat} (h : BodyTokens atts tokens)
    (hspread : Spread tokens text) (hsolid : Solid next) (hlimit : tokens.length ≤ limit)
    (hdepth : tokens.length ≤ depth) :
    ∃ drafts, AttributeDraft.toAttributes drafts = .ok atts ∧
      ReadsUpTo (bodyOrTerminator (body limit depth)) (text ++ next) drafts next := by
  cases h with
  | terminator => exact ⟨[], rfl, terminator_read limit depth hspread hsolid⟩
  | @braces _ inner hinner =>
      simp only [List.length_cons, List.length_append, List.length_nil] at hlimit hdepth
      obtain ⟨depth, rfl⟩ : ∃ d, depth = d + 1 := ⟨depth - 1, by omega⟩
      obtain ⟨drafts, hdrafts, mid, hread, hlayout⟩ :=
        braces_read hatts limit depth hinner hspread hsolid (by omega) (by omega)
      have hread : Reads (bodyOrTerminator (body limit (depth + 1))) (text ++ next) drafts mid :=
        hread.orElse _
      exact ⟨drafts, hdrafts, mid, hread, hlayout⟩

/-! ## Attributes -/

/-- A written attribute is read up to the layout behind it. -/
def AttributeRead (att : Attribute) : Prop :=
  ∀ (limit depth : Nat) ⦃tokens : List Token⦄ ⦃text next : List Char⦄,
    AttributeTokens att tokens → Spread tokens text → Solid next →
    tokens.length ≤ limit → tokens.length ≤ depth →
    ∃ draft, AttributeDraft.toAttribute draft = .ok att ∧
      ReadsUpTo (attributeClause (body limit depth)) (text ++ next) draft next

/-- Words of types are names. -/
theorem isName_keyword (dataType : DataType) : IsName dataType.keyword :=
  isIdentifier_iff.mp (by cases dataType <;> decide)

theorem isName_directionKeyword (direction : Direction) : IsName direction.keyword :=
  isIdentifier_iff.mp (by cases direction <;> decide)

/-- The description and the body with which an item ends. -/
theorem tail_read {β : Type} {description : String} {atts : List Attribute}
    {quoted bodyTokens : List Token} {text next : List Char} (limit depth : Nat)
    (g : Option (List Char) → List AttributeDraft → β) (hatts : AttributesRead atts)
    (hquoted : DescriptionTokens description quoted) (hbackslash : '\\' ∉ description.toList)
    (hbody : BodyTokens atts bodyTokens) (hspread : Spread (quoted ++ bodyTokens) text)
    (hsolid : Solid next) (hlimit : bodyTokens.length ≤ limit)
    (hdepth : bodyTokens.length ≤ depth) :
    Solid (text ++ next) ∧
      ∃ draft drafts, describe draft = description ∧
        AttributeDraft.toAttributes drafts = .ok atts ∧
        ReadsUpTo
          (do
            let description ← Reader.maybe string
            layout
            let children ← bodyOrTerminator (body limit depth)
            pure (g description children))
          (text ++ next) (g draft drafts) next := by
  obtain ⟨front, inner, hfront, hinner, rfl⟩ := hspread.append_inv
  obtain ⟨drafts, hdrafts, hbodyRead⟩ := body_read hatts hbody hinner hsolid hlimit hdepth
  obtain ⟨hbodySolid, hbodyQuote⟩ := hbody.next hinner next
  obtain ⟨draft, hdescribe, hread⟩ :=
    description_read hquoted hbackslash hfront hbodySolid hbodyQuote
  rw [List.append_assoc]
  refine ⟨hquoted.solid hfront hbodySolid, draft, drafts, hdescribe, hdrafts, ?_⟩
  exact hread.bind_upTo (hbodyRead.map (g draft))

/-- The type of an attribute. -/
private theorem typed_read {β : Type} {dataType : DataType} {text next rest : List Char}
    {f : String → Reader β} {b : β} (hspread : Spread [[':'], dataType.keyword.toList] text)
    (hsolid : Solid next) (hf : ReadsUpTo (f dataType.keyword) next b rest) :
    ReadsUpTo
      (do
        Reader.word ":"
        layout
        let typeWord ← ident
        layout
        f typeWord)
      (text ++ next) b rest := by
  have hname := isName_keyword dataType
  cases hspread with
  | cons hgap₁ hspread =>
  cases hspread with
  | cons hgap₂ hspread =>
  cases hspread
  simp only [List.append_assoc, List.nil_append]
  refine ReadsUpTo.bind_upTo ((readsToken_word ":").upTo hgap₁ ?_) ?_
  · exact (solidToken_name hname).solid_append _
  exact ReadsUpTo.bind_upTo ((readsToken_ident hname).upTo hgap₂ hsolid) hf

/-- An attribute is read once its sub-attributes are. -/
theorem AttributesRead.owner {att : Attribute} (hchildren : AttributesRead att.children)
    (hplain : PlainAttribute att) : AttributeRead att := by
  intro limit depth tokens text next h hspread hsolid hlimit hdepth
  obtain ⟨hname, hbackslash⟩ := hplain
  cases h with
  | @mk _ number description body hnumber hdescription hbody =>
      obtain ⟨numeral, hvalue, hnumeral⟩ := readsToken_number hnumber
      obtain ⟨front, rest, hfront, hrest, rfl⟩ := hspread.append_inv
      obtain ⟨clause, tail, hclause, htail, rfl⟩ := hrest.append_inv
      have hclause : Spread (["attribute".toList, att.name.toList, ['='], number] ++
          [[':'], att.dataType.keyword.toList]) clause := hclause
      obtain ⟨entry, typed, hentry, htyped, rfl⟩ := hclause.append_inv
      simp only [List.length_append] at hlimit hdepth
      obtain ⟨htailSolid, quotedDraft, drafts, hdescribe, hdrafts, htailRead⟩ :=
        tail_read limit depth
          (AttributeDraft.mk att.optional att.name numeral att.dataType.keyword) hchildren
          hdescription hbackslash hbody htail hsolid (by omega) (by omega)
      have htypedSolid : Solid (typed ++ (tail ++ next)) := by
        cases htyped
        simp [Solid, layoutStarts, layoutBlanks]
      have hword : Solid (entry ++ (typed ++ (tail ++ next))) ∧
          ¬"optional".toList <+: entry ++ (typed ++ (tail ++ next)) := by
        cases hentry
        simp [Solid, layoutStarts, layoutBlanks]
      obtain ⟨found, hfound, hoptional⟩ := optional_read hfront hword.1 hword.2
      refine ⟨⟨att.optional, att.name, numeral, att.dataType.keyword, quotedDraft, drafts⟩, ?_, ?_⟩
      · rw [AttributeDraft.toAttribute, itemId_of_value hvalue, hdrafts, hdescribe,
          DataType.ofKeyword_keyword]
        cases att
        rfl
      · simp only [List.append_assoc]
        rw [← hfound] at htailRead ⊢
        refine ReadsUpTo.named .attributeClause ?_
        refine hoptional.bind_upTo ?_
        refine entry_read (w := "attribute") hname hnumber hnumeral hentry htypedSolid ?_
        exact typed_read htyped htailSolid htailRead

mutual

/-- Every attribute is read, by induction on its nesting. -/
theorem attribute_read : ∀ {att : Attribute}, (∀ b ∈ att.subtree, PlainAttribute b) →
    AttributeRead att
  | ⟨name, id, optional, dataType, children, description⟩, hplain => by
      rw [Attribute.subtree_eq, List.forall_mem_cons] at hplain
      exact (attributes_read hplain.2).owner hplain.1

/-- Attributes are read one after the other. -/
theorem attributes_read : ∀ {atts : List Attribute},
    (∀ b ∈ Attribute.forest atts, PlainAttribute b) → AttributesRead atts
  | [], _ => by
      intro limit depth count tokens text next h hspread hsolid hrefuses _ _ _
      cases h
      cases hspread
      refine ⟨[], rfl, ?_⟩
      cases count with
      | zero => exact reads_pure [] next
      | succ count => exact hrefuses.maybe.bind (reads_pure [] next)
  | att :: rest, hplain => by
      intro limit depth count tokens text next h hspread hsolid hrefuses hlimit hdepth hcount
      rw [Attribute.forest, List.forall_mem_append] at hplain
      cases h with
      | cons hfirst hrest =>
          obtain ⟨front, more, hfront, hmore, rfl⟩ := hspread.append_inv
          have hpos := hfirst.length_pos
          rw [List.length_append] at hlimit hdepth hcount
          obtain ⟨count, rfl⟩ : ∃ c, count = c + 1 := ⟨count - 1, by omega⟩
          obtain ⟨draft, hdraft, mid, hread, hlayout⟩ :=
            attribute_read hplain.1 limit depth hfirst hfront
              (hrest.solid hmore hsolid) (by omega) (by omega)
          obtain ⟨drafts, hdrafts, hmany⟩ :=
            attributes_read hplain.2 limit depth count hrest hmore
              hsolid hrefuses (by omega) (by omega) (by omega)
          refine ⟨draft :: drafts, ?_, ?_⟩
          · rw [AttributeDraft.toAttributes, hdraft, hdrafts]
            rfl
          · rw [List.append_assoc]
            refine hread.maybe.bind ?_
            exact hlayout.bind (hmany.bind (reads_pure (draft :: drafts) next))

end

/-! ## Commands -/

/-- What may be written down of a command. -/
structure PlainCommand (cmd : Command) : Prop where
  name : IsName cmd.name
  description : '\\' ∉ cmd.description.toList
  attributes : ∀ att ∈ Attribute.forest cmd.attributes, PlainAttribute att

/-- The direction of a command. -/
private theorem directed_read {β : Type} {direction : Direction} {text next rest : List Char}
    {f : String → Reader β} {b : β} (hspread : Spread [direction.keyword.toList] text)
    (hsolid : Solid next) (hf : ReadsUpTo (f direction.keyword) next b rest) :
    ReadsUpTo
      (do
        let directionWord ← ident
        layout
        f directionWord)
      (text ++ next) b rest := by
  cases hspread with
  | cons hgap hspread =>
      cases hspread
      simp only [List.append_assoc, List.nil_append]
      have hname := isName_directionKeyword direction
      exact ReadsUpTo.bind_upTo ((readsToken_ident hname).upTo hgap hsolid) hf

/-- Every command is read. -/
theorem command_read {cmd : Command} (hplain : PlainCommand cmd) (limit : Nat)
    {tokens : List Token} {text next : List Char} (h : CommandTokens cmd tokens)
    (hspread : Spread tokens text) (hsolid : Solid next) (hlimit : tokens.length ≤ limit) :
    ∃ draft, CommandDraft.toCommand draft = .ok cmd ∧
      ReadsUpTo (commandClause limit) (text ++ next) draft next := by
  cases h with
  | @mk number description body hnumber hdescription hbody =>
      obtain ⟨numeral, hvalue, hnumeral⟩ := readsToken_number hnumber
      obtain ⟨clause, tail, hclause, htail, rfl⟩ := hspread.append_inv
      have hclause : Spread (["command".toList, cmd.name.toList, ['='], number] ++
          [cmd.direction.keyword.toList]) clause := hclause
      obtain ⟨entry, directed, hentry, hdirected, rfl⟩ := hclause.append_inv
      simp only [List.length_append] at hlimit
      obtain ⟨htailSolid, quotedDraft, drafts, hdescribe, hdrafts, htailRead⟩ :=
        tail_read limit limit (CommandDraft.mk cmd.name numeral cmd.direction.keyword)
          (attributes_read hplain.attributes) hdescription hplain.description hbody htail hsolid
          (by omega) (by omega)
      have hdirectedSolid : Solid (directed ++ (tail ++ next)) :=
        hdirected.solid_append
          (List.forall_mem_singleton.mpr (solidToken_name (isName_directionKeyword cmd.direction)))
          htailSolid
      refine ⟨⟨cmd.name, numeral, cmd.direction.keyword, quotedDraft, drafts⟩, ?_, ?_⟩
      · rw [CommandDraft.toCommand, itemId_of_value hvalue, hdrafts, hdescribe,
          Direction.ofKeyword_keyword]
        rfl
      · simp only [List.append_assoc]
        refine ReadsUpTo.named .commandClause ?_
        refine entry_read (w := "command") hplain.name hnumber hnumeral hentry hdirectedSolid ?_
        exact directed_read hdirected htailSolid htailRead

/-- No command starts with a closing brace. -/
theorem refuses_commandClause (limit : Nat) (rest : List Char) :
    Refuses (commandClause limit) ('}' :: rest) :=
  ((refuses_word (by simp)).bind).named _

theorem CommandsTokens.solid {cmds : List Command} {tokens : List Token} {text rest : List Char}
    (h : CommandsTokens cmds tokens) (hspread : Spread tokens text) (hrest : Solid rest) :
    Solid (text ++ rest) := by
  cases h with
  | nil =>
      cases hspread
      exact hrest
  | cons hfirst _ =>
      cases hfirst
      cases hspread
      simp [Solid, layoutStarts, layoutBlanks]

/-- Commands are read one after the other, up to a text with which no command
starts. -/
theorem commands_read {cmds : List Command} (hplain : ∀ cmd ∈ cmds, PlainCommand cmd)
    (limit count : Nat) {tokens : List Token} {text next : List Char}
    (h : CommandsTokens cmds tokens) (hspread : Spread tokens text) (hsolid : Solid next)
    (hrefuses : Refuses (commandClause limit) next) (hlimit : tokens.length ≤ limit)
    (hcount : tokens.length ≤ count) :
    ∃ drafts, drafts.mapM CommandDraft.toCommand = .ok cmds ∧
      Reads (Reader.many layout (commandClause limit) count) (text ++ next) drafts next := by
  induction cmds generalizing tokens text count with
  | nil =>
      cases h
      cases hspread
      refine ⟨[], rfl, ?_⟩
      cases count with
      | zero => exact reads_pure [] next
      | succ count => exact hrefuses.maybe.bind (reads_pure [] next)
  | cons cmd cmds ih =>
      rw [List.forall_mem_cons] at hplain
      cases h with
      | @cons _ _ tokens _ hfirst hrest =>
          obtain ⟨front, more, hfront, hmore, rfl⟩ := hspread.append_inv
          have hpos : 0 < tokens.length := by
            cases hfirst
            simp
          rw [List.length_append] at hlimit hcount
          obtain ⟨count, rfl⟩ : ∃ c, count = c + 1 := ⟨count - 1, by omega⟩
          obtain ⟨draft, hdraft, mid, hread, hlayout⟩ :=
            command_read hplain.1 limit hfirst hfront (hrest.solid hmore hsolid) (by omega)
          obtain ⟨drafts, hdrafts, hmany⟩ :=
            ih hplain.2 count hrest hmore (by omega) (by omega)
          refine ⟨draft :: drafts, ?_, ?_⟩
          · rw [List.mapM_cons, hdraft, hdrafts]
            rfl
          · rw [List.append_assoc]
            refine hread.maybe.bind ?_
            exact hlayout.bind (hmany.bind (reads_pure (draft :: drafts) next))

/-! ## Protocols -/

theorem Writable.plainCommand {protocol : Protocol} (h : Writable protocol) {cmd : Command}
    (hcmd : cmd ∈ protocol.commands) : PlainCommand cmd := by
  refine ⟨h.command_names cmd hcmd, h.command_descriptions cmd hcmd, fun att hatt => ?_⟩
  have hmem : att ∈ protocol.attributes := List.mem_flatMap.mpr ⟨cmd, hcmd, hatt⟩
  exact ⟨h.attribute_names att hmem, h.attribute_descriptions att hmem⟩

/-- A laid out text ends with its last token and layout. -/
theorem LaidOut.concat_inv {front : List Token} {last : Token} {text : List Char}
    (h : LaidOut (front ++ [last]) text) :
    ∃ before inner after, Layout before ∧ Spread front inner ∧ Layout after ∧
      text = before ++ (inner ++ (last ++ after)) := by
  generalize htokens : front ++ [last] = tokens at h
  cases h with
  | mk hbefore hspread hafter =>
      obtain ⟨rfl, hlast⟩ := List.append_inj' htokens rfl
      rw [List.singleton_inj] at hlast
      subst hlast
      exact ⟨_, _, _, hbefore, hspread, hafter, rfl⟩

/-- The end of a protocol. -/
private theorem reads_end {after : List Char} (hafter : Layout after) (draft : ProtocolDraft) :
    Reads
      (do
        Reader.word r"}"
        layout
        endOfInput
        pure draft)
      ('}' :: after) draft [] := by
  have hclose : ReadsUpTo (Reader.word r"}") ('}' :: after) () [] := by
    refine ⟨after, reads_word r"}" after, ?_⟩
    have hlayout : Reads layout (after ++ []) () [] := reads_layout hafter trivial
    simpa using hlayout
  have hinput : Reads endOfInput [] () [] :=
    (reads_plain (n := 0) (by simp) rfl).named _
  exact hclose.bind (hinput.bind (reads_pure draft []))

/-- Every writable protocol is read to the end of its text. -/
theorem document_read {protocol : Protocol} (hwritable : Writable protocol) {tokens : List Token}
    {text : List Char} (h : ProtocolTokens protocol tokens) (hlaid : LaidOut tokens text) :
    ∃ draft, ProtocolDraft.toProtocol draft = .ok protocol ∧
      ReadsUpTo (document text.length) text draft [] := by
  cases h with
  | @mk number commands hnumber hcommands =>
      obtain ⟨numeral, hvalue, hnumeral⟩ := readsToken_number hnumber
      obtain ⟨before, inner, after, hbefore, hinner, hafter, rfl⟩ := hlaid.concat_inv
      obtain ⟨clause, middle, hclause, hmiddle, rfl⟩ := hinner.append_inv
      have hclause : Spread (["protocol".toList, protocol.name.toList, ['='], number] ++
          [['{']]) clause := hclause
      obtain ⟨entry, brace, hentry, hbrace, rfl⟩ := hclause.append_inv
      have hlength := hmiddle.length_le
      generalize hlimit : (before ++ ((entry ++ brace ++ middle) ++ (['}'] ++ after))).length =
        limit
      simp only [List.length_append] at hlimit
      have hend : Solid ('}' :: after) := by simp [Solid, layoutStarts, layoutBlanks]
      obtain ⟨drafts, hdrafts, hmany⟩ :=
        commands_read (fun _ hcmd => hwritable.plainCommand hcmd) limit limit
          hcommands hmiddle hend (refuses_commandClause limit after) (by omega) (by omega)
      refine ⟨⟨protocol.name, numeral, drafts⟩, ?_, ?_⟩
      · rw [ProtocolDraft.toProtocol, protocolId_of_value hvalue, hdrafts]
        rfl
      · cases hbrace with
        | @cons _ _ gap _ hgap hnil =>
            cases hnil
            have hopen : ReadsUpTo (Reader.word r"{")
                ('{' :: (gap ++ (middle ++ '}' :: after))) () (middle ++ '}' :: after) :=
              (readsToken_word r"{").upTo hgap (hcommands.solid hmiddle hend)
            have hentrySolid :
                Solid (entry ++ ('{' :: (gap ++ (middle ++ '}' :: after)))) := by
              cases hentry
              simp [Solid, layoutStarts, layoutBlanks]
            have hread : ReadsUpTo (document limit)
                (before ++ (entry ++ ('{' :: (gap ++ (middle ++ '}' :: after)))))
                ⟨protocol.name, numeral, drafts⟩ [] := by
              refine ReadsUpTo.named .protocolClause ?_
              refine (reads_layout hbefore hentrySolid).bind_upTo ?_
              refine entry_read (w := "protocol") hwritable.protocol_name hnumber hnumeral hentry
                (by simp [Solid, layoutStarts, layoutBlanks]) ?_
              refine hopen.bind_upTo ?_
              refine hmany.bind_upTo ?_
              refine (reads_no_layout hend).bind_upTo ?_
              exact ⟨[], reads_end hafter _, reads_no_layout trivial⟩
            simpa using hread

end Schema
end CommandSet
