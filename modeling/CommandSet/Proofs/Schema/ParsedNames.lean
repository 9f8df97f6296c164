import CommandSet.Proofs.Protocol.FaultOrder
import CommandSet.Proofs.Schema.Clauses

/-!
# Names of parsed protocols

The grammar and the validation of protocols each have their own rule of what a name is.
They agree: every name that the grammar reads passes validation, whatever stands around
it in the schema, and every name that passes validation is read whole.

Main definitions:

- {lit}`Yields`: what holds of every value a reader gives.
- {lit}`AttributeDraft.Named`, {lit}`CommandDraft.Named`, {lit}`ProtocolDraft.Named`: drafts
  whose names are names at all depths.

Main results:

- Theorem {lit}`yields_document`: schemas are read as drafts of that kind.
- Theorem {lit}`AttributeDraft.Named.forall_mem_subtree`: attributes keep the names of their
  drafts.
- Theorem {lit}`names_agree`: the grammar and validation accept the same names.
-/

namespace CommandSet
namespace Schema

variable {α β : Type}

/-! ## What readers give -/

/-- Every value that the reader gives, wherever it starts, has the property. -/
def Yields (r : Reader α) (P : α → Prop) : Prop :=
  ∀ ⦃cursor attempts a next⦄, (r cursor attempts).1 = some (a, next) → P a

theorem yields_pure {P : α → Prop} {a : α} (h : P a) : Yields (pure a) P := by
  intro cursor attempts b next hread
  cases hread
  exact h

theorem Yields.bind {r : Reader α} {f : α → Reader β} {P : α → Prop} {Q : β → Prop}
    (hr : Yields r P) (hf : ∀ a, P a → Yields (f a) Q) : Yields (r >>= f) Q := by
  intro cursor attempts b next hread
  cases hfirst : r cursor attempts with
  | mk result after =>
      rw [bind_eq hfirst] at hread
      cases result with
      | none => cases hread
      | some pair =>
          have ha : P pair.1 := hr (congrArg Prod.fst hfirst)
          exact hf pair.1 ha hread

/-- What is read first may not matter. -/
theorem Yields.behind {r : Reader α} {f : α → Reader β} {Q : β → Prop}
    (hf : ∀ a, Yields (f a) Q) : Yields (r >>= f) Q :=
  Yields.bind (P := fun _ => True) (fun _ _ _ _ _ => trivial) fun a _ => hf a

theorem Yields.named {r : Reader α} {P : α → Prop} (rule : Rule) (hr : Yields r P) :
    Yields (Reader.named rule r) P := by
  intro cursor attempts a next hread
  unfold Reader.named at hread
  split at hread
  next hfirst =>
    cases hread
    exact hr (congrArg Prod.fst hfirst)
  next => cases hread

theorem Yields.orElse {r s : Reader α} {P : α → Prop} (hr : Yields r P) (hs : Yields s P) :
    Yields (Reader.orElse r s) P := by
  intro cursor attempts a next hread
  unfold Reader.orElse at hread
  split at hread
  next hfirst =>
    cases hread
    exact hr (congrArg Prod.fst hfirst)
  next => exact hs hread

theorem Yields.maybe {r : Reader α} {P : α → Prop} (hr : Yields r P) :
    Yields (Reader.maybe r) fun found => ∀ a ∈ found, P a := by
  intro cursor attempts found next hread
  unfold Reader.maybe at hread
  split at hread
  next hfirst =>
    cases hread
    exact fun b hb => Option.some.inj hb ▸ hr (congrArg Prod.fst hfirst)
  next =>
    cases hread
    exact fun b hb => by cases hb

theorem Yields.many {r : Reader α} {P : α → Prop} (gap : Reader Unit) (hr : Yields r P)
    (limit : Nat) : Yields (Reader.many gap r limit) fun found => ∀ a ∈ found, P a := by
  induction limit with
  | zero => exact yields_pure (by simp)
  | succ limit ih =>
      refine hr.maybe.bind fun first hfirst => ?_
      cases first with
      | none => exact yields_pure (by simp)
      | some a =>
          refine .behind fun _ => ih.bind fun rest hrest => yields_pure ?_
          exact List.forall_mem_cons.mpr ⟨hfirst a rfl, hrest⟩

/-! ## Names and drafts -/

/-- The grammar reads names only. -/
theorem yields_ident : Yields Grammar.ident IsName := by
  refine Yields.named _ ?_
  intro cursor attempts name next hread
  unfold Reader.plain at hread
  cases htext : cursor.rest with
  | nil =>
      rw [htext] at hread
      cases hread
  | cons c rest =>
      rw [htext] at hread
      by_cases hstart : Grammar.isNameStart c = true
      · simp only [Grammar.nameAt, hstart, if_true, Option.map_some, Option.some.injEq,
          Prod.mk.injEq] at hread
        obtain ⟨rfl, -⟩ := hread
        refine ⟨c, rest.takeWhile Grammar.isNameRest, String.toList_ofList, ?_, fun d hd => ?_⟩
        · exact isNameStart_eq_true_iff.mp hstart
        · exact isNameRest_eq_true_iff.mp (List.mem_takeWhile_imp hd)
      · simp [Grammar.nameAt, hstart] at hread

/-- A draft whose name and whose sub-attributes' names are names. -/
inductive AttributeDraft.Named : AttributeDraft → Prop where
  | mk {draft : AttributeDraft} (name : IsName draft.name)
      (children : ∀ child ∈ draft.children, Named child) : Named draft

/-- A draft whose name and whose attributes' names are names. -/
structure CommandDraft.Named (draft : CommandDraft) : Prop where
  name : IsName draft.name
  attributes : ∀ att ∈ draft.attributes, att.Named

/-- A draft whose name and whose commands' names are names. -/
structure ProtocolDraft.Named (draft : ProtocolDraft) : Prop where
  name : IsName draft.name
  commands : ∀ cmd ∈ draft.commands, cmd.Named

section

open Grammar

theorem yields_bodyOrTerminator {body : Reader (List AttributeDraft)}
    (hbody : Yields body fun drafts => ∀ draft ∈ drafts, draft.Named) :
    Yields (bodyOrTerminator body) fun drafts => ∀ draft ∈ drafts, draft.Named :=
  hbody.orElse (.behind fun _ => yields_pure (by simp))

/-- An attribute is named if what its body reads is. -/
theorem yields_attributeClause {body : Reader (List AttributeDraft)}
    (hbody : Yields body fun drafts => ∀ draft ∈ drafts, draft.Named) :
    Yields (attributeClause body) AttributeDraft.Named := by
  refine Yields.named _ ?_
  refine .behind fun optional => .behind fun _ => .behind fun _ => .behind fun _ => ?_
  refine yields_ident.bind fun name hname => ?_
  refine .behind fun _ => .behind fun _ => .behind fun _ => .behind fun id => ?_
  refine .behind fun _ => .behind fun _ => .behind fun _ => .behind fun typeWord => ?_
  refine .behind fun _ => .behind fun description => .behind fun _ => ?_
  refine (yields_bodyOrTerminator hbody).bind fun children hchildren => ?_
  exact yields_pure (.mk hname hchildren)

/-- Bodies of any depth hold named attributes. -/
theorem yields_body (limit depth : Nat) :
    Yields (body limit depth) fun drafts => ∀ draft ∈ drafts, draft.Named := by
  induction depth with
  | zero =>
      intro cursor attempts drafts next hread
      cases hread
  | succ depth ih =>
      refine Yields.named _ ?_
      refine .behind fun _ => .behind fun _ => ?_
      refine ((yields_attributeClause ih).many layout limit).bind fun drafts hdrafts => ?_
      exact .behind fun _ => .behind fun _ => yields_pure hdrafts

theorem yields_commandClause (limit : Nat) : Yields (commandClause limit) CommandDraft.Named := by
  refine Yields.named _ ?_
  refine .behind fun _ => .behind fun _ => ?_
  refine yields_ident.bind fun name hname => ?_
  refine .behind fun _ => .behind fun _ => .behind fun _ => .behind fun id => ?_
  refine .behind fun _ => .behind fun directionWord => .behind fun _ => ?_
  refine .behind fun description => .behind fun _ => ?_
  refine (yields_bodyOrTerminator (yields_body limit limit)).bind fun attributes hattributes => ?_
  exact yields_pure ⟨hname, hattributes⟩

/-- Schemas are read as drafts with names only. -/
theorem yields_document (limit : Nat) : Yields (document limit) ProtocolDraft.Named := by
  refine Yields.named _ ?_
  refine .behind fun _ => .behind fun _ => .behind fun _ => ?_
  refine yields_ident.bind fun name hname => ?_
  refine .behind fun _ => .behind fun _ => .behind fun _ => .behind fun id => ?_
  refine .behind fun _ => .behind fun _ => .behind fun _ => ?_
  refine ((yields_commandClause limit).many layout limit).bind fun commands hcommands => ?_
  refine .behind fun _ => .behind fun _ => .behind fun _ => .behind fun _ => ?_
  exact yields_pure ⟨hname, hcommands⟩

end

/-! ## From drafts to protocols -/

theorem exists_of_bind_eq_ok {ε : Type} {x : Except ε α} {f : α → Except ε β} {b : β}
    (h : x >>= f = .ok b) : ∃ a, x = .ok a ∧ f a = .ok b := by
  cases x with
  | error error => cases h
  | ok a => exact ⟨a, rfl, h⟩

/-- What is built one by one from a list is built from its members. -/
theorem exists_of_mem_mapM {ε : Type} {f : α → Except ε β} {as : List α} {bs : List β}
    (h : as.mapM f = .ok bs) : ∀ b ∈ bs, ∃ a ∈ as, f a = .ok b := by
  induction as generalizing bs with
  | nil =>
      cases h
      simp
  | cons a rest ih =>
      rw [List.mapM_cons] at h
      obtain ⟨b, hb, h⟩ := exists_of_bind_eq_ok h
      obtain ⟨more, hmore, h⟩ := exists_of_bind_eq_ok h
      cases h
      refine List.forall_mem_cons.mpr ⟨⟨a, List.mem_cons_self, hb⟩, fun c hc => ?_⟩
      obtain ⟨d, hd, hdc⟩ := ih hmore c hc
      exact ⟨d, List.mem_cons_of_mem _ hd, hdc⟩

theorem AttributeDraft.toAttributes_eq_mapM (drafts : List AttributeDraft) :
    AttributeDraft.toAttributes drafts = drafts.mapM AttributeDraft.toAttribute := by
  induction drafts with
  | nil =>
      rw [AttributeDraft.toAttributes]
      rfl
  | cons draft rest ih => rw [AttributeDraft.toAttributes, List.mapM_cons, ih]

/-- An attribute has the name of its draft, and its sub-attributes are those of the draft. -/
theorem AttributeDraft.of_toAttribute {draft : AttributeDraft} {att : Attribute}
    (h : draft.toAttribute = .ok att) :
    att.name = draft.name ∧ draft.children.mapM AttributeDraft.toAttribute = .ok att.children := by
  obtain ⟨optional, name, id, typeWord, description, children⟩ := draft
  rw [AttributeDraft.toAttribute] at h
  obtain ⟨value, -, h⟩ := exists_of_bind_eq_ok h
  obtain ⟨atts, hatts, h⟩ := exists_of_bind_eq_ok h
  cases h
  exact ⟨rfl, AttributeDraft.toAttributes_eq_mapM children ▸ hatts⟩

theorem forall_mem_forest_of_subtrees {atts : List Attribute} {P : Attribute → Prop}
    (h : ∀ att ∈ atts, ∀ b ∈ att.subtree, P b) : ∀ b ∈ Attribute.forest atts, P b := by
  induction atts with
  | nil => simp [Attribute.forest]
  | cons att rest ih =>
      obtain ⟨hfirst, hrest⟩ := List.forall_mem_cons.mp h
      rw [Attribute.forest]
      exact List.forall_mem_append.mpr ⟨hfirst, ih hrest⟩

/-- The attributes of a named draft have names at all depths. -/
theorem AttributeDraft.Named.forall_mem_subtree {draft : AttributeDraft} (h : draft.Named) :
    ∀ {att}, draft.toAttribute = .ok att → ∀ b ∈ att.subtree, IsName b.name := by
  induction h with
  | mk hname _ ih =>
      intro att hatt
      obtain ⟨hsame, hchildren⟩ := AttributeDraft.of_toAttribute hatt
      rw [Attribute.subtree_eq]
      refine List.forall_mem_cons.mpr ⟨hsame ▸ hname, ?_⟩
      refine forall_mem_forest_of_subtrees fun child hchild => ?_
      obtain ⟨draft, hdraft, hread⟩ := exists_of_mem_mapM hchildren child hchild
      exact ih draft hdraft hread

theorem CommandDraft.Named.of_toCommand {draft : CommandDraft} (h : draft.Named) {cmd : Command}
    (hcmd : draft.toCommand = .ok cmd) :
    IsName cmd.name ∧ ∀ att ∈ Attribute.forest cmd.attributes, IsName att.name := by
  rw [CommandDraft.toCommand] at hcmd
  obtain ⟨id, -, hcmd⟩ := exists_of_bind_eq_ok hcmd
  obtain ⟨atts, hatts, hcmd⟩ := exists_of_bind_eq_ok hcmd
  cases hcmd
  refine ⟨h.name, forall_mem_forest_of_subtrees fun att hatt => ?_⟩
  rw [AttributeDraft.toAttributes_eq_mapM] at hatts
  obtain ⟨draft, hdraft, hread⟩ := exists_of_mem_mapM hatts att hatt
  exact (h.attributes draft hdraft).forall_mem_subtree hread

theorem ProtocolDraft.Named.of_toProtocol {draft : ProtocolDraft} (h : draft.Named)
    {protocol : Protocol} (hprotocol : draft.toProtocol = .ok protocol) :
    IsName protocol.name ∧ (∀ cmd ∈ protocol.commands, IsName cmd.name) ∧
      ∀ att ∈ protocol.attributes, IsName att.name := by
  rw [ProtocolDraft.toProtocol] at hprotocol
  obtain ⟨id, -, hprotocol⟩ := exists_of_bind_eq_ok hprotocol
  obtain ⟨cmds, hcmds, hprotocol⟩ := exists_of_bind_eq_ok hprotocol
  cases hprotocol
  have hnamed : ∀ cmd ∈ cmds, IsName cmd.name ∧
      ∀ att ∈ Attribute.forest cmd.attributes, IsName att.name := by
    intro cmd hcmd
    obtain ⟨draft, hdraft, hread⟩ := exists_of_mem_mapM hcmds cmd hcmd
    exact (h.commands draft hdraft).of_toCommand hread
  exact ⟨h.name, fun cmd hcmd => (hnamed cmd hcmd).1,
    forall_attributes_iff.mpr fun cmd hcmd => (hnamed cmd hcmd).2⟩

/-- The protocol of a schema has names only. -/
theorem names_of_parse {source : String} {protocol : Protocol} (h : parse source = .ok protocol) :
    IsName protocol.name ∧ (∀ cmd ∈ protocol.commands, IsName cmd.name) ∧
      ∀ att ∈ protocol.attributes, IsName att.name := by
  rw [parse] at h
  obtain ⟨draft, hdraft, hprotocol⟩ := exists_of_bind_eq_ok h
  unfold readDraft at hdraft
  split at hdraft
  next hread =>
    cases hdraft
    exact (yields_document _ (congrArg Prod.fst hread)).of_toProtocol hprotocol
  next => cases hdraft

/-! ## The two rules -/

/-- A name is read whole in front of a blank, and nothing else is. -/
theorem reads_ident_iff {name : String} {blank : Char} (hblank : blank ∈ layoutBlanks)
    (rest : List Char) :
    Reads Grammar.ident (name.toList ++ blank :: rest) name (blank :: rest) ↔ IsName name := by
  constructor
  · intro hread
    obtain ⟨_, _, hrun⟩ := hread 0 Attempts.none
    exact yields_ident (congrArg Prod.fst hrun)
  · intro hname
    exact readsToken_ident hname (blank :: rest) (List.mem_cons_of_mem _ hblank)

/-- The names of a parsed protocol, of its commands and of its attributes at all depths pass
the check of names, so that validation never refuses one of them.  Conversely a name that
passes the check is read whole in front of a blank, and only such names are. -/
theorem names_agree :
    (∀ (source : String) (protocol : Protocol), parse source = .ok protocol →
      checkName protocol.name = .ok () ∧
      (∀ cmd ∈ protocol.commands, checkName cmd.name = .ok ()) ∧
      (∀ att ∈ protocol.attributes, checkName att.name = .ok ()) ∧
      ∀ name, validate protocol ≠ .error (.invalidName name)) ∧
    ∀ (name : String), ∀ blank ∈ layoutBlanks, ∀ rest : List Char,
      checkName name = .ok () ↔
        Reads Grammar.ident (name.toList ++ blank :: rest) name (blank :: rest) := by
  constructor
  · intro source protocol hparse
    obtain ⟨hname, hcmds, hatts⟩ := names_of_parse hparse
    refine ⟨checkName_eq_ok_iff.mpr hname, fun cmd hcmd => checkName_eq_ok_iff.mpr (hcmds cmd hcmd),
      fun att hatt => checkName_eq_ok_iff.mpr (hatts att hatt), fun name => ?_⟩
    exact validate_ne_invalidName hname hcmds hatts name
  · intro name blank hblank rest
    exact checkName_eq_ok_iff.trans (reads_ident_iff hblank rest).symm

/-- A schema without blanks: every name follows a word of the grammar at once. -/
def packedSchema : String :=
  r"protocolP=1{commandC=2a_to_b{attributeG=0:sub_attributes{" ++
    r"optionalattribute_a9=3:uint8;}}}"

/-- The names in the schema, and one of them in front of a tab. -/
theorem names_agree_packed :
    (∃ protocol, parse packedSchema = .ok protocol ∧
      (protocol.name, protocol.commands.map (·.name), protocol.attributes.map (·.name)) =
        ("P", ["C"], ["G", "_a9"]) ∧
      checkName protocol.name = .ok () ∧
      (∀ cmd ∈ protocol.commands, checkName cmd.name = .ok ()) ∧
      (∀ att ∈ protocol.attributes, checkName att.name = .ok ()) ∧
      ∀ name, validate protocol ≠ .error (.invalidName name)) ∧
    '\t' ∈ layoutBlanks ∧
      (checkName "_a9" = .ok () ↔
        Reads Grammar.ident ("_a9".toList ++ '\t' :: ['=']) "_a9" ('\t' :: ['='])) := by
  have hnames : ((parse packedSchema).toOption.map fun protocol =>
      (protocol.name, protocol.commands.map (·.name), protocol.attributes.map (·.name))) =
      some ("P", ["C"], ["G", "_a9"]) := by
    decide +kernel
  have hblank : '\t' ∈ layoutBlanks := by decide
  refine ⟨?_, hblank, names_agree.2 "_a9" '\t' hblank ['=']⟩
  cases hparse : parse packedSchema with
  | error error =>
      rw [hparse] at hnames
      cases hnames
  | ok protocol =>
      rw [hparse] at hnames
      exact ⟨protocol, rfl, Option.some.inj hnames, names_agree.1 _ protocol hparse⟩

end Schema
end CommandSet
