import CommandSet.Prepared
import CommandSet.Proofs.Protocol.RepeatedNames
import CommandSet.Proofs.Protocol.WellFormed
import Mathlib.Data.List.Nodup

/-!
# Validation accepts exactly the well-formed protocols

Each check is read as the condition it enforces.  The checks of one attribute or
command are made against its earlier siblings, so a list that passes is pairwise
apart.  The search for repeated names of complex attributes and for names they share
with commands never refuses what the check of all spellings accepts.

Main results:

- Theorem {lit}`checkAttributes_eq_ok_iff`: what the checks of sibling attributes say
  of the whole forest below them.
- Theorem {lit}`wellFormed_of_validate`: accepted protocols are well-formed.
- Theorem {lit}`validate_eq_ok_iff_wellFormed`: and no others are refused.
-/

namespace CommandSet

/-! ## Single checks -/

/-- A sequence of checks passes when each of them does. -/
theorem Checked.bind_eq_ok_iff {first : Checked} {second : Unit → Checked} :
    (first >>= second) = .ok () ↔ first = .ok () ∧ second () = .ok () := by
  cases first <;> simp [bind, Except.bind]

theorem refuseIf_eq_ok_iff {wrong : Bool} {error : ValidationError} :
    refuseIf wrong error = .ok () ↔ wrong = false := by
  cases wrong <;> simp [refuseIf]

theorem checkName_eq_ok_iff {name : String} : checkName name = .ok () ↔ IsName name := by
  rw [checkName, refuseIf_eq_ok_iff, ← isIdentifier_iff]
  simp

/-! ## Spellings -/

theorem collide_eq_false_iff {a b : String} :
    collide a b = false ↔
      Text.upper a ≠ Text.upper b ∧ capitalized a ≠ capitalized b ∧ snakeCase a ≠ snakeCase b := by
  simp [collide, and_assoc]

/-- Names that do not collide are not the same. -/
theorem ne_of_collide_eq_false {a b : String} (h : collide a b = false) : a ≠ b := by
  rintro rfl
  exact (collide_eq_false_iff.mp h).1 rfl

theorem distinctSpellings_iff {names : List String} :
    DistinctSpellings names ↔ names.Pairwise fun a b => collide a b = false := by
  simp only [collide_eq_false_iff, List.pairwise_and_iff]
  constructor
  · rintro ⟨hupper, hcapitalized, hsnake⟩
    exact ⟨List.pairwise_map.mp hupper, List.pairwise_map.mp hcapitalized,
      List.pairwise_map.mp hsnake⟩
  · rintro ⟨hupper, hcapitalized, hsnake⟩
    exact ⟨List.pairwise_map.mpr hupper, List.pairwise_map.mpr hcapitalized,
      List.pairwise_map.mpr hsnake⟩

theorem checkSpelling_eq_ok_iff {scope name : String} {earlier : List String} :
    checkSpelling scope earlier name = .ok () ↔ ∀ a ∈ earlier, collide a name = false := by
  unfold checkSpelling
  split
  next first hfound =>
    have hcollide := List.find?_some hfound
    have hmem := List.mem_of_find?_eq_some hfound
    simp only [reduceCtorEq, false_iff]
    intro hall
    rw [hall first hmem] at hcollide
    contradiction
  next hnone =>
    simpa using hnone

/-- Names are checked against those before them. -/
theorem checkSpellings_eq_ok_iff {scope : String} {earlier names : List String} :
    checkSpellings scope earlier names = .ok () ↔
      (∀ a ∈ earlier, ∀ b ∈ names, collide a b = false) ∧
        names.Pairwise fun a b => collide a b = false := by
  induction names generalizing earlier with
  | nil => simp [checkSpellings]
  | cons name rest ih =>
      rw [checkSpellings, Checked.bind_eq_ok_iff, checkSpelling_eq_ok_iff, ih]
      simp only [List.mem_append, List.mem_cons, List.pairwise_cons]
      grind

/-! ## Attributes -/

/-- Attributes that may stand side by side. -/
def Attribute.Apart (a b : Attribute) : Prop :=
  a.id ≠ b.id ∧ collide a.name b.name = false

/-- What an attribute has to satisfy apart from its siblings. -/
structure Attribute.Sound (att : Attribute) : Prop where
  name : IsName att.name
  type : att.dataType ≠ .unknown
  id_nonneg : 0 ≤ att.id
  children : att.children ≠ [] ↔ att.dataType = .subAttributes
  siblings : att.children.Pairwise Attribute.Apart

theorem distinctSiblings_iff {siblings : List Attribute} :
    DistinctSiblings siblings ↔ siblings.Pairwise Attribute.Apart := by
  unfold Attribute.Apart
  rw [List.pairwise_and_iff]
  constructor
  · rintro ⟨hids, hnames⟩
    exact ⟨List.pairwise_map.mp hids, List.pairwise_map.mp (distinctSpellings_iff.mp hnames)⟩
  · rintro ⟨hids, hnames⟩
    exact ⟨List.pairwise_map.mpr hids, distinctSpellings_iff.mpr (List.pairwise_map.mpr hnames)⟩

/-- The checks of an attribute against its earlier siblings, read as conditions. -/
theorem earlier_apart_iff (earlier : List Attribute) (name : String) (id : Int16) :
    (earlier.any (·.id == id) = false ∧ earlier.any (·.name == name) = false ∧
        ∀ a ∈ earlier.map (·.name), collide a name = false) ↔
      ∀ a ∈ earlier, a.id ≠ id ∧ collide a.name name = false := by
  simp only [List.any_eq_false, beq_iff_eq, List.forall_mem_map]
  constructor
  · rintro ⟨hids, -, hspellings⟩ a ha
    exact ⟨hids a ha, hspellings a ha⟩
  · intro h
    exact ⟨fun a ha => (h a ha).1, fun a ha => ne_of_collide_eq_false (h a ha).2,
      fun a ha => (h a ha).2⟩

mutual

/-- An attribute passes when everything in its tree is sound and it may stand beside
its earlier siblings. -/
theorem checkAttribute_eq_ok_iff (parent : String) (earlier : List Attribute) :
    (att : Attribute) → (checkAttribute parent earlier att = .ok () ↔
      (∀ b ∈ att.subtree, b.Sound) ∧ ∀ a ∈ earlier, a.Apart att)
  | ⟨name, id, optional, dataType, children, description⟩ => by
      have hchildren := checkAttributes_eq_ok_iff name [] children
      have hearlier := earlier_apart_iff earlier name id
      rw [checkAttribute]
      simp only [Checked.bind_eq_ok_iff, refuseIf_eq_ok_iff, checkName_eq_ok_iff,
        checkSpelling_eq_ok_iff, Attribute.subtree, List.forall_mem_cons, beq_eq_false_iff_ne,
        decide_eq_false_iff_not, Int16.not_lt]
      have hlast : (if (dataType == .subAttributes) = true then do
            refuseIf children.isEmpty (.emptySubAttributes name)
            checkAttributes name [] children
          else refuseIf (!children.isEmpty) (.unexpectedChildren name)) = .ok () ↔
          (children ≠ [] ↔ dataType = .subAttributes) ∧
            (∀ b ∈ Attribute.forest children, b.Sound) ∧ children.Pairwise Attribute.Apart := by
        by_cases hcomplex : dataType = .subAttributes
        · simp [hcomplex, Checked.bind_eq_ok_iff, refuseIf_eq_ok_iff, hchildren]
        · cases children with
          | nil => simp [hcomplex, refuseIf_eq_ok_iff, Attribute.forest]
          | cons child rest => simp [hcomplex, refuseIf_eq_ok_iff]
      rw [hlast]
      constructor
      · rintro ⟨hname, htype, hid, hids, hnames, hspellings, hshape, hbelow, hsiblings⟩
        exact ⟨⟨⟨hname, htype, hid, hshape, hsiblings⟩, hbelow⟩,
          hearlier.mp ⟨hids, hnames, hspellings⟩⟩
      · rintro ⟨⟨⟨hname, htype, hid, hshape, hsiblings⟩, hbelow⟩, hapart⟩
        obtain ⟨hids, hnames, hspellings⟩ := hearlier.mpr hapart
        exact ⟨hname, htype, hid, hids, hnames, hspellings, hshape, hbelow, hsiblings⟩

/-- Siblings pass when everything in their trees is sound and they may stand beside
each other and their earlier siblings. -/
theorem checkAttributes_eq_ok_iff (parent : String) (earlier : List Attribute) :
    (atts : List Attribute) → (checkAttributes parent earlier atts = .ok () ↔
      (∀ b ∈ Attribute.forest atts, b.Sound) ∧ (∀ a ∈ earlier, ∀ b ∈ atts, a.Apart b) ∧
        atts.Pairwise Attribute.Apart)
  | [] => by simp [checkAttributes, Attribute.forest]
  | att :: rest => by
      rw [checkAttributes, Checked.bind_eq_ok_iff, checkAttribute_eq_ok_iff parent earlier att,
        checkAttributes_eq_ok_iff parent (earlier ++ [att]) rest]
      simp only [Attribute.forest, List.mem_append, List.mem_cons, List.pairwise_cons]
      grind

end

/-! ## Commands -/

/-- Commands that may stand side by side. -/
def Command.Apart (a b : Command) : Prop :=
  a.id ≠ b.id ∧ collide a.name b.name = false

/-- What a command has to satisfy apart from the others. -/
structure Command.Sound (cmd : Command) : Prop where
  name : IsName cmd.name
  direction : cmd.direction ≠ .unknown
  id_nonneg : 0 ≤ cmd.id
  siblings : cmd.attributes.Pairwise Attribute.Apart
  attributes : ∀ att ∈ Attribute.forest cmd.attributes, att.Sound

/-- A command passes when it is sound and may stand beside the earlier ones. -/
theorem checkCommand_eq_ok_iff {protocol : String} {earlier : List Command} {cmd : Command} :
    checkCommand protocol earlier cmd = .ok () ↔ cmd.Sound ∧ ∀ a ∈ earlier, a.Apart cmd := by
  rw [checkCommand]
  simp only [Checked.bind_eq_ok_iff, refuseIf_eq_ok_iff, checkName_eq_ok_iff,
    beq_eq_false_iff_ne, decide_eq_false_iff_not, Int16.not_lt]
  cases hfirst : earlier.find? (·.id == cmd.id) with
  | some first =>
      have hid : first.id = cmd.id := by simpa using List.find?_some hfirst
      have hmem := List.mem_of_find?_eq_some hfirst
      simp only [Checked.bind_eq_ok_iff, reduceCtorEq, false_and, and_false, false_iff, not_and]
      intro _ hapart
      exact (hapart first hmem).1 hid
  | none =>
      have hids : ∀ a ∈ earlier, a.id ≠ cmd.id := by simpa using hfirst
      simp only [Checked.bind_eq_ok_iff, refuseIf_eq_ok_iff, checkSpelling_eq_ok_iff,
        checkAttributes_eq_ok_iff, List.any_eq_false, List.forall_mem_map, beq_iff_eq]
      constructor
      · rintro ⟨hname, hdirection, hid, -, -, hspellings, hbelow, -, hsiblings⟩
        exact ⟨⟨hname, hdirection, hid, hsiblings, hbelow⟩,
          fun a ha => ⟨hids a ha, hspellings a ha⟩⟩
      · rintro ⟨⟨hname, hdirection, hid, hsiblings, hbelow⟩, hapart⟩
        exact ⟨hname, hdirection, hid, trivial, fun a ha => ne_of_collide_eq_false (hapart a ha).2,
          fun a ha => (hapart a ha).2, hbelow, by simp, hsiblings⟩

/-- Commands pass when each is sound and they may stand beside each other and the
earlier ones. -/
theorem checkCommands_eq_ok_iff {protocol : String} {earlier cmds : List Command} :
    checkCommands protocol earlier cmds = .ok () ↔
      (∀ cmd ∈ cmds, cmd.Sound) ∧ (∀ a ∈ earlier, ∀ b ∈ cmds, a.Apart b) ∧
        cmds.Pairwise Command.Apart := by
  induction cmds generalizing earlier with
  | nil => simp [checkCommands]
  | cons cmd rest ih =>
      rw [checkCommands, Checked.bind_eq_ok_iff, checkCommand_eq_ok_iff, ih]
      simp only [List.mem_append, List.mem_cons, List.pairwise_cons]
      grind

/-! ## Names of complex attributes -/

/-- Attributes have sub-attributes exactly when their type asks for them. -/
def Shaped (attributes : List Attribute) : Prop :=
  ∀ att ∈ attributes, att.children ≠ [] ↔ att.dataType = .subAttributes

theorem hasSubAttributes_eq_isComplex {att : Attribute}
    (h : att.children ≠ [] ↔ att.dataType = .subAttributes) :
    att.hasSubAttributes = att.isComplex := by
  by_cases hcomplex : att.dataType = .subAttributes
  · have hchildren := h.mpr hcomplex
    simp [Attribute.hasSubAttributes, Attribute.isComplex, hcomplex, hchildren]
  · simp [Attribute.hasSubAttributes, Attribute.isComplex, hcomplex]

theorem children_eq_nil {att : Attribute} (h : att.children ≠ [] ↔ att.dataType = .subAttributes)
    (hsimple : ¬att.isComplex = true) : att.children = [] := by
  by_contra hne
  exact hsimple (by simpa [Attribute.isComplex] using h.mp hne)

mutual

/-- In a shaped forest the flat list holds every attribute of a tree. -/
theorem map_node_ofTree (ancestors : List String) (index : Nat) :
    (att : Attribute) → Shaped att.subtree →
      (Entry.ofTree ancestors index att).map (·.node) = att.subtree
  | ⟨name, id, optional, dataType, children, description⟩, h => by
      rw [Attribute.subtree] at h ⊢
      have hroot := h _ List.mem_cons_self
      have hbelow : Shaped (Attribute.forest children) := fun b hb =>
        h b (List.mem_cons_of_mem _ hb)
      rw [Entry.ofTree, hasSubAttributes_eq_isComplex hroot]
      split
      next hcomplex =>
        simp [map_node_ofTrees (ancestors ++ [name]) 0 children hbelow]
      next hsimple =>
        have hleaf : children = [] := children_eq_nil hroot hsimple
        simp [hleaf, Attribute.forest]

/-- In a shaped forest the flat list holds every attribute of sibling trees. -/
theorem map_node_ofTrees (ancestors : List String) (index : Nat) :
    (atts : List Attribute) → Shaped (Attribute.forest atts) →
      (Entry.ofTrees ancestors index atts).map (·.node) = Attribute.forest atts
  | [], _ => by simp [Entry.ofTrees, Attribute.forest]
  | att :: rest, h => by
      rw [Attribute.forest] at h ⊢
      have hfirst : Shaped att.subtree := fun b hb => h b (List.mem_append_left _ hb)
      have hrest : Shaped (Attribute.forest rest) := fun b hb => h b (List.mem_append_right _ hb)
      rw [Entry.ofTrees, List.map_append, map_node_ofTree ancestors index att hfirst,
        map_node_ofTrees ancestors (index + 1) rest hrest]

end

/-- The flat list of a shaped protocol holds every attribute. -/
theorem map_node_flatten {protocol : Protocol} (h : Shaped protocol.attributes) :
    (flatten protocol.commands).map (·.node) = protocol.attributes := by
  unfold flatten Protocol.attributes at *
  rw [List.map_flatMap]
  refine List.flatMap_congr fun cmd hcmd => ?_
  exact map_node_ofTrees [cmd.name] 0 cmd.attributes fun att hatt =>
    h att (List.mem_flatMap.mpr ⟨cmd, hcmd, hatt⟩)

/-- The names of complex attributes of a shaped protocol. -/
theorem complexNames_flatten {protocol : Protocol} (h : Shaped protocol.attributes) :
    complexNames (flatten protocol.commands) =
      (protocol.attributes.filter (·.isComplex)).map (·.name) := by
  rw [← map_node_flatten h, List.filter_map, List.map_map]
  rfl

/-- When the command names do not collide, complex names pass exactly when all scope
names stay distinct in every spelling. -/
theorem checkComplexNames_eq_ok_iff {protocol : Protocol} (h : Shaped protocol.attributes)
    (hcommands : (protocol.commands.map (·.name)).Pairwise fun a b => collide a b = false) :
    checkComplexNames protocol = .ok () ↔ DistinctSpellings protocol.scopeNames := by
  have hsplit : DistinctSpellings protocol.scopeNames ↔
      checkSpellings protocol.name (protocol.commands.map (·.name))
        ((protocol.attributes.filter (·.isComplex)).map (·.name)) = .ok () := by
    rw [distinctSpellings_iff, Protocol.scopeNames, List.pairwise_append, checkSpellings_eq_ok_iff]
    constructor
    · rintro ⟨-, hcomplex, hcross⟩
      exact ⟨hcross, hcomplex⟩
    · rintro ⟨hcross, hcomplex⟩
      exact ⟨hcommands, hcomplex, hcross⟩
  rw [hsplit, checkComplexNames]
  simp only [complexNames_flatten h]
  constructor
  · intro hchecked
    split at hchecked
    next => simp [Checked.bind_eq_ok_iff] at hchecked
    next =>
      split at hchecked
      next => simp [Checked.bind_eq_ok_iff] at hchecked
      next => simpa [Checked.bind_eq_ok_iff] using hchecked
  · intro hchecked
    obtain ⟨hcross, hcomplex⟩ := checkSpellings_eq_ok_iff.mp hchecked
    -- the two searches by name alone find nothing, since equal names collide
    have hnodup : ((protocol.attributes.filter (·.isComplex)).map (·.name)).Nodup :=
      hcomplex.imp ne_of_collide_eq_false
    have hclash : ((protocol.attributes.filter (·.isComplex)).map (·.name)).find?
        ((protocol.commands.map (·.name)).contains ·) = none := by
      rw [List.find?_eq_none]
      intro name hname hcommand
      have hmem : name ∈ protocol.commands.map (·.name) := by simpa using hcommand
      exact ne_of_collide_eq_false (hcross name hmem name hname) rfl
    have hrepeated : repeatedComplexName? protocol.commands = none :=
      repeatedComplexName?_eq_none_iff.mpr (by rwa [complexNames_flatten h])
    rw [hrepeated, hclash]
    simpa [Checked.bind_eq_ok_iff] using hchecked

/-! ## Whole protocols -/

/-- Attributes at all depths are those of the commands' forests. -/
theorem forall_attributes_iff {protocol : Protocol} {p : Attribute → Prop} :
    (∀ att ∈ protocol.attributes, p att) ↔
      ∀ cmd ∈ protocol.commands, ∀ att ∈ Attribute.forest cmd.attributes, p att := by
  simp only [Protocol.attributes, List.mem_flatMap]
  constructor
  · intro h cmd hcmd att hatt
    exact h att ⟨cmd, hcmd, hatt⟩
  · rintro h att ⟨cmd, hcmd, hatt⟩
    exact h cmd hcmd att hatt

theorem shaped_of_sound {protocol : Protocol} (h : ∀ cmd ∈ protocol.commands, cmd.Sound) :
    Shaped protocol.attributes :=
  forall_attributes_iff.mpr fun cmd hcmd att hatt => ((h cmd hcmd).attributes att hatt).children

/-- Well-formedness command by command. -/
theorem wellFormed_iff_sound {protocol : Protocol} :
    WellFormed protocol ↔
      protocol.commands ≠ [] ∧ IsName protocol.name ∧ (∀ cmd ∈ protocol.commands, cmd.Sound) ∧
        (protocol.commands.map (·.id)).Nodup ∧ DistinctSpellings protocol.scopeNames := by
  constructor
  · intro h
    have hnames := forall_attributes_iff.mp h.attribute_names
    have htypes := forall_attributes_iff.mp h.types
    have hids := forall_attributes_iff.mp h.attribute_ids_nonneg
    have hchildren := forall_attributes_iff.mp h.children
    have hgroups : ∀ att ∈ protocol.attributes, DistinctSiblings att.children := fun att hatt =>
      h.siblings _ (List.mem_append_right _ (List.mem_map_of_mem hatt))
    refine ⟨h.has_commands, h.protocol_name, fun cmd hcmd => ?_, h.command_ids, h.scopes⟩
    have hsiblings : DistinctSiblings cmd.attributes :=
      h.siblings _ (List.mem_append_left _ (List.mem_map_of_mem hcmd))
    exact
      { name := h.command_names cmd hcmd
        direction := h.directions cmd hcmd
        id_nonneg := h.command_ids_nonneg cmd hcmd
        siblings := distinctSiblings_iff.mp hsiblings
        attributes := fun att hatt =>
          { name := hnames cmd hcmd att hatt
            type := htypes cmd hcmd att hatt
            id_nonneg := hids cmd hcmd att hatt
            children := hchildren cmd hcmd att hatt
            siblings := distinctSiblings_iff.mp
              (forall_attributes_iff.mp hgroups cmd hcmd att hatt) } }
  · rintro ⟨hne, hname, hsound, hids, hscopes⟩
    have hall : ∀ att ∈ protocol.attributes, att.Sound :=
      forall_attributes_iff.mpr fun cmd hcmd => (hsound cmd hcmd).attributes
    exact
      { has_commands := hne
        protocol_name := hname
        command_names := fun cmd hcmd => (hsound cmd hcmd).name
        attribute_names := fun att hatt => (hall att hatt).name
        directions := fun cmd hcmd => (hsound cmd hcmd).direction
        types := fun att hatt => (hall att hatt).type
        command_ids_nonneg := fun cmd hcmd => (hsound cmd hcmd).id_nonneg
        attribute_ids_nonneg := fun att hatt => (hall att hatt).id_nonneg
        command_ids := hids
        siblings := by
          intro siblings hmem
          rcases List.mem_append.mp hmem with hcommand | hnested
          · obtain ⟨cmd, hcmd, rfl⟩ := List.mem_map.mp hcommand
            exact distinctSiblings_iff.mpr (hsound cmd hcmd).siblings
          · obtain ⟨att, hatt, rfl⟩ := List.mem_map.mp hnested
            exact distinctSiblings_iff.mpr (hall att hatt).siblings
        children := fun att hatt => (hall att hatt).children
        scopes := hscopes }

/-- Validation command by command. -/
theorem validate_eq_ok_iff_sound {protocol : Protocol} :
    validate protocol = .ok () ↔
      protocol.commands ≠ [] ∧ IsName protocol.name ∧ (∀ cmd ∈ protocol.commands, cmd.Sound) ∧
        (protocol.commands.map (·.id)).Nodup ∧ DistinctSpellings protocol.scopeNames := by
  rw [validate]
  simp only [Checked.bind_eq_ok_iff, refuseIf_eq_ok_iff, checkName_eq_ok_iff,
    checkCommands_eq_ok_iff, List.isEmpty_eq_false_iff]
  constructor
  · rintro ⟨hne, hname, ⟨hsound, -, hpairwise⟩, hcomplex⟩
    obtain ⟨hids, hnames⟩ := List.pairwise_and_iff.mp hpairwise
    exact ⟨hne, hname, hsound, List.pairwise_map.mpr hids,
      (checkComplexNames_eq_ok_iff (shaped_of_sound hsound) (List.pairwise_map.mpr hnames)).mp
        hcomplex⟩
  · rintro ⟨hne, hname, hsound, hids, hscopes⟩
    have hnames : (protocol.commands.map (·.name)).Pairwise fun a b => collide a b = false :=
      (List.pairwise_append.mp (distinctSpellings_iff.mp hscopes)).1
    have hpairwise : protocol.commands.Pairwise Command.Apart :=
      List.pairwise_and_iff.mpr ⟨List.pairwise_map.mp hids, List.pairwise_map.mp hnames⟩
    exact ⟨hne, hname, ⟨hsound, by simp, hpairwise⟩,
      (checkComplexNames_eq_ok_iff (shaped_of_sound hsound) hnames).mpr hscopes⟩

/-- Accepted protocols are well-formed. -/
theorem wellFormed_of_validate {protocol : Protocol} (h : validate protocol = .ok ()) :
    WellFormed protocol :=
  wellFormed_iff_sound.mpr (validate_eq_ok_iff_sound.mp h)

/-- Only well-formed protocols are prepared. -/
theorem wellFormed_of_prepare {protocol : Protocol} {prepared : Prepared}
    (h : prepare protocol = .ok prepared) :
    prepared = Prepared.ofProtocol protocol ∧ WellFormed protocol := by
  cases hvalidate : validate protocol with
  | error error => simp [prepare, hvalidate, bind, Except.bind] at h
  | ok _ =>
      simp only [prepare, hvalidate, bind, Except.bind, pure, Except.pure, Except.ok.injEq] at h
      exact ⟨h.symm, wellFormed_of_validate hvalidate⟩

/-- Validation accepts exactly the well-formed protocols. -/
theorem validate_eq_ok_iff_wellFormed (protocol : Protocol) :
    validate protocol = .ok () ↔ WellFormed protocol :=
  validate_eq_ok_iff_sound.trans wellFormed_iff_sound.symm

end CommandSet
