import CommandSet.Proofs.Firmware.Handlers
import CommandSet.Proofs.Firmware.MemberNames

/-!
# Names of handler locals

The locals of a handler share one scope, whatever the depth of their attributes.  They are
named after the joined names of the attributes that lead to them, with a prefix or an ending
that depends on what they hold.  Validation keeps siblings apart and not joined names, so
attributes of different groups can have one stem, and a stem can read like another local.

Main definitions:

- {lit}`Position.ownLocals`: the locals of an attribute without those below it.
- {lit}`IsLocalName`: how the locals of an attribute are named.
- {lit}`LocalsMeet`: two attributes with a local of one name.

Main results:

- Theorem {lit}`declareAll_eq_flatMap`: the locals of a handler, position by position.
- Theorem {lit}`parent_ne_of_stem_eq`: only attributes of different groups have one stem.
- Theorem {lit}`meets_of_localName`: the ways in which a name comes about twice.
- Theorem {lit}`nodup_localNames_iff`: when the locals of every handler have distinct names.
- Theorem {lit}`not_nodup_localNames_dial`: a handler with two locals of one name.
-/

namespace CommandSet

open Text (lower)

/-! ## Attributes with one stem -/

/-- No two attributes have both their parents' names and their own in common. -/
theorem nodup_scopedNames {protocol : Protocol} (hwell : WellFormed protocol) :
    (protocol.positions.map fun p => (p.group.parent, lower p.node.name)).Nodup := by
  rw [((positions_perm_groups hwell.children).map _).nodup_iff, List.map_flatMap,
    List.nodup_flatMap]
  have hown (group : Group) : (group.own.map fun p => (p.group.parent, lower p.node.name)) =
      (group.members.map fun att => lower att.name).map (group.parent, ·) := by
    rw [← Group.map_node_own, List.map_map, List.map_map]
    refine List.map_congr_left fun p hp => ?_
    rw [Group.group_of_mem_placed hp]
    rfl
  refine ⟨fun group hgroup => ?_, (List.pairwise_map.mp (nodup_parents hwell.scopes)).imp ?_⟩
  · rw [hown]
    exact (nodup_lower_members hwell hgroup).map fun _ _ h => (Prod.mk.inj h).2
  · intro first second hne name hfirst hsecond
    simp only [hown, List.mem_map] at hfirst hsecond
    obtain ⟨_, -, rfl⟩ := hfirst
    obtain ⟨_, -, heq⟩ := hsecond
    exact hne (Prod.mk.inj heq).1.symm

/-- Positions under one parent stand in one group. -/
theorem group_eq_of_parent_eq {protocol : Protocol} (hwell : WellFormed protocol) {p q : Position}
    (hp : p ∈ protocol.positions) (hq : q ∈ protocol.positions)
    (h : p.group.parent = q.group.parent) : p.group = q.group :=
  List.inj_on_of_nodup_map (nodup_parents hwell.scopes)
    (group_of_mem_positions hwell.children hp).1 (group_of_mem_positions hwell.children hq).1 h

theorem localStem_inj {ancestors : List String} {name other : String} :
    Naming.localStem ancestors name = Naming.localStem ancestors other ↔
      lower name = lower other := by
  rw [Naming.localStem, Naming.localStem]
  by_cases hne : (ancestors.drop 1).map lower = []
  · simp only [hne, List.nil_append, String.intercalate_singleton]
  · rw [String.intercalate_append_of_ne_nil hne (List.cons_ne_nil _ _),
      String.intercalate_append_of_ne_nil hne (List.cons_ne_nil _ _), String.append_right_inj,
      String.intercalate_singleton, String.intercalate_singleton]

/-- Only attributes of different groups have one stem. -/
theorem parent_ne_of_stem_eq {protocol : Protocol} (hwell : WellFormed protocol) {p q : Position}
    (hp : p ∈ protocol.positions) (hq : q ∈ protocol.positions)
    (hne : (p.group.parent, lower p.node.name) ≠ (q.group.parent, lower q.node.name))
    (hstem : p.stem = q.stem) : p.group.parent ≠ q.group.parent := by
  intro hparent
  have hgroup := group_eq_of_parent_eq hwell hp hq hparent
  rw [Position.stem, Position.stem, hgroup, localStem_inj] at hstem
  exact hne (Prod.ext hparent hstem)

open Firmware

/-! ## Locals by position -/

/-- The locals of an attribute without those below it. -/
def Position.ownLocals (p : Position) : List Local :=
  (if p.node.optional then [⟨.flag, presentLocal p.stem⟩] else []) ++
    match p.node.dataType.storage with
    | none | some .nested => []
    | some storage => p.locals storage

namespace Firmware

/-- A handler declares the locals of one position after the other. -/
theorem declareAll_eq_flatMap (group : Group) (index : Nat) (atts : List Attribute)
    (hregular : ∀ att ∈ Attribute.forest atts, att.Regular) :
    declareAll group.ancestors atts =
      (Position.ofTrees group index atts).flatMap Position.ownLocals := by
  refine Attribute.visit_induction ?nil ?value ?complex group index atts hregular
  case nil =>
    intro group index
    rfl
  case value =>
    intro group index att rest storage hstorage hvalue _ hleaf ih
    have hown : Position.ownLocals ⟨group, index, att⟩ = declare group.ancestors att := by
      rw [declare_eq (p := ⟨group, index, att⟩) hstorage, Position.ownLocals, hstorage]
      cases storage with
      | nested => exact absurd rfl hvalue
      | _ => rfl
    rw [declareAll, ih, Position.ofTrees_cons, hleaf, List.flatMap_cons, hown]
    rfl
  case complex =>
    intro group index att rest hstorage _ ihbelow ih
    have hown : declare group.ancestors att = Position.ownLocals ⟨group, index, att⟩ ++
        declareAll (group.below att).ancestors att.children := by
      rw [declare_eq (p := ⟨group, index, att⟩) hstorage, Position.ownLocals, hstorage,
        List.append_nil]
      rfl
    rw [declareAll, hown, ihbelow, ih, Position.ofTrees_cons, List.flatMap_cons,
      List.flatMap_append, List.append_assoc]

/-! ## Names of locals -/

/-- How the locals of an attribute are named. -/
inductive IsLocalName (p : Position) : String → Prop where
  | present (h : p.node.optional = true) : IsLocalName p (presentLocal p.stem)
  | number (h : p.node.IsNumber) : IsLocalName p (numberLocal p.stem)
  | pointer (h : p.node.IsData) : IsLocalName p (pointerLocal p.stem)
  | size (h : p.node.dataType.storage = some .bytes) : IsLocalName p (sizeLocal p.stem)

theorem mem_names_ownLocals {p : Position} {name : String} :
    name ∈ p.ownLocals.map (·.name) ↔ IsLocalName p name := by
  rw [Position.ownLocals, List.map_append, List.mem_append]
  constructor
  · rintro (h | h)
    · split at h
      next hoptional =>
        obtain rfl := List.mem_singleton.mp h
        exact .present hoptional
      next => cases h
    · split at h
      next => cases h
      next => cases h
      next storage hvalue hstorage =>
        cases storage with
        | scalar scalar =>
            obtain rfl := List.mem_singleton.mp h
            exact .number ⟨scalar, hstorage⟩
        | bytes =>
            rcases List.mem_cons.mp h with rfl | h
            · exact .pointer (Or.inl hstorage)
            · obtain rfl := List.mem_singleton.mp h
              exact .size hstorage
        | text =>
            obtain rfl := List.mem_singleton.mp h
            exact .pointer (Or.inr hstorage)
        | nested => exact absurd rfl hvalue
  · intro h
    cases h with
    | present h => exact Or.inl (by simp [h])
    | number h =>
        obtain ⟨scalar, hstorage⟩ := h
        exact Or.inr (by simp [hstorage, Position.locals])
    | pointer h => rcases h with h | h <;> exact Or.inr (by simp [h, Position.locals])
    | size h => exact Or.inr (by simp [h, Position.locals])

variable {stem other : String}

theorem presentLocal_inj : presentLocal stem = presentLocal other ↔ stem = other := by
  rw [presentLocal, presentLocal, String.append_left_inj, String.append_right_inj]

theorem numberLocal_inj : numberLocal stem = numberLocal other ↔ stem = other := by
  rw [numberLocal, numberLocal, String.append_right_inj]

theorem pointerLocal_inj : pointerLocal stem = pointerLocal other ↔ stem = other := by
  rw [pointerLocal, pointerLocal, String.append_right_inj]

theorem sizeLocal_inj : sizeLocal stem = sizeLocal other ↔ stem = other := by
  rw [sizeLocal, sizeLocal, String.append_left_inj, String.append_right_inj]

theorem pointerLocal_eq (stem : String) : pointerLocal stem = numberLocal ("p_" ++ stem) := by
  rw [pointerLocal, numberLocal, ← String.append_assoc]
  rfl

theorem sizeLocal_eq (stem : String) : sizeLocal stem = numberLocal (stem ++ "_size") := by
  rw [sizeLocal, numberLocal, String.append_assoc]

theorem presentLocal_ne_numberLocal : presentLocal stem ≠ numberLocal other := by
  simp [presentLocal, numberLocal, ← String.toList_inj]

theorem presentLocal_ne_pointerLocal : presentLocal stem ≠ pointerLocal other := by
  rw [pointerLocal_eq]
  exact presentLocal_ne_numberLocal

theorem presentLocal_ne_sizeLocal : presentLocal stem ≠ sizeLocal other := by
  rw [sizeLocal_eq]
  exact presentLocal_ne_numberLocal

/-- The pointer to bytes is not named like their count. -/
theorem pointerLocal_ne_sizeLocal (stem : String) : pointerLocal stem ≠ sizeLocal stem := by
  intro h
  have hlength := congrArg (·.toList.length) h
  simp [pointerLocal, sizeLocal] at hlength

/-! ## Shared names -/

/-- Attributes that store values of one kind. -/
inductive SameKind (first second : Attribute) : Prop where
  | optional (hfirst : first.optional = true) (hsecond : second.optional = true)
  | number (hfirst : first.IsNumber) (hsecond : second.IsNumber)
  | data (hfirst : first.IsData) (hsecond : second.IsData)

/-- Two attributes with locals of one name. -/
inductive LocalsMeet (p q : Position) : Prop where
  /-- Attributes of different groups have one stem. -/
  | stem (hparent : p.group.parent ≠ q.group.parent) (hkind : SameKind p.node q.node)
      (h : p.stem = q.stem)
  /-- A number is named like a pointer. -/
  | pointer (hp : p.node.IsNumber) (hq : q.node.IsData) (h : p.stem = "p_" ++ q.stem)
  /-- A number is named like a count of bytes. -/
  | size (hp : p.node.IsNumber) (hq : q.node.dataType.storage = some .bytes)
      (h : p.stem = q.stem ++ "_size")
  /-- A pointer is named like a count of bytes. -/
  | pointerSize (hp : p.node.IsData) (hq : q.node.dataType.storage = some .bytes)
      (h : "p_" ++ p.stem = q.stem ++ "_size")

/-- Positions that meet are two, with a local of one name. -/
theorem LocalsMeet.shared {p q : Position} (h : LocalsMeet p q) :
    p ≠ q ∧ ∃ name, IsLocalName p name ∧ IsLocalName q name := by
  cases h with
  | stem hparent hkind h =>
      refine ⟨fun heq => hparent (heq ▸ rfl), ?_⟩
      cases hkind with
      | optional hp hq => exact ⟨_, .present hp, h ▸ .present hq⟩
      | number hp hq => exact ⟨_, .number hp, h ▸ .number hq⟩
      | data hp hq => exact ⟨_, .pointer hp, h ▸ .pointer hq⟩
  | pointer hp hq h =>
      refine ⟨fun heq => hp.not_isData (heq ▸ hq), _, .number hp, ?_⟩
      rw [h, ← pointerLocal_eq]
      exact .pointer hq
  | size hp hq h =>
      refine ⟨fun heq => hp.not_isData (heq ▸ Or.inl hq), _, .number hp, ?_⟩
      rw [h, ← sizeLocal_eq]
      exact .size hq
  | pointerSize hp hq h =>
      have hname : pointerLocal p.stem = sizeLocal q.stem := by
        rw [pointerLocal_eq, h, ← sizeLocal_eq]
      refine ⟨?_, _, .pointer hp, hname ▸ .size hq⟩
      rintro rfl
      exact pointerLocal_ne_sizeLocal p.stem hname

/-- Attributes of which none or only those of different groups have one stem share the name of a
local only where they meet. -/
theorem meets_of_localName {p q : Position}
    (hstem : p.stem = q.stem → p.group.parent ≠ q.group.parent) {name : String}
    (h : IsLocalName p name) (hother : IsLocalName q name) : LocalsMeet p q ∨ LocalsMeet q p := by
  cases h with
  | present hp =>
      generalize hname : presentLocal p.stem = name at hother
      cases hother with
      | present hq =>
          have heq := presentLocal_inj.mp hname
          exact Or.inl (.stem (hstem heq) (.optional hp hq) heq)
      | number => exact absurd hname presentLocal_ne_numberLocal
      | pointer => exact absurd hname presentLocal_ne_pointerLocal
      | size => exact absurd hname presentLocal_ne_sizeLocal
  | number hp =>
      generalize hname : numberLocal p.stem = name at hother
      cases hother with
      | present => exact absurd hname.symm presentLocal_ne_numberLocal
      | number hq =>
          have heq := numberLocal_inj.mp hname
          exact Or.inl (.stem (hstem heq) (.number hp hq) heq)
      | pointer hq =>
          rw [pointerLocal_eq, numberLocal_inj] at hname
          exact Or.inl (.pointer hp hq hname)
      | size hq =>
          rw [sizeLocal_eq, numberLocal_inj] at hname
          exact Or.inl (.size hp hq hname)
  | pointer hp =>
      generalize hname : pointerLocal p.stem = name at hother
      cases hother with
      | present => exact absurd hname.symm presentLocal_ne_pointerLocal
      | number hq =>
          rw [pointerLocal_eq, numberLocal_inj] at hname
          exact Or.inr (.pointer hq hp hname.symm)
      | pointer hq =>
          have heq := pointerLocal_inj.mp hname
          exact Or.inl (.stem (hstem heq) (.data hp hq) heq)
      | size hq =>
          rw [pointerLocal_eq, sizeLocal_eq, numberLocal_inj] at hname
          exact Or.inl (.pointerSize hp hq hname)
  | size hp =>
      generalize hname : sizeLocal p.stem = name at hother
      cases hother with
      | present => exact absurd hname.symm presentLocal_ne_sizeLocal
      | number hq =>
          rw [sizeLocal_eq, numberLocal_inj] at hname
          exact Or.inr (.size hq hp hname.symm)
      | pointer hq =>
          rw [sizeLocal_eq, pointerLocal_eq, numberLocal_inj] at hname
          exact Or.inr (.pointerSize hq hp hname.symm)
      | size hq =>
          have heq := sizeLocal_inj.mp hname
          exact Or.inl (.stem (hstem heq) (.data (Or.inl hp) (Or.inl hq)) heq)

/-! ## Names in a handler -/

/-- The locals of one attribute have distinct names. -/
theorem nodup_names_ownLocals (p : Position) : (p.ownLocals.map (·.name)).Nodup := by
  rw [Position.ownLocals]
  cases p.node.dataType.storage with
  | none => split <;> simp
  | some storage =>
      cases storage <;> split <;>
        simp [Position.locals, presentLocal_ne_numberLocal, presentLocal_ne_pointerLocal,
          presentLocal_ne_sizeLocal, pointerLocal_ne_sizeLocal]

/-- A fresh handler declares its locals one after the other. -/
theorem declarations_infix_stub (protocol : String) (cmd : Command) :
    (Handler.locals cmd).map (fun l => indent 1 l.declaration) <:+: Handler.stub protocol cmd := by
  rw [Handler.stub]
  split
  next =>
    refine List.IsInfix.trans ?_ (List.infix_append _ _ _)
    rw [List.append_assoc]
    exact List.infix_append _ _ _
  next hnone =>
    have hempty : cmd.attributes = [] := by simpa [Command.hasAttributes] using hnone
    rw [Handler.locals, hempty]
    exact List.nil_infix

/-- The locals that the handler of a command of an accepted protocol declares have distinct names
exactly if no two attributes of the command meet. -/
theorem nodup_localNames_iff {protocol : Protocol} (hvalid : validate protocol = .ok ())
    {cmd : Command} (hcmd : cmd ∈ protocol.commands) :
    (Handler.locals cmd).map (fun l => indent 1 l.declaration) <:+:
        Handler.stub protocol.name cmd ∧
      (((Handler.locals cmd).map (·.name)).Nodup ↔
        ∀ p ∈ cmd.positions, ∀ q ∈ cmd.positions, ¬LocalsMeet p q) := by
  have hwell := wellFormed_of_validate hvalid
  have hpositions : cmd.positions.Sublist protocol.positions :=
    List.sublist_flatten_of_mem (List.mem_map_of_mem hcmd)
  have hnames : cmd.positions.Pairwise fun p q =>
      (p.group.parent, lower p.node.name) ≠ (q.group.parent, lower q.node.name) :=
    List.pairwise_map.mp ((nodup_scopedNames hwell).sublist (hpositions.map _))
  have hlocals : Handler.locals cmd = cmd.positions.flatMap Position.ownLocals :=
    declareAll_eq_flatMap cmd.group 0 cmd.attributes (hwell.regular hcmd)
  refine ⟨declarations_infix_stub protocol.name cmd, ?_⟩
  rw [hlocals, List.map_flatMap]
  refine nodup_flatMap_iff (fun p _ => nodup_names_ownLocals p) (fun p q hmeet => ?_)
    (hnames.imp_of_mem fun {p q} hp hq hne name hname hother => ?_)
  · obtain ⟨hne, name, hp, hq⟩ := hmeet.shared
    exact ⟨hne, name, mem_names_ownLocals.mpr hp, mem_names_ownLocals.mpr hq⟩
  · exact meets_of_localName
      (parent_ne_of_stem_eq hwell (hpositions.subset hp) (hpositions.subset hq) hne)
      (mem_names_ownLocals.mp hname) (mem_names_ownLocals.mp hother)

/-- Positions do not meet where only attributes of one group have one stem, and stems neither
start like a pointer nor end like a count. -/
theorem not_localsMeet_of_plain {p q : Position}
    (hparent : p.stem = q.stem → p.group.parent = q.group.parent)
    (hpointer : ¬"p_".toList <+: p.stem.toList) (hsize : ¬"size".toList <:+ p.stem.toList) :
    ¬LocalsMeet p q := by
  intro h
  cases h with
  | stem hne _ h => exact hne (hparent h)
  | pointer _ _ h =>
      refine hpointer ?_
      rw [h, String.toList_append]
      exact List.prefix_append _ _
  | size _ _ h =>
      refine hsize ?_
      rw [h, String.toList_append]
      exact (by decide : "size".toList <:+ "_size".toList).trans (List.suffix_append _ _)
  | pointerSize _ _ h =>
      refine hsize (suffix_of_marked q.stem ?_)
      rw [h, String.toList_append]
      rfl

/-- The handlers of the meter have locals with distinct names. -/
theorem nodup_localNames_meter :
    validate meter = .ok () ∧
      ∀ cmd ∈ meter.commands, ((Handler.locals cmd).map (·.name)).Nodup := by
  have hvalid : validate meter = .ok () := rfl
  have hplain : ∀ cmd ∈ meter.commands, ∀ p ∈ cmd.positions,
      (∀ q ∈ cmd.positions, p.stem = q.stem → p.group.parent = q.group.parent) ∧
        ¬"p_".toList <+: p.stem.toList ∧ ¬"size".toList <:+ p.stem.toList := by decide
  refine ⟨hvalid, fun cmd hcmd => (nodup_localNames_iff hvalid hcmd).2.mpr fun p hp q hq => ?_⟩
  obtain ⟨hparent, hpointer, hsize⟩ := hplain cmd hcmd p hp
  exact not_localsMeet_of_plain (hparent q hq) hpointer hsize

private def dial : Protocol :=
  ⟨"Dial", 6, [⟨"Turn", 1, .aToB,
    [⟨"a", 1, false, .subAttributes, [⟨"b", 1, false, .uint8, [], ""⟩], ""⟩,
      ⟨"a_b", 2, false, .uint8, [], ""⟩], ""⟩]⟩

/-- An attribute that is named like the joined names of a nested one is accepted, and the handler
declares two locals of that name. -/
theorem not_nodup_localNames_dial :
    validate dial = .ok () ∧
      ∃ cmd ∈ dial.commands, ¬((Handler.locals cmd).map (·.name)).Nodup :=
  ⟨rfl, _, List.mem_singleton_self _, by decide⟩

end Firmware
end CommandSet
