import CommandSet.Proofs.Firmware.Declarations
import CommandSet.Proofs.Firmware.Constants

/-!
# Names of struct members

A member is named after its attribute, with a prefix or an ending that depends on what the
attribute stores.  Validation keeps the names of siblings apart and not what is made of them,
so an attribute can be named like a member of its sibling.

Main definitions:

- {lit}`Attribute.IsNumber`, {lit}`Attribute.IsData`: what attributes that are not complex store.
- {lit}`IsMemberName`: how the members of an attribute are named.
- {lit}`MembersMeet`: two attributes with a member of one name.

Main results:

- Theorem {lit}`nodup_flatMap_iff`: when names made of distinct names are distinct.
- Theorem {lit}`meets_of_memberName`: the ways in which a name comes about twice.
- Theorem {lit}`nodup_memberNames_iff`: when the members of every struct have distinct names.
- Theorem {lit}`not_nodup_memberNames_gauge`: a struct with two members of one name.
-/

namespace CommandSet

open Text (lower)

/-! ## Names made of names -/

/-- Names that are made of elements of a list are distinct exactly if no two elements meet, where
to meet is to share a name. -/
theorem nodup_flatMap_iff {α : Type} {names : α → List String} {Meets : α → α → Prop}
    {items : List α} (hown : ∀ a ∈ items, (names a).Nodup)
    (hshared : ∀ a b, Meets a b → a ≠ b ∧ ∃ name ∈ names a, name ∈ names b)
    (hmeets : items.Pairwise fun a b =>
      ∀ name ∈ names a, name ∈ names b → Meets a b ∨ Meets b a) :
    (items.flatMap names).Nodup ↔ ∀ a ∈ items, ∀ b ∈ items, ¬Meets a b := by
  rw [List.Nodup, List.pairwise_flatMap]
  constructor
  · rintro ⟨-, hpairwise⟩ a ha b hb hmeet
    have hsymmetric : Std.Symm fun a b : α => ∀ name ∈ names a, ∀ other ∈ names b, name ≠ other :=
      ⟨fun _ _ h name hname other hother heq => h other hother name hname heq.symm⟩
    obtain ⟨hne, name, hfirst, hsecond⟩ := hshared a b hmeet
    exact hpairwise.forall ha hb hne name hfirst name hsecond rfl
  · intro hnone
    refine ⟨hown, hmeets.imp_of_mem ?_⟩
    rintro a b ha hb h name hname other hother rfl
    rcases h name hname hother with hmeet | hmeet
    · exact hnone a ha b hb hmeet
    · exact hnone b hb a ha hmeet

/-- An ending behind the mark of a pointer lies in the marked name, up to its underscore. -/
theorem suffix_of_marked {name : String} (other : String) {ending : List Char}
    (h : ("p_" ++ name).toList = other.toList ++ '_' :: ending) : ending <:+ name.toList := by
  have hsuffix : '_' :: ending <:+ 'p' :: '_' :: name.toList := by
    rw [String.toList_append] at h
    exact ⟨other.toList, h.symm⟩
  rcases List.suffix_cons_iff.mp hsuffix with heq | hsuffix
  · cases (List.cons.inj heq).1
  · rcases List.suffix_cons_iff.mp hsuffix with heq | hsuffix
    · exact ⟨[], (List.cons.inj heq).2⟩
    · exact (List.suffix_cons _ _).trans hsuffix

/-! ## What attributes store -/

/-- Attributes whose value is a number. -/
def Attribute.IsNumber (att : Attribute) : Prop :=
  ∃ scalar, att.dataType.storage = some (.scalar scalar)

/-- Attributes whose value is bytes or text. -/
def Attribute.IsData (att : Attribute) : Prop :=
  att.dataType.storage = some .bytes ∨ att.dataType.storage = some .text

theorem Attribute.IsNumber.not_isData {att : Attribute} (h : att.IsNumber) : ¬att.IsData := by
  obtain ⟨scalar, hscalar⟩ := h
  rw [IsData, hscalar]
  simp

theorem Attribute.IsNumber.not_isComplex {att : Attribute} (h : att.IsNumber) :
    ¬att.isComplex = true := by
  obtain ⟨scalar, hscalar⟩ := h
  rw [← storage_eq_nested_iff, hscalar]
  simp

theorem Attribute.IsData.not_isComplex {att : Attribute} (h : att.IsData) :
    ¬att.isComplex = true := by
  rw [← storage_eq_nested_iff]
  rcases h with h | h <;> simp [h]

/-- The members of a group have names that differ in lower case. -/
theorem nodup_lower_members {protocol : Protocol} (hwell : WellFormed protocol) {group : Group}
    (hgroup : group ∈ protocol.groups) : (group.members.map fun att => lower att.name).Nodup := by
  have hupper := (hwell.siblings _ (members_mem_siblingLists hgroup)).names.upper
  rw [List.map_map] at hupper
  apply List.Nodup.of_map Text.upper
  rw [List.map_map]
  have hsame : group.members.map (Text.upper ∘ fun att => lower att.name) =
      group.members.map (Text.upper ∘ Attribute.name) := by
    refine List.map_congr_left fun att hatt => ?_
    have hmem := mem_attributes_of_mem_members hwell.children hgroup hatt
    exact (hwell.attribute_names att hmem).isWord.upper_lower
  rwa [hsame]

namespace Firmware

/-! ## Names of members -/

/-- How the members of an attribute are named. -/
inductive IsMemberName (att : Attribute) : String → Prop where
  | number (h : att.IsNumber) : IsMemberName att (lower att.name)
  | pointer (h : att.IsData) : IsMemberName att ("p_" ++ lower att.name)
  | size (h : att.dataType.storage = some .bytes) : IsMemberName att (lower att.name ++ "Size")
  | group (h : att.isComplex = true) : IsMemberName att (lower att.name ++ "_payload")

theorem mem_names_membersOf {protocol parent name : String} {att : Attribute} :
    name ∈ (membersOf protocol parent att).map (·.name) ↔ IsMemberName att name := by
  constructor
  · intro h
    obtain ⟨member, hmember, rfl⟩ := List.mem_map.mp h
    rw [membersOf] at hmember
    split at hmember
    next storage hstorage =>
      cases storage with
      | scalar scalar =>
          obtain rfl := List.mem_singleton.mp hmember
          exact .number ⟨scalar, hstorage⟩
      | bytes =>
          rcases List.mem_cons.mp hmember with rfl | hmember
          · exact .pointer (Or.inl hstorage)
          · obtain rfl := List.mem_singleton.mp hmember
            exact .size hstorage
      | text =>
          obtain rfl := List.mem_singleton.mp hmember
          exact .pointer (Or.inr hstorage)
      | nested =>
          obtain rfl := List.mem_singleton.mp hmember
          exact .group (Attribute.storage_eq_nested_iff.mp hstorage)
    next => cases hmember
  · intro h
    cases h with
    | number h =>
        obtain ⟨scalar, hstorage⟩ := h
        simp [membersOf, hstorage, storedMembers, numberMember]
    | pointer h => rcases h with h | h <;> simp [membersOf, h, storedMembers, pointerMember]
    | size h => simp [membersOf, h, storedMembers, sizeMember]
    | group h =>
        simp [membersOf, Attribute.storage_eq_nested_iff.mpr h, storedMembers, Naming.groupMember]

/-- The only capital in the name of a member is that of a count. -/
theorem IsMemberName.eq_size {att : Attribute} {name : String} (h : IsMemberName att name)
    (hword : IsWord att.name) {c : Char} (hc : c ∈ name.toList) (hcapital : c.isUpper = true) :
    name = lower att.name ++ "Size" ∧ c = 'S' := by
  have hlower := hword.capital_not_mem_lower hcapital
  cases h with
  | number => exact absurd hc hlower
  | pointer =>
      rw [String.toList_append, List.mem_append, or_iff_left hlower] at hc
      have hsmall := List.all_eq_true.mp (rfl : "p_".toList.all (!·.isUpper) = true) c hc
      simp [hcapital] at hsmall
  | size =>
      rw [String.toList_append, List.mem_append, or_iff_right hlower] at hc
      have hfirst := List.all_eq_true.mp
        (rfl : "Size".toList.all (fun c => !c.isUpper || c == 'S') = true) c hc
      exact ⟨rfl, by simpa [hcapital] using hfirst⟩
  | group =>
      rw [String.toList_append, List.mem_append, or_iff_right hlower] at hc
      have hsmall := List.all_eq_true.mp (rfl : "_payload".toList.all (!·.isUpper) = true) c hc
      simp [hcapital] at hsmall

/-- No member of an attribute is named like the presence bitfield. -/
theorem not_isMemberName_presence {att : Attribute} (hword : IsWord att.name) :
    ¬IsMemberName att presenceMember := by
  intro h
  have hcapital := (h.eq_size hword (c := 'A') (by decide) (by decide)).2
  exact absurd hcapital (by decide)

/-! ## Shared names -/

/-- Two attributes with members of one name. -/
inductive MembersMeet (first second : Attribute) : Prop where
  /-- A number is named like a pointer. -/
  | pointer (hfirst : first.IsNumber) (hsecond : second.IsData)
      (h : lower first.name = "p_" ++ lower second.name)
  /-- A number is named like a group. -/
  | group (hfirst : first.IsNumber) (hsecond : second.isComplex = true)
      (h : lower first.name = lower second.name ++ "_payload")
  /-- A pointer is named like a group. -/
  | pointerGroup (hfirst : first.IsData) (hsecond : second.isComplex = true)
      (h : "p_" ++ lower first.name = lower second.name ++ "_payload")

/-- Attributes that meet are two, with a member of one name. -/
theorem MembersMeet.shared {first second : Attribute} (h : MembersMeet first second) :
    first ≠ second ∧ ∃ name, IsMemberName first name ∧ IsMemberName second name := by
  cases h with
  | pointer hfirst hsecond h =>
      exact ⟨fun heq => hfirst.not_isData (heq ▸ hsecond), _, .number hfirst, h ▸ .pointer hsecond⟩
  | group hfirst hsecond h =>
      exact ⟨fun heq => hfirst.not_isComplex (heq ▸ hsecond), _, .number hfirst, h ▸ .group hsecond⟩
  | pointerGroup hfirst hsecond h =>
      exact ⟨fun heq => hfirst.not_isComplex (heq ▸ hsecond), _, .pointer hfirst,
        h ▸ .group hsecond⟩

/-- Attributes whose names differ in lower case share the name of a member only where they
meet. -/
theorem meets_of_memberName {first second : Attribute} (hfirst : IsWord first.name)
    (hsecond : IsWord second.name) (hne : lower first.name ≠ lower second.name) {name : String}
    (h : IsMemberName first name) (hother : IsMemberName second name) :
    MembersMeet first second ∨ MembersMeet second first := by
  by_cases hcapital : 'S' ∈ name.toList
  · have hsize := (h.eq_size hfirst hcapital rfl).1
    rw [(hother.eq_size hsecond hcapital rfl).1] at hsize
    exact absurd ((String.append_left_inj "Size").mp hsize).symm hne
  · cases h with
    | number hnumber =>
        generalize hname : lower first.name = name at hother
        cases hother with
        | number => exact absurd hname hne
        | pointer hdata => exact Or.inl (.pointer hnumber hdata hname)
        | size => simp [hname] at hcapital
        | group hcomplex => exact Or.inl (.group hnumber hcomplex hname)
    | pointer hdata =>
        generalize hname : "p_" ++ lower first.name = name at hother
        cases hother with
        | number hnumber => exact Or.inr (.pointer hnumber hdata hname.symm)
        | pointer => exact absurd ((String.append_right_inj "p_").mp hname) hne
        | size => simp [hname] at hcapital
        | group hcomplex => exact Or.inl (.pointerGroup hdata hcomplex hname)
    | size => simp at hcapital
    | group hcomplex =>
        generalize hname : lower first.name ++ "_payload" = name at hother
        cases hother with
        | number hnumber => exact Or.inr (.group hnumber hcomplex hname.symm)
        | pointer hdata => exact Or.inr (.pointerGroup hdata hcomplex hname.symm)
        | size => simp [hname] at hcapital
        | group => exact absurd ((String.append_left_inj "_payload").mp hname) hne

/-! ## Names in a struct -/

/-- The members of one attribute have distinct names. -/
theorem nodup_names_membersOf {att : Attribute} (hword : IsWord att.name)
    (protocol parent : String) : ((membersOf protocol parent att).map (·.name)).Nodup := by
  rw [membersOf]
  split
  next storage hstorage =>
    cases storage with
    | bytes =>
        -- the pointer holds no capital
        refine List.nodup_cons.mpr ⟨fun hmem => ?_, List.nodup_singleton _⟩
        have heq : "p_" ++ lower att.name = lower att.name ++ "Size" := List.mem_singleton.mp hmem
        have hcapital : 'S' ∈ ("p_" ++ lower att.name).toList := by simp [heq]
        rw [String.toList_append, List.mem_append] at hcapital
        rcases hcapital with hfixed | hlower
        · exact absurd hfixed (by decide)
        · exact hword.capital_not_mem_lower rfl hlower
    | _ => exact List.nodup_singleton _
  next => exact List.nodup_nil

/-- The members of the struct of a group have distinct names unless two of its attributes
meet. -/
theorem nodup_names_ofGroup_iff {protocol : Protocol} (hwell : WellFormed protocol)
    {group : Group} (hgroup : group ∈ protocol.groups) (typeName : String) :
    ((Record.ofGroup protocol.name typeName group.parent group.members).members.map
      (·.name)).Nodup ↔
      ∀ first ∈ group.members, ∀ second ∈ group.members, ¬MembersMeet first second := by
  have hword : ∀ att ∈ group.members, IsWord att.name := fun att hatt =>
    (hwell.attribute_names att (mem_attributes_of_mem_members hwell.children hgroup hatt)).isWord
  have hnames : group.members.Pairwise fun first second => lower first.name ≠ lower second.name :=
    List.pairwise_map.mp (nodup_lower_members hwell hgroup)
  have hattributes : (group.members.flatMap fun att =>
      (membersOf protocol.name group.parent att).map (·.name)).Nodup ↔
      ∀ first ∈ group.members, ∀ second ∈ group.members, ¬MembersMeet first second := by
    refine nodup_flatMap_iff (fun att hatt => nodup_names_membersOf (hword att hatt) _ _) ?_ ?_
    · intro first second hmeet
      obtain ⟨hne, name, hfirst, hsecond⟩ := hmeet.shared
      exact ⟨hne, name, mem_names_membersOf.mpr hfirst, mem_names_membersOf.mpr hsecond⟩
    · refine hnames.imp_of_mem fun {first second} hfirst hsecond hne name hname hother => ?_
      exact meets_of_memberName (hword first hfirst) (hword second hsecond) hne
        (mem_names_membersOf.mp hname) (mem_names_membersOf.mp hother)
  rw [← hattributes, Record.ofGroup, List.map_append, List.map_flatMap, List.nodup_append]
  constructor
  · exact fun h => h.2.1
  · intro hnodup
    refine ⟨?_, hnodup, ?_⟩
    · split
      · exact List.nodup_singleton _
      · exact List.nodup_nil
    · rintro name hname _ hother rfl
      have hpresence : name = presenceMember := by
        split at hname
        · exact List.mem_singleton.mp hname
        · cases hname
      obtain ⟨att, hatt, hmember⟩ := List.mem_flatMap.mp hother
      rw [hpresence, mem_names_membersOf] at hmember
      exact not_isMemberName_presence (hword att hatt) hmember

/-- The header of an accepted protocol declares a struct for every command with attributes and
for every complex attribute, and its members have distinct names exactly if no two attributes
of the scope meet. -/
theorem nodup_memberNames_iff {protocol : Protocol} (hvalid : validate protocol = .ok ())
    (code : Option Recovery.RecoveredCode) :
    (∀ cmd ∈ protocol.carriers,
      (Record.ofCommand protocol.name cmd).lines <:+:
          (MainHeader.build (Prepared.ofProtocol protocol) code).lines ∧
        (((Record.ofCommand protocol.name cmd).members.map (·.name)).Nodup ↔
          ∀ first ∈ cmd.attributes, ∀ second ∈ cmd.attributes, ¬MembersMeet first second)) ∧
      ∀ p ∈ protocol.positions, p.node.isComplex = true →
        (Record.ofEntry protocol.name p.entry).lines <:+:
            (MainHeader.build (Prepared.ofProtocol protocol) code).lines ∧
          (((Record.ofEntry protocol.name p.entry).members.map (·.name)).Nodup ↔
            ∀ first ∈ p.node.children, ∀ second ∈ p.node.children,
              ¬MembersMeet first second) := by
  have hwell := wellFormed_of_validate hvalid
  refine ⟨fun cmd hcmd => ⟨?_, ?_⟩, fun p hp hcomplex => ⟨?_, ?_⟩⟩
  · exact MainHeader.infix_of_mem_structs (command_mem_structs hwell hcmd)
  · exact nodup_names_ofGroup_iff hwell (group_mem_groups hcmd)
      (Naming.commandPayload protocol.name cmd.name)
  · exact MainHeader.infix_of_mem_structs (entry_mem_structs hwell hp hcomplex)
  · have h := nodup_names_ofGroup_iff hwell (below_mem_groups hp hcomplex)
      (Naming.nestedPayload protocol.name p.group.parent p.node.name)
    rwa [Position.parent_below] at h

/-- Attributes do not meet where names neither start like a pointer nor end like a group. -/
theorem not_meet_of_plain {first second : Attribute}
    (hpointer : ¬"p_".toList <+: (lower first.name).toList)
    (hgroup : ¬"payload".toList <:+ (lower first.name).toList) : ¬MembersMeet first second := by
  intro h
  cases h with
  | pointer _ _ h =>
      refine hpointer ?_
      rw [h, String.toList_append]
      exact List.prefix_append _ _
  | group _ _ h =>
      refine hgroup ?_
      rw [h, String.toList_append]
      exact (by decide : "payload".toList <:+ "_payload".toList).trans (List.suffix_append _ _)
  | pointerGroup _ _ h =>
      refine hgroup (suffix_of_marked (lower second.name) ?_)
      rw [h, String.toList_append]
      rfl

/-- The structs of the meter have members with distinct names. -/
theorem nodup_memberNames_meter :
    validate meter = .ok () ∧
      (∀ cmd ∈ meter.carriers, ((Record.ofCommand meter.name cmd).members.map (·.name)).Nodup) ∧
      ∀ p ∈ meter.positions, p.node.isComplex = true →
        ((Record.ofEntry meter.name p.entry).members.map (·.name)).Nodup := by
  have hvalid : validate meter = .ok () := rfl
  have hshaped : Shaped meter.attributes := (wellFormed_of_validate hvalid).children
  have hplain : ∀ att ∈ meter.attributes, ¬"p_".toList <+: (lower att.name).toList ∧
      ¬"payload".toList <:+ (lower att.name).toList := by decide
  have happart : ∀ group ∈ meter.groups, ∀ first ∈ group.members, ∀ second ∈ group.members,
      ¬MembersMeet first second := by
    intro group hgroup first hfirst second _
    have hnames := hplain first (mem_attributes_of_mem_members hshaped hgroup hfirst)
    exact not_meet_of_plain hnames.1 hnames.2
  obtain ⟨hcommands, hnested⟩ := nodup_memberNames_iff hvalid none
  refine ⟨hvalid, fun cmd hcmd => ?_, fun p hp hcomplex => ?_⟩
  · obtain ⟨-, hiff⟩ := hcommands cmd hcmd
    have h := happart cmd.group (group_mem_groups hcmd)
    exact hiff.mpr h
  · obtain ⟨-, hiff⟩ := hnested p hp hcomplex
    have h := happart p.below (below_mem_groups hp hcomplex)
    exact hiff.mpr h

private def gauge : Protocol :=
  ⟨"Gauge", 4, [⟨"Read", 1, .aToB,
    [⟨"raw", 1, false, .byteArray, [], ""⟩, ⟨"p_raw", 2, false, .uint8, [], ""⟩], ""⟩]⟩

/-- A number that is named like the pointer to its sibling is accepted, and the struct of the
command declares two members of that name. -/
theorem not_nodup_memberNames_gauge :
    validate gauge = .ok () ∧
      ∃ record ∈ (MainHeader.build (Prepared.ofProtocol gauge) none).structs,
        ¬(record.members.map (·.name)).Nodup :=
  ⟨rfl, _, List.mem_singleton_self _, by decide⟩

end Firmware
end CommandSet
