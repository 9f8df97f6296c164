import CommandSet.Proofs.Protocol.Groups

/-!
# Children first

Generated code has an item for every group, and an item can name only those in front of it.  The
flat list has every attribute in front of those below it, so read from its end it leads from the
innermost groups outwards, and items that name only those of groups right below their own stand
behind what they name.

Main definitions:

- {lit}`Preordered`, {lit}`ChildrenFirst`: attributes in front of those below them, and behind.
- {lit}`UsesEarlier`: lists whose elements use only what those in front of them define.
- {lit}`Group.namesBelow`: what the items of a group name.

Main results:

- Theorem {lit}`preordered_positions`: behind every attribute follows what is below it.
- Theorem {lit}`usesEarlier_definedGroups`: what belongs to a group uses what belongs to groups in
  front of it.
-/

namespace CommandSet

/-! ## Elements of two lists -/

/-- An element of two lists, one behind the other, is one of the first or of the second. -/
theorem split_append {α : Type} {first second above rest : List α} {a : α}
    (h : first ++ second = above ++ a :: rest) :
    (∃ middle, first = above ++ a :: middle ∧ rest = middle ++ second) ∨
      ∃ middle, above = first ++ middle ∧ second = middle ++ a :: rest := by
  rcases List.append_eq_append_iff.mp h with ⟨middle, habove, hsecond⟩ | ⟨middle, hfirst, hrest⟩
  · exact Or.inr ⟨middle, habove, hsecond⟩
  · cases middle with
    | nil =>
        rw [List.append_nil] at hfirst
        exact Or.inr ⟨[], by rw [hfirst, List.append_nil], hrest.symm⟩
    | cons b middle =>
        obtain ⟨rfl, htail⟩ := List.cons.inj hrest
        exact Or.inl ⟨middle, hfirst, htail⟩

/-! ## Attributes and what is below them -/

/-- The attributes below an attribute, at all depths. -/
def Position.descendants (p : Position) : List Position :=
  Position.ofTrees p.below 0 p.node.children

/-- Behind every attribute of the list follows at once what is below it. -/
def Preordered (positions : List Position) : Prop :=
  ∀ above p rest, positions = above ++ p :: rest → p.descendants <+: rest

theorem preordered_nil : Preordered [] := by
  intro above p rest h
  simp at h

theorem Preordered.append {first second : List Position} (hfirst : Preordered first)
    (hsecond : Preordered second) : Preordered (first ++ second) := by
  intro above p rest h
  rcases split_append h with ⟨middle, hsplit, rfl⟩ | ⟨middle, -, hsplit⟩
  · exact (hfirst above p middle hsplit).trans (List.prefix_append _ _)
  · exact hsecond middle p rest hsplit

theorem preordered_flatMap {α : Type} {items : List α} {positions : α → List Position}
    (h : ∀ item ∈ items, Preordered (positions item)) : Preordered (items.flatMap positions) := by
  induction items with
  | nil => exact preordered_nil
  | cons item items ih =>
      rw [List.forall_mem_cons] at h
      rw [List.flatMap_cons]
      exact h.1.append (ih h.2)

/-- A forest is listed with every attribute in front of what is below it. -/
theorem preordered_ofTrees (atts : List Attribute) :
    ∀ group index, Preordered (Position.ofTrees group index atts) := by
  induction atts using Attribute.forest_induction with
  | nil =>
      intro group index
      exact preordered_nil
  | cons att rest ihbelow ihrest =>
      intro group index above p tail h
      rw [Position.ofTrees_cons] at h
      cases above with
      | nil =>
          obtain ⟨rfl, rfl⟩ := List.cons.inj h
          exact List.prefix_append _ _
      | cons first above =>
          obtain ⟨-, h⟩ := List.cons.inj h
          exact (ihbelow (group.below att) 0).append (ihrest group (index + 1)) above p tail h

/-- Behind every attribute of a protocol follows what is below it. -/
theorem preordered_positions (protocol : Protocol) : Preordered protocol.positions :=
  preordered_flatMap fun cmd _ => preordered_ofTrees cmd.attributes cmd.group 0

/-- In front of every attribute of the list stand the complex ones below it. -/
def ChildrenFirst (order : List Position) : Prop :=
  ∀ before p after, order = before ++ p :: after →
    ∀ q ∈ p.descendants, q.node.isComplex = true → q ∈ before

/-- Read from the end, the complex attributes of a list come children first. -/
theorem Preordered.childrenFirst {positions : List Position} (h : Preordered positions) :
    ChildrenFirst (positions.filter (·.node.isComplex)).reverse := by
  intro before p after horder q hq hcomplex
  have hfilter : positions.filter (·.node.isComplex) =
      after.reverse ++ p :: before.reverse := by
    simpa using congrArg List.reverse horder
  obtain ⟨above, rest, hsplit, -, hrest⟩ := List.filter_eq_append_iff.mp hfilter
  obtain ⟨between, below, rfl, -, -, hbelow⟩ := List.filter_eq_cons_iff.mp hrest
  have hmem : q ∈ below := by
    refine (h (above ++ between) p below ?_).subset hq
    rw [hsplit, List.append_assoc]
  have hkept : q ∈ below.filter (·.node.isComplex) := List.mem_filter.mpr ⟨hmem, hcomplex⟩
  rw [hbelow] at hkept
  exact List.mem_reverse.mp hkept

/-- The complex attributes of a protocol, those below an attribute in front of it. -/
def Protocol.complexOrder (protocol : Protocol) : List Position :=
  (protocol.positions.filter (·.node.isComplex)).reverse

theorem mem_complexOrder {protocol : Protocol} {p : Position} :
    p ∈ protocol.complexOrder ↔ p ∈ protocol.positions ∧ p.node.isComplex = true := by
  rw [Protocol.complexOrder, List.mem_reverse, List.mem_filter]

theorem childrenFirst_complexOrder (protocol : Protocol) : ChildrenFirst protocol.complexOrder :=
  (preordered_positions protocol).childrenFirst

/-! ## Uses -/

/-- Every element uses only names that are defined when its turn comes. -/
def UsesEarlier {α β : Type} (defines uses : α → List β) : List β → List α → Prop
  | _, [] => True
  | defined, item :: rest =>
      (∀ used ∈ uses item, used ∈ defined) ∧
        UsesEarlier defines uses (defined ++ defines item) rest

section Uses

variable {α β γ : Type} {defines uses : α → List β} {defined : List β}

theorem usesEarlier_append {first second : List α} :
    UsesEarlier defines uses defined (first ++ second) ↔
      UsesEarlier defines uses defined first ∧
        UsesEarlier defines uses (defined ++ first.flatMap defines) second := by
  induction first generalizing defined with
  | nil => simp [UsesEarlier]
  | cons item first ih =>
      rw [List.cons_append, UsesEarlier, UsesEarlier, ih, List.flatMap_cons, List.append_assoc,
        and_assoc]

/-- Elements that use only names which are defined in front of all of them. -/
theorem usesEarlier_of_defined {items : List α}
    (h : ∀ item ∈ items, ∀ used ∈ uses item, used ∈ defined) :
    UsesEarlier defines uses defined items := by
  induction items generalizing defined with
  | nil => trivial
  | cons item items ih =>
      rw [List.forall_mem_cons] at h
      refine ⟨h.1, ih fun next hnext used hused => ?_⟩
      exact List.mem_append_left _ (h.2 next hnext used hused)

/-- Elements that use only names of elements in front of them. -/
theorem usesEarlier_of_split {items : List α}
    (h : ∀ before item after, items = before ++ item :: after →
      ∀ used ∈ uses item, used ∈ defined ++ before.flatMap defines) :
    UsesEarlier defines uses defined items := by
  induction items generalizing defined with
  | nil => trivial
  | cons item items ih =>
      refine ⟨fun used hused => ?_, ih fun before next after hsplit used hused => ?_⟩
      · simpa using h [] item items rfl used hused
      · have hused := h (item :: before) next after (congrArg (List.cons item) hsplit) used hused
        rwa [List.flatMap_cons, ← List.append_assoc] at hused

/-- Elements that neither define nor use anything may stand in front. -/
theorem usesEarlier_idle {front rest : List α}
    (h : ∀ item ∈ front, defines item = [] ∧ uses item = []) :
    UsesEarlier defines uses defined (front ++ rest) ↔ UsesEarlier defines uses defined rest := by
  have hdefines : front.flatMap defines = [] :=
    List.flatMap_eq_nil_iff.mpr fun item hitem => (h item hitem).1
  have hfront : UsesEarlier defines uses defined front :=
    usesEarlier_of_defined fun item hitem used hused => by
      rw [(h item hitem).2] at hused
      cases hused
  rw [usesEarlier_append, hdefines, List.append_nil, and_iff_right hfront]

/-- Pieces of which each uses names of pieces in front of it are put together of elements that use
names of elements in front of them. -/
theorem usesEarlier_flatMap {pieces : List γ} {items : γ → List α} {defines' uses' : γ → List β}
    (hdefines : ∀ piece ∈ pieces, (items piece).flatMap defines = defines' piece)
    (huses : ∀ piece ∈ pieces, (items piece).flatMap uses = uses' piece)
    (h : UsesEarlier defines' uses' defined pieces) :
    UsesEarlier defines uses defined (pieces.flatMap items) := by
  induction pieces generalizing defined with
  | nil => trivial
  | cons piece pieces ih =>
      rw [List.forall_mem_cons] at hdefines huses
      rw [List.flatMap_cons, usesEarlier_append, hdefines.1]
      refine ⟨usesEarlier_of_defined fun item hitem used hused => h.1 used ?_,
        ih hdefines.2 huses.2 h.2⟩
      rw [← huses.1]
      exact List.mem_flatMap_of_mem hitem hused

/-- What is made of elements one by one. -/
theorem usesEarlier_map {items : List γ} {build : γ → α} {defines' uses' : γ → List β}
    (hdefines : ∀ item ∈ items, defines (build item) = defines' item)
    (huses : ∀ item ∈ items, uses (build item) = uses' item)
    (h : UsesEarlier defines' uses' defined items) :
    UsesEarlier defines uses defined (items.map build) := by
  rw [List.map_eq_flatMap]
  refine usesEarlier_flatMap (fun item hitem => ?_) (fun item hitem => ?_) h
  · rw [List.flatMap_singleton, hdefines item hitem]
  · rw [List.flatMap_singleton, huses item hitem]

end Uses

/-! ## Groups -/

/-- The members of a group have positions of their own. -/
theorem exists_own {group : Group} {att : Attribute} (h : att ∈ group.members) :
    ∃ q ∈ group.own, q.group = group ∧ q.node = att := by
  rw [← Group.map_node_own, List.mem_map] at h
  obtain ⟨q, hq, rfl⟩ := h
  exact ⟨q, hq, Group.group_of_mem_placed hq, rfl⟩

/-- The attributes right below an attribute are below it. -/
theorem own_subset_descendants (p : Position) : p.below.own ⊆ p.descendants :=
  (placed_sublist_ofTrees p.node.children p.below 0).subset

/-- What the members of a group lead to. -/
def Group.namesBelow {β : Type} (key : Group → β) (group : Group) : List β :=
  (group.members.filter (·.isComplex)).map fun att => key (group.below att)

/-- What the members of a group lead to belongs to complex attributes of the group. -/
theorem exists_own_of_mem_namesBelow {β : Type} {key : Group → β} {group : Group} {used : β}
    (h : used ∈ group.namesBelow key) :
    ∃ q ∈ group.own, q.node.isComplex = true ∧ key q.below = used := by
  obtain ⟨att, hatt, rfl⟩ := List.mem_map.mp h
  obtain ⟨hmember, hcomplex⟩ := List.mem_filter.mp hatt
  obtain ⟨q, hq, rfl, rfl⟩ := exists_own hmember
  exact ⟨q, hq, hcomplex, rfl⟩

theorem definedGroups_eq (protocol : Protocol) : definedGroups protocol =
    protocol.complexOrder.map Position.below ++ protocol.carriers.map Command.group := by
  rw [definedGroups, Protocol.complexOrder, List.map_reverse]

/-- Whatever is written group by group uses what is written already, if it uses what belongs to
groups right below its own. -/
theorem usesEarlier_definedGroups {β : Type} (protocol : Protocol) (key : Group → β) :
    UsesEarlier (fun group => [key group]) (Group.namesBelow key) [] (definedGroups protocol) := by
  rw [definedGroups_eq, usesEarlier_append]
  constructor
  · refine usesEarlier_map (fun _ _ => rfl) (fun _ _ => rfl)
      (usesEarlier_of_split fun before p after horder used hused => ?_)
    obtain ⟨q, hq, hcomplex, rfl⟩ := exists_own_of_mem_namesBelow hused
    have hbefore := childrenFirst_complexOrder protocol before p after horder q
      (own_subset_descendants p hq) hcomplex
    exact List.mem_flatMap_of_mem hbefore (List.mem_singleton_self _)
  · refine usesEarlier_of_defined fun group hgroup used hused => ?_
    obtain ⟨cmd, hcmd, rfl⟩ := List.mem_map.mp hgroup
    obtain ⟨q, hq, hcomplex, rfl⟩ := exists_own_of_mem_namesBelow hused
    have hposition := (own_sublist_positions (group_mem_groups hcmd)).subset hq
    have horder := mem_complexOrder.mpr ⟨hposition, hcomplex⟩
    exact List.mem_flatMap_of_mem (List.mem_map_of_mem horder) (List.mem_singleton_self _)

end CommandSet
