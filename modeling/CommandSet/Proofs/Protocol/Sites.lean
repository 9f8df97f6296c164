import CommandSet.Proofs.Protocol.Positions

/-!
# The places validation visits

Validation visits a protocol place by place: first the protocol itself, then every
command followed by the attributes below it, each attribute before its sub-attributes,
and at last the names of all complex attributes together.  A place is checked against
its earlier siblings alone, so the walk stops at the first place that does not pass.

Main definitions:

- {lit}`Site`, {lit}`Site.check`: a place and the checks made there.
- {lit}`Protocol.sites`: the places of a protocol in the order of the visit.

Main results:

- Theorem {lit}`validate_eq_forM_sites`: validation checks the places one after the other.
- Theorem {lit}`validate_eq_error_iff`: its error is that of the first place that does not
  pass.
-/

namespace CommandSet

/-! ## Places -/

/-- A place that is checked at once: the protocol itself, a command or an attribute
with its earlier siblings, or the names of all complex attributes. -/
inductive Site where
  | root (protocol : Protocol)
  | command (protocol : String) (earlier : List Command) (cmd : Command)
  | field (parent : String) (earlier : List Attribute) (att : Attribute)
  | scopes (protocol : Protocol)

namespace Site

mutual

/-- The places of an attribute and of all attributes below it. -/
def ofAttribute (parent : String) (earlier : List Attribute) : Attribute → List Site
  | att@⟨name, _, _, _, children, _⟩ =>
      field parent earlier att :: ofAttributes name [] children

/-- The places of sibling attributes, {lit}`earlier` siblings standing before them. -/
def ofAttributes (parent : String) (earlier : List Attribute) : List Attribute → List Site
  | [] => []
  | att :: rest => ofAttribute parent earlier att ++ ofAttributes parent (earlier ++ [att]) rest

end

/-- The places of commands, {lit}`earlier` commands standing before them. -/
def ofCommands (protocol : String) (earlier : List Command) : List Command → List Site
  | [] => []
  | cmd :: rest =>
      command protocol earlier cmd ::
        (ofAttributes cmd.name [] cmd.attributes ++ ofCommands protocol (earlier ++ [cmd]) rest)

/-- Refuse with an error about something that was found. -/
def refuseSome {α : Type} (found : Option α) (error : α → ValidationError) : Checked :=
  match found with
  | some a => .error (error a)
  | none => .ok ()

/-- Refuse an attribute that lacks sub-attributes or has some although its type asks for none. -/
def checkChildren (att : Attribute) : Checked :=
  if att.isComplex then refuseIf att.children.isEmpty (.emptySubAttributes att.name)
  else refuseIf (!att.children.isEmpty) (.unexpectedChildren att.name)

/-- What is checked at a place. -/
def check : Site → Checked
  | root protocol => do
      refuseIf protocol.commands.isEmpty .noCommands
      checkName protocol.name
  | command protocol earlier cmd => do
      checkName cmd.name
      refuseIf (cmd.direction == .unknown) (.unknownDirection cmd.name)
      refuseIf (decide (cmd.id < 0)) (.negativeId cmd.name cmd.id)
      refuseSome (earlier.find? (·.id == cmd.id)) fun first =>
        .duplicateCommandId cmd.id first.name cmd.name
      refuseIf (earlier.any (·.name == cmd.name)) (.duplicateCommandName cmd.name)
      checkSpelling protocol (earlier.map (·.name)) cmd.name
  | field parent earlier att => do
      checkName att.name
      refuseIf (att.dataType == .unknown) (.unknownDataType att.name)
      refuseIf (decide (att.id < 0)) (.negativeId att.name att.id)
      refuseIf (earlier.any (·.id == att.id)) (.duplicateAttributeId parent att.id)
      refuseIf (earlier.any (·.name == att.name)) (.duplicateAttributeName parent att.name)
      checkSpelling parent (earlier.map (·.name)) att.name
      checkChildren att
  | scopes protocol => do
      refuseSome (repeatedComplexName? protocol.commands) .duplicateComplexName
      let commandNames := protocol.commands.map (·.name)
      let names := complexNames (flatten protocol.commands)
      refuseSome (names.find? (commandNames.contains ·)) .complexNameClash
      checkSpellings protocol.name commandNames names

theorem ofAttributes_cons (parent : String) (earlier : List Attribute) (att : Attribute)
    (rest : List Attribute) :
    ofAttributes parent earlier (att :: rest) =
      field parent earlier att ::
        (ofAttributes att.name [] att.children ++
          ofAttributes parent (earlier ++ [att]) rest) := by
  cases att
  rw [ofAttributes, ofAttribute, List.cons_append]

end Site

/-- The places of a protocol in the order in which they are visited. -/
def Protocol.sites (protocol : Protocol) : List Site :=
  .root protocol ::
    (Site.ofCommands protocol.name [] protocol.commands ++ [.scopes protocol])

/-! ## What the places are -/

theorem exists_field_of_mem_ofAttributes {site : Site} (atts : List Attribute) :
    ∀ parent earlier, site ∈ Site.ofAttributes parent earlier atts →
      ∃ scope before att, site = .field scope before att ∧ att ∈ Attribute.forest atts := by
  induction atts using Attribute.forest_induction with
  | nil =>
      intro parent earlier h
      rw [Site.ofAttributes] at h
      cases h
  | cons first rest ihbelow ihrest =>
      intro parent earlier h
      rw [Site.ofAttributes_cons, List.mem_cons, List.mem_append] at h
      rw [Attribute.forest, Attribute.subtree_eq, List.cons_append]
      rcases h with rfl | h | h
      · exact ⟨parent, earlier, first, rfl, List.mem_cons_self⟩
      · obtain ⟨scope, before, att, rfl, hatt⟩ := ihbelow first.name [] h
        exact ⟨scope, before, att, rfl, List.mem_cons_of_mem _ (List.mem_append_left _ hatt)⟩
      · obtain ⟨scope, before, att, rfl, hatt⟩ := ihrest parent (earlier ++ [first]) h
        exact ⟨scope, before, att, rfl, List.mem_cons_of_mem _ (List.mem_append_right _ hatt)⟩

/-- The places of commands are their own and those of the attributes below them. -/
theorem of_mem_ofCommands {protocol : String} {site : Site} {cmds : List Command} :
    ∀ {earlier}, site ∈ Site.ofCommands protocol earlier cmds →
      (∃ before, ∃ cmd ∈ cmds, site = .command protocol before cmd) ∨
        ∃ scope before att, site = .field scope before att ∧
          ∃ cmd ∈ cmds, att ∈ Attribute.forest cmd.attributes := by
  induction cmds with
  | nil =>
      intro earlier h
      cases h
  | cons first rest ih =>
      intro earlier h
      rw [Site.ofCommands, List.mem_cons, List.mem_append] at h
      rcases h with rfl | h | h
      · exact .inl ⟨earlier, first, List.mem_cons_self, rfl⟩
      · obtain ⟨scope, before, att, rfl, hatt⟩ :=
          exists_field_of_mem_ofAttributes first.attributes first.name [] h
        exact .inr ⟨scope, before, att, rfl, first, List.mem_cons_self, hatt⟩
      · rcases ih h with ⟨before, cmd, hcmd, rfl⟩ | ⟨scope, before, att, rfl, cmd, hcmd, hatt⟩
        · exact .inl ⟨before, cmd, List.mem_cons_of_mem _ hcmd, rfl⟩
        · exact .inr ⟨scope, before, att, rfl, cmd, List.mem_cons_of_mem _ hcmd, hatt⟩

/-- The places of a protocol are its own, those of its commands and of its attributes at all
depths, and that of the complex names. -/
theorem of_mem_sites {protocol : Protocol} {site : Site} (h : site ∈ protocol.sites) :
    site = .root protocol ∨
      (∃ before, ∃ cmd ∈ protocol.commands, site = .command protocol.name before cmd) ∨
      (∃ scope before, ∃ att ∈ protocol.attributes, site = .field scope before att) ∨
      site = .scopes protocol := by
  rw [Protocol.sites, List.mem_cons, List.mem_append, List.mem_singleton] at h
  rcases h with rfl | h | rfl
  · exact .inl rfl
  · rcases of_mem_ofCommands h with hcommand | ⟨scope, before, att, rfl, cmd, hcmd, hatt⟩
    · exact .inr (.inl hcommand)
    · exact .inr (.inr (.inl ⟨scope, before, att, List.mem_flatMap.mpr ⟨cmd, hcmd, hatt⟩, rfl⟩))
  · exact .inr (.inr (.inr rfl))

/-- The names of all complex attributes are looked at when everything else is. -/
theorem before_scopes {protocol owner : Protocol} {before after : List Site}
    (h : protocol.sites = before ++ .scopes owner :: after) :
    owner = protocol ∧
      before = .root protocol :: Site.ofCommands protocol.name [] protocol.commands := by
  have hfront : Site.scopes owner ∉
      Site.root protocol :: Site.ofCommands protocol.name [] protocol.commands := by
    rw [List.mem_cons]
    rintro (h | h)
    · cases h
    · rcases of_mem_ofCommands h with ⟨_, _, _, h⟩ | ⟨_, _, _, h, _⟩ <;> cases h
  rw [Protocol.sites, ← List.cons_append] at h
  rcases List.append_eq_append_iff.mp h with ⟨middle, hbefore, hlast⟩ | ⟨middle, hsplit, hlast⟩
  · cases middle with
    | nil =>
        cases hlast
        exact ⟨rfl, by rw [hbefore, List.append_nil]⟩
    | cons _ middle =>
        have hnil := (List.cons.inj hlast).2
        cases middle <;> cases hnil
  · cases middle with
    | nil =>
        cases hlast
        exact ⟨rfl, by rw [hsplit, List.append_nil]⟩
    | cons site middle =>
        obtain ⟨rfl, -⟩ := List.cons.inj hlast
        rw [hsplit] at hfront
        exact absurd (List.mem_append_right _ List.mem_cons_self) hfront

/-! ## The walk -/

/-- A sequence of checks ends with the first error among them. -/
theorem Checked.bind_eq_error_iff {first : Checked} {second : Unit → Checked}
    {error : ValidationError} :
    (first >>= second) = .error error ↔
      first = .error error ∨ first = .ok () ∧ second () = .error error := by
  cases first <;> simp [bind, Except.bind]

/-- Checks made one after the other end with the first error among them. -/
theorem Checked.forM_eq_error_iff {α : Type} {check : α → Checked} {items : List α}
    {error : ValidationError} :
    forM items check = .error error ↔
      ∃ before item after, items = before ++ item :: after ∧
        (∀ passed ∈ before, check passed = .ok ()) ∧ check item = .error error := by
  induction items with
  | nil =>
      simp [pure, Except.pure]
  | cons first rest ih =>
      rw [List.forM_cons, Checked.bind_eq_error_iff, ih]
      constructor
      · rintro (herror | ⟨hfirst, before, item, after, rfl, hpassed, herror⟩)
        · exact ⟨[], first, rest, rfl, by simp, herror⟩
        · exact ⟨first :: before, item, after, rfl, List.forall_mem_cons.mpr ⟨hfirst, hpassed⟩,
            herror⟩
      · rintro ⟨before, item, after, hsplit, hpassed, herror⟩
        cases before with
        | nil =>
            obtain ⟨rfl, rfl⟩ := List.cons.inj hsplit
            exact .inl herror
        | cons head before =>
            obtain ⟨rfl, rfl⟩ := List.cons.inj hsplit
            obtain ⟨hhead, hpassed⟩ := List.forall_mem_cons.mp hpassed
            exact .inr ⟨hhead, before, item, after, rfl, hpassed, herror⟩

/-- Checks made one after the other pass when each of them does. -/
theorem Checked.forM_eq_ok_iff {α : Type} {check : α → Checked} {items : List α} :
    forM items check = .ok () ↔ ∀ item ∈ items, check item = .ok () := by
  induction items with
  | nil => simp [pure, Except.pure]
  | cons first rest ih =>
      rw [List.forM_cons, Checked.bind_eq_ok_iff, ih, List.forall_mem_cons]

/-- An attribute is checked at its place, then the attributes below it are. -/
theorem checkAttribute_eq (parent : String) (earlier : List Attribute) (att : Attribute) :
    checkAttribute parent earlier att =
      (do
        (Site.field parent earlier att).check
        checkAttributes att.name [] att.children) := by
  obtain ⟨name, id, optional, dataType, children, description⟩ := att
  -- an attribute that is not complex is refused if there are children to descend to
  have hlast : (if (dataType == .subAttributes) = true then do
        refuseIf children.isEmpty (.emptySubAttributes name)
        checkAttributes name [] children
      else refuseIf (!children.isEmpty) (.unexpectedChildren name)) =
      (do
        Site.checkChildren ⟨name, id, optional, dataType, children, description⟩
        checkAttributes name [] children) := by
    rw [Site.checkChildren, Attribute.isComplex]
    split
    · rfl
    · cases children <;> rfl
  simp only [checkAttribute, Site.check, bind_assoc, hlast]

/-- Sibling attributes are checked place by place. -/
theorem checkAttributes_eq_forM (atts : List Attribute) : ∀ parent earlier,
    checkAttributes parent earlier atts =
      forM (Site.ofAttributes parent earlier atts) Site.check := by
  induction atts using Attribute.forest_induction with
  | nil =>
      intro parent earlier
      rw [checkAttributes, Site.ofAttributes]
      rfl
  | cons att rest ihbelow ihrest =>
      intro parent earlier
      rw [checkAttributes, checkAttribute_eq, Site.ofAttributes_cons, List.forM_cons,
        List.forM_append, bind_assoc, ihbelow, ihrest]

theorem checkCommand_eq (protocol : String) (earlier : List Command) (cmd : Command) :
    checkCommand protocol earlier cmd =
      (do
        (Site.command protocol earlier cmd).check
        checkAttributes cmd.name [] cmd.attributes) := by
  simp only [checkCommand, Site.check, Site.refuseSome, bind_assoc]
  cases earlier.find? (·.id == cmd.id) <;> rfl

theorem checkComplexNames_eq (protocol : Protocol) :
    checkComplexNames protocol = (Site.scopes protocol).check := by
  simp only [checkComplexNames, Site.check, Site.refuseSome]
  cases repeatedComplexName? protocol.commands with
  | some name => rfl
  | none =>
      cases (complexNames (flatten protocol.commands)).find?
        ((protocol.commands.map (·.name)).contains ·) <;> rfl

/-- Commands are checked place by place. -/
theorem checkCommands_eq_forM (protocol : String) (cmds : List Command) : ∀ earlier,
    checkCommands protocol earlier cmds =
      forM (Site.ofCommands protocol earlier cmds) Site.check := by
  induction cmds with
  | nil =>
      intro earlier
      rfl
  | cons cmd rest ih =>
      intro earlier
      rw [checkCommands, checkCommand_eq, Site.ofCommands, List.forM_cons, List.forM_append,
        bind_assoc, checkAttributes_eq_forM, ih]

/-- Validation checks the places of a protocol one after the other. -/
theorem validate_eq_forM_sites (protocol : Protocol) :
    validate protocol = forM protocol.sites Site.check := by
  rw [validate, Protocol.sites, List.forM_cons, List.forM_append, Site.check, bind_assoc,
    ← checkCommands_eq_forM, List.forM_cons, ← checkComplexNames_eq]
  simp

/-- The error of validation is that of the first place that does not pass. -/
theorem validate_eq_error_iff {protocol : Protocol} {error : ValidationError} :
    validate protocol = .error error ↔
      ∃ before site after, protocol.sites = before ++ site :: after ∧
        (∀ passed ∈ before, Site.check passed = .ok ()) ∧ site.check = .error error := by
  rw [validate_eq_forM_sites, Checked.forM_eq_error_iff]

end CommandSet
