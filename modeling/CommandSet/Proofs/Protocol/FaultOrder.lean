import CommandSet.Proofs.Protocol.Sites

/-!
# Which fault is reported

Faults come in kinds, and the kinds in an order.  The order decides between faults at one
place only: of two faults at different places the one that is visited first is reported,
whatever their kinds.

Main definitions:

- {lit}`Fault`: the kinds of faults in their order, spellings aside.
- {lit}`Site.Has`, {lit}`Protocol.Has`: what is wrong at a place, and anywhere.
- {lit}`Reports`: a check that tells the first kind of what is wrong.

Main results:

- Theorem {lit}`reports_of_reached`: the checks of a place report what is wrong there.
- Theorem {lit}`validate_first_fault`: validation reports the first kind of fault at the
  first place that has any.
-/

namespace CommandSet

/-! ## Kinds of faults -/

/-- The kinds of faults, in their order; names that are merely spelled alike are none. -/
inductive Fault where
  | noCommands
  | invalidName
  | unknownWord
  | negativeId
  | repeatedCommand
  | repeatedAttribute
  | misplacedChildren
  | repeatedComplexName
  | complexNameClash
deriving Repr, DecidableEq

namespace Fault

/-- The place of a kind in the order. -/
def rank : Fault → Nat
  | noCommands => 0
  | invalidName => 1
  | unknownWord => 2
  | negativeId => 3
  | repeatedCommand => 4
  | repeatedAttribute => 5
  | misplacedChildren => 6
  | repeatedComplexName => 7
  | complexNameClash => 8

instance : LT Fault :=
  ⟨fun first second => first.rank < second.rank⟩

theorem lt_def {first second : Fault} : first < second ↔ first.rank < second.rank :=
  Iff.rfl

end Fault

/-- The kind of fault an error is about. -/
def ValidationError.fault? : ValidationError → Option Fault
  | noCommands => some .noCommands
  | invalidName _ => some .invalidName
  | unknownDirection _ => some .unknownWord
  | unknownDataType _ => some .unknownWord
  | negativeId .. => some .negativeId
  | duplicateCommandId .. => some .repeatedCommand
  | duplicateCommandName _ => some .repeatedCommand
  | duplicateAttributeId .. => some .repeatedAttribute
  | duplicateAttributeName .. => some .repeatedAttribute
  | unexpectedChildren _ => some .misplacedChildren
  | emptySubAttributes _ => some .misplacedChildren
  | duplicateComplexName _ => some .repeatedComplexName
  | complexNameClash _ => some .complexNameClash
  | identifierCollision .. => none

/-! ## Faults of a protocol -/

/-- The names of the complex attributes at all depths. -/
def Protocol.complexNames (protocol : Protocol) : List String :=
  (protocol.attributes.filter (·.isComplex)).map (·.name)

/-- What is wrong at a place.  A repeated identifier or name is wrong where it stands for
the second time. -/
def Site.Has : Site → Fault → Prop
  | root protocol, .noCommands => protocol.commands = []
  | root protocol, .invalidName => ¬IsName protocol.name
  | command _ _ cmd, .invalidName => ¬IsName cmd.name
  | command _ _ cmd, .unknownWord => cmd.direction = .unknown
  | command _ _ cmd, .negativeId => cmd.id < 0
  | command _ earlier cmd, .repeatedCommand =>
      ∃ other ∈ earlier, other.id = cmd.id ∨ other.name = cmd.name
  | field _ _ att, .invalidName => ¬IsName att.name
  | field _ _ att, .unknownWord => att.dataType = .unknown
  | field _ _ att, .negativeId => att.id < 0
  | field _ earlier att, .repeatedAttribute =>
      ∃ other ∈ earlier, other.id = att.id ∨ other.name = att.name
  | field _ _ att, .misplacedChildren => ¬(att.children ≠ [] ↔ att.dataType = .subAttributes)
  | scopes protocol, .repeatedComplexName => ¬protocol.complexNames.Nodup
  | scopes protocol, .complexNameClash =>
      ∃ cmd ∈ protocol.commands, cmd.name ∈ protocol.complexNames
  | _, _ => False

/-- What is wrong anywhere in a protocol. -/
def Protocol.Has (protocol : Protocol) (fault : Fault) : Prop :=
  ∃ site ∈ protocol.sites, site.Has fault

/-! ## Checks that report faults -/

/-- A check of what {lit}`has` says is wrong: it passes only if nothing is, and its error,
if it is about a fault at all, is about the first kind. -/
structure Reports (check : Checked) (has : Fault → Prop) : Prop where
  passes : check = .ok () → ∀ fault, ¬has fault
  first : ∀ error fault, check = .error error → error.fault? = some fault →
    has fault ∧ ∀ other, other < fault → ¬has other

namespace Reports

variable {check : Checked} {has : Fault → Prop}

/-- A check of one kind. -/
theorem single {fault : Fault} {wrong : Prop} (hok : check = .ok () ↔ ¬wrong)
    (hfault : ∀ error, check = .error error → error.fault? = some fault) :
    Reports check fun kind => kind = fault ∧ wrong where
  passes := by
    rintro hpass _ ⟨-, hwrong⟩
    exact hok.mp hpass hwrong
  first := by
    intro error kind herror hkind
    obtain rfl : kind = fault := Option.some.inj (hkind.symm.trans (hfault error herror))
    have hwrong : wrong := by
      by_contra hnot
      rw [hok.mpr hnot] at herror
      cases herror
    refine ⟨⟨rfl, hwrong⟩, ?_⟩
    rintro other hlt ⟨rfl, -⟩
    exact Nat.lt_irrefl _ hlt

/-- A check whose errors are about no fault. -/
theorem silent (hnone : ∀ error, check = .error error → error.fault? = none) :
    Reports check fun _ => False where
  passes := fun _ _ => id
  first := by
    intro error fault herror hfault
    rw [hnone error herror] at hfault
    cases hfault

/-- One check after another that looks for no earlier kind. -/
theorem bind {second : Unit → Checked} {hasSecond : Fault → Prop} (hfirst : Reports check has)
    (hsecond : Reports (second ()) hasSecond)
    (horder : ∀ fault, has fault → ∀ other, hasSecond other → ¬other < fault) :
    Reports (check >>= second) fun fault => has fault ∨ hasSecond fault where
  passes := by
    intro hpass fault hfault
    obtain ⟨hpassFirst, hpassSecond⟩ := Checked.bind_eq_ok_iff.mp hpass
    exact hfault.elim (hfirst.passes hpassFirst fault) (hsecond.passes hpassSecond fault)
  first := by
    intro error fault herror hkind
    rcases Checked.bind_eq_error_iff.mp herror with herror | ⟨hpass, herror⟩
    · obtain ⟨hfault, hbefore⟩ := hfirst.first error fault herror hkind
      refine ⟨.inl hfault, fun other hlt hother => ?_⟩
      exact hother.elim (hbefore other hlt) fun h => horder fault hfault other h hlt
    · obtain ⟨hfault, hbefore⟩ := hsecond.first error fault herror hkind
      refine ⟨.inr hfault, fun other hlt hother => ?_⟩
      exact hother.elim (hfirst.passes hpass other) (hbefore other hlt)

theorem congr {other : Fault → Prop} (h : Reports check has)
    (hiff : ∀ fault, has fault ↔ other fault) : Reports check other := by
  have heq : has = other := funext fun fault => propext (hiff fault)
  exact heq ▸ h

end Reports

theorem refuseIf_reports {wrong : Bool} {P : Prop} {error : ValidationError} {fault : Fault}
    (hwrong : wrong = true ↔ P) (hfault : error.fault? = some fault) :
    Reports (refuseIf wrong error) fun kind => kind = fault ∧ P := by
  refine .single ?_ ?_
  · rw [refuseIf_eq_ok_iff, ← hwrong, Bool.not_eq_true]
  · intro other herror
    cases wrong with
    | false => cases herror
    | true =>
        cases herror
        exact hfault

theorem refuseSome_reports {α : Type} {found : Option α} {P : Prop} {error : α → ValidationError}
    {fault : Fault} (hfound : found.isSome = true ↔ P)
    (hfault : ∀ a, (error a).fault? = some fault) :
    Reports (Site.refuseSome found error) fun kind => kind = fault ∧ P := by
  cases found with
  | none =>
      refine .single ?_ fun _ herror => by cases herror
      simpa [Site.refuseSome] using hfound
  | some a =>
      refine .single ?_ fun _ herror => by cases herror; exact hfault a
      simpa [Site.refuseSome] using hfound

theorem checkName_reports (name : String) :
    Reports (checkName name) fun kind => kind = .invalidName ∧ ¬IsName name :=
  refuseIf_reports (by rw [← isIdentifier_iff]; simp) rfl

theorem checkSpelling_reports (scope : String) (earlier : List String) (name : String) :
    Reports (checkSpelling scope earlier name) fun _ => False := by
  refine .silent fun error herror => ?_
  unfold checkSpelling at herror
  split at herror <;> cases herror
  rfl

theorem checkSpellings_reports (scope : String) (names : List String) : ∀ earlier,
    Reports (checkSpellings scope earlier names) fun _ => False := by
  induction names with
  | nil =>
      intro earlier
      exact .silent fun _ herror => by cases herror
  | cons name rest ih =>
      intro earlier
      refine ((checkSpelling_reports scope earlier name).bind (ih (earlier ++ [name])) ?_).congr ?_
      · exact fun _ h => h.elim
      · exact fun _ => or_self_iff

/-! ## Places that report their faults -/

theorem checkChildren_reports (att : Attribute) :
    Reports (Site.checkChildren att) fun kind => kind = .misplacedChildren ∧
      ¬(att.children ≠ [] ↔ att.dataType = .subAttributes) := by
  rw [Site.checkChildren, Attribute.isComplex]
  by_cases hcomplex : att.dataType = .subAttributes
  · rw [if_pos (beq_iff_eq.mpr hcomplex)]
    exact refuseIf_reports (by simp [hcomplex]) rfl
  · rw [if_neg (by simpa using hcomplex)]
    exact refuseIf_reports (by simp [hcomplex]) rfl

theorem root_reports (protocol : Protocol) :
    Reports (Site.root protocol).check (Site.root protocol).Has := by
  have hempty : Reports (refuseIf protocol.commands.isEmpty .noCommands) fun kind =>
      kind = .noCommands ∧ protocol.commands = [] :=
    refuseIf_reports List.isEmpty_iff rfl
  refine (hempty.bind (checkName_reports protocol.name) ?_).congr ?_
  · grind [Fault.lt_def, Fault.rank]
  · intro fault
    cases fault <;> simp [Site.Has]

theorem command_reports (protocol : String) (earlier : List Command) (cmd : Command) :
    Reports (Site.command protocol earlier cmd).check (Site.command protocol earlier cmd).Has := by
  have hdirection : Reports (refuseIf (cmd.direction == .unknown) (.unknownDirection cmd.name))
      fun kind => kind = .unknownWord ∧ cmd.direction = .unknown :=
    refuseIf_reports beq_iff_eq rfl
  have hnegative : Reports (refuseIf (decide (cmd.id < 0)) (.negativeId cmd.name cmd.id))
      fun kind => kind = .negativeId ∧ cmd.id < 0 :=
    refuseIf_reports decide_eq_true_iff rfl
  have hid : Reports (Site.refuseSome (earlier.find? (·.id == cmd.id)) fun first =>
      .duplicateCommandId cmd.id first.name cmd.name) fun kind =>
        kind = .repeatedCommand ∧ ∃ other ∈ earlier, other.id = cmd.id :=
    refuseSome_reports (by simp [List.find?_isSome]) fun _ => rfl
  have hname : Reports (refuseIf (earlier.any (·.name == cmd.name))
      (.duplicateCommandName cmd.name)) fun kind =>
        kind = .repeatedCommand ∧ ∃ other ∈ earlier, other.name = cmd.name :=
    refuseIf_reports (by simp) rfl
  have hspelling := checkSpelling_reports protocol (earlier.map (·.name)) cmd.name
  refine ((checkName_reports cmd.name).bind (hdirection.bind (hnegative.bind (hid.bind
    (hname.bind hspelling ?_) ?_) ?_) ?_) ?_).congr ?_
  case refine_6 =>
    intro fault
    cases fault <;> simp [Site.Has, exists_or, and_or_left]
  all_goals grind [Fault.lt_def, Fault.rank]

theorem field_reports (parent : String) (earlier : List Attribute) (att : Attribute) :
    Reports (Site.field parent earlier att).check (Site.field parent earlier att).Has := by
  have htype : Reports (refuseIf (att.dataType == .unknown) (.unknownDataType att.name))
      fun kind => kind = .unknownWord ∧ att.dataType = .unknown :=
    refuseIf_reports beq_iff_eq rfl
  have hnegative : Reports (refuseIf (decide (att.id < 0)) (.negativeId att.name att.id))
      fun kind => kind = .negativeId ∧ att.id < 0 :=
    refuseIf_reports decide_eq_true_iff rfl
  have hid : Reports (refuseIf (earlier.any (·.id == att.id)) (.duplicateAttributeId parent att.id))
      fun kind => kind = .repeatedAttribute ∧ ∃ other ∈ earlier, other.id = att.id :=
    refuseIf_reports (by simp) rfl
  have hname : Reports (refuseIf (earlier.any (·.name == att.name))
      (.duplicateAttributeName parent att.name)) fun kind =>
        kind = .repeatedAttribute ∧ ∃ other ∈ earlier, other.name = att.name :=
    refuseIf_reports (by simp) rfl
  have hspelling := checkSpelling_reports parent (earlier.map (·.name)) att.name
  refine ((checkName_reports att.name).bind (htype.bind (hnegative.bind (hid.bind
    (hname.bind (hspelling.bind (checkChildren_reports att) ?_) ?_) ?_) ?_) ?_) ?_).congr ?_
  case refine_7 =>
    intro fault
    cases fault <;> simp [Site.Has, exists_or, and_or_left]
  all_goals grind [Fault.lt_def, Fault.rank]

/-- Where the forest is shaped, the flat list holds every complex attribute. -/
theorem scopes_reports {protocol : Protocol} (h : Shaped protocol.attributes) :
    Reports (Site.scopes protocol).check (Site.scopes protocol).Has := by
  have hnames : complexNames (flatten protocol.commands) = protocol.complexNames :=
    complexNames_flatten h
  have hrepeated : Reports
      (Site.refuseSome (repeatedComplexName? protocol.commands) .duplicateComplexName)
      fun kind => kind = .repeatedComplexName ∧ ¬protocol.complexNames.Nodup := by
    refine refuseSome_reports ?_ fun _ => rfl
    rw [← hnames, ← repeatedComplexName?_eq_none_iff, Option.isSome_iff_ne_none]
  have hclash : Reports (Site.refuseSome (protocol.complexNames.find?
      ((protocol.commands.map (·.name)).contains ·)) .complexNameClash) fun kind =>
        kind = .complexNameClash ∧ ∃ cmd ∈ protocol.commands, cmd.name ∈ protocol.complexNames := by
    refine refuseSome_reports ?_ fun _ => rfl
    simp only [List.find?_isSome, List.contains_eq_mem, List.mem_map, decide_eq_true_eq]
    constructor
    · rintro ⟨_, hname, cmd, hcmd, rfl⟩
      exact ⟨cmd, hcmd, hname⟩
    · rintro ⟨cmd, hcmd, hname⟩
      exact ⟨cmd.name, hname, cmd, hcmd, rfl⟩
  have hspellings := checkSpellings_reports protocol.name protocol.complexNames
    (protocol.commands.map (·.name))
  rw [Site.check, hnames]
  refine (hrepeated.bind (hclash.bind hspellings ?_) ?_).congr ?_
  case refine_3 =>
    intro fault
    cases fault <;> simp [Site.Has]
  all_goals grind [Fault.lt_def, Fault.rank]

/-- The checks of every place that is reached report what is wrong there. -/
theorem reports_of_reached {protocol : Protocol} {before after : List Site} {site : Site}
    (hsites : protocol.sites = before ++ site :: after)
    (hpassed : ∀ passed ∈ before, passed.check = .ok ()) : Reports site.check site.Has := by
  cases site with
  | root owner => exact root_reports owner
  | command name earlier cmd => exact command_reports name earlier cmd
  | field parent earlier att => exact field_reports parent earlier att
  | scopes owner =>
      obtain ⟨rfl, rfl⟩ := before_scopes hsites
      -- all commands have passed, so the forest is shaped
      have hcommands : checkCommands owner.name [] owner.commands = .ok () := by
        rw [checkCommands_eq_forM, Checked.forM_eq_ok_iff]
        exact (List.forall_mem_cons.mp hpassed).2
      exact scopes_reports (shaped_of_sound (checkCommands_eq_ok_iff.mp hcommands).1)

/-- Nothing is wrong at places that are passed. -/
theorem not_has_of_passed {protocol : Protocol} {before after : List Site}
    (hsites : protocol.sites = before ++ after)
    (hpassed : ∀ passed ∈ before, passed.check = .ok ()) :
    ∀ passed ∈ before, ∀ fault, ¬passed.Has fault := by
  intro passed hmem
  obtain ⟨front, rest, rfl⟩ := List.append_of_mem hmem
  rw [List.append_assoc, List.cons_append] at hsites
  have hreports := reports_of_reached hsites fun site hsite =>
    hpassed site (List.mem_append_left _ hsite)
  exact hreports.passes (hpassed passed hmem)

/-- A protocol with names only is not refused for a name. -/
theorem validate_ne_invalidName {protocol : Protocol} (hname : IsName protocol.name)
    (hcommands : ∀ cmd ∈ protocol.commands, IsName cmd.name)
    (hattributes : ∀ att ∈ protocol.attributes, IsName att.name) (name : String) :
    validate protocol ≠ .error (.invalidName name) := by
  intro hrefused
  obtain ⟨before, site, after, hsites, hpassed, herror⟩ := validate_eq_error_iff.mp hrefused
  have hfault := ((reports_of_reached hsites hpassed).first _ .invalidName herror rfl).1
  have hmem : site ∈ protocol.sites := hsites ▸ List.mem_append_right _ List.mem_cons_self
  rcases of_mem_sites hmem with rfl | ⟨_, cmd, hcmd, rfl⟩ | ⟨_, _, att, hatt, rfl⟩ | rfl
  · exact hfault hname
  · exact hfault (hcommands cmd hcmd)
  · exact hfault (hattributes att hatt)
  · exact hfault

/-! ## The fault that is reported -/

/-- When validation refuses a protocol for a fault, nothing is wrong before some place, the
reported kind of fault occurs at that place, and no kind before it in the order does. -/
theorem validate_first_fault {protocol : Protocol} {error : ValidationError} {fault : Fault}
    (hrefused : validate protocol = .error error) (hfault : error.fault? = some fault) :
    ∃ before site after, protocol.sites = before ++ site :: after ∧
      (∀ passed ∈ before, ∀ kind, ¬passed.Has kind) ∧
      site.Has fault ∧ ∀ kind, kind < fault → ¬site.Has kind := by
  obtain ⟨before, site, after, hsites, hpassed, herror⟩ := validate_eq_error_iff.mp hrefused
  have hreports := reports_of_reached hsites hpassed
  exact ⟨before, site, after, hsites, not_has_of_passed hsites hpassed,
    hreports.first error fault herror hfault⟩

/-- The order of kinds decides in the whole protocol: no kind before the reported one occurs
anywhere. -/
def ReportedByKind (protocol : Protocol) : Prop :=
  ∀ error fault, validate protocol = .error error → error.fault? = some fault →
    protocol.Has fault ∧ ∀ kind, kind < fault → ¬protocol.Has kind

/-- A command with a nested attribute of no known type and with a negative identifier, before
a command whose name starts with a digit. -/
def relay : Protocol :=
  ⟨"Relay", 1,
    [⟨"Open", 1, .aToB,
        [⟨"mode", 1, false, .subAttributes, [⟨"level", -1, false, .unknown, [], ""⟩], ""⟩], ""⟩,
      ⟨"2nd", 2, .aToB, [], ""⟩]⟩

theorem validate_relay : validate relay = .error (.unknownDataType "level") := by
  decide

/-- Of the two faults of the nested attribute the first kind is reported. -/
theorem validate_first_fault_relay :
    validate relay = .error (.unknownDataType "level") ∧
      (ValidationError.unknownDataType "level").fault? = some .unknownWord ∧
      ∃ before site after, relay.sites = before ++ site :: after ∧
        (∀ passed ∈ before, ∀ kind, ¬passed.Has kind) ∧
        site.Has .unknownWord ∧ ∀ kind, kind < .unknownWord → ¬site.Has kind :=
  ⟨validate_relay, rfl, validate_first_fault validate_relay rfl⟩

/-- The name of the second command is a fault of an earlier kind, and is not reported. -/
theorem not_reportedByKind_relay :
    validate relay = .error (.unknownDataType "level") ∧ ¬ReportedByKind relay := by
  refine ⟨validate_relay, fun hkinds => ?_⟩
  have hsecond : Site.command "Relay" (relay.commands.take 1) ⟨"2nd", 2, .aToB, [], ""⟩ ∈
      relay.sites := by
    simp [Protocol.sites, Site.ofCommands, relay]
  have hname : ¬IsName "2nd" := by
    rw [← isIdentifier_iff]
    decide
  have hearlier : Fault.invalidName < .unknownWord := by
    rw [Fault.lt_def]
    decide
  exact (hkinds _ _ validate_relay rfl).2 .invalidName hearlier ⟨_, hsecond, hname⟩

end CommandSet
