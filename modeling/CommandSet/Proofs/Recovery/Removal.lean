import CommandSet.Proofs.Recovery.Fresh

/-!
# Commands that are removed

When commands are removed from a protocol, a fresh module of the old protocol is read with
the names of the commands that remain.  The handler of a removed command belongs to no
command any more, unless its name still holds the name of a handler that remains.

Main definitions:

- {lit}`NamesNone`: handlers that name no handler of certain commands.
- {lit}`NamesBest`: handlers that name a command and none with a longer name.
- {lit}`takenFor?`: the command whose handler a handler is taken for.

Main results:

- Theorem {lit}`unknown_freshCode_eq`: the handlers that are kept as they are.
- Theorem {lit}`handler?_eq_find?`: the handlers that are found under a name.
- Theorem {lit}`handler?_freshCode`: the handlers that are found under their commands.
- Theorem {lit}`recover_after_removal`: a fresh module is read without some commands.
- Theorem {lit}`not_kept_valve`: the handler of a removed command that names another is lost.
-/

namespace CommandSet
namespace Recovery

open Firmware

section Removal

variable {protocol : Protocol} {role : Role} {remaining : List Command}

/-- The handler of a command names no handler of the commands. -/
def NamesNone (protocol : String) (commands : List Command) (cmd : Command) : Prop :=
  ∀ other ∈ commands, ¬(handlerName protocol other.name).toList <:+:
    (handlerName protocol cmd.name).toList

/-- The handler of a command names another command and none of the commands with a longer
name. -/
def NamesBest (protocol : String) (commands : List Command) (cmd other : Command) : Prop :=
  (handlerName protocol other.name).toList <:+: (handlerName protocol cmd.name).toList ∧
    ∀ longer ∈ commands, other.name.utf8ByteSize < longer.name.utf8ByteSize →
      ¬(handlerName protocol longer.name).toList <:+: (handlerName protocol cmd.name).toList

instance (protocol : String) (commands : List Command) (cmd : Command) :
    Decidable (NamesNone protocol commands cmd) :=
  inferInstanceAs (Decidable (∀ other ∈ commands, _))

/-- Among some commands, the one whose handler that of a command is taken for: of all that it
names the one with the longest name, the first if there are several. -/
def takenFor? (protocol : String) (commands : List String) (command : String) : Option String :=
  (commands.filter fun other =>
    (handlerName protocol other).toList <:+: (handlerName protocol command).toList).argmax
      String.utf8ByteSize

theorem handledCommand?_eq_takenFor? (protocol : String) (commands : List String)
    (command : String) : handledCommand? protocol commands (handlerName protocol command).toList =
      takenFor? protocol commands command := by
  rw [handledCommand?, find?_longestFirst, takenFor?]
  refine congrArg _ (List.filter_congr fun other _ => ?_)
  rw [Bool.eq_iff_iff, Text.occursIn_iff, decide_eq_true_iff]
  rfl

theorem handledCommand?_eq_none_iff {protocol : String} {cmd : Command} :
    handledCommand? protocol (remaining.map (·.name)) (handlerName protocol cmd.name).toList =
      none ↔ NamesNone protocol remaining cmd := by
  simp only [handledCommand?, List.find?_eq_none, mem_longestFirst, List.forall_mem_map,
    Text.occursIn_iff]
  rfl

/-- The handler of a command names best the one that it is taken for. -/
theorem namesBest_of_handledCommand? {protocol : String} {cmd other : Command}
    (h : handledCommand? protocol (remaining.map (·.name)) (handlerName protocol cmd.name).toList =
      some other.name) :
    NamesBest protocol remaining cmd other := by
  obtain ⟨-, hnamed, hlongest⟩ := handledCommand?_longest h
  refine ⟨hnamed, fun longer hlonger hlt hmatch => ?_⟩
  have hle := hlongest longer.name (List.mem_map_of_mem hlonger) hmatch
  omega

/-- A handler that names commands is taken for that of one which it names best. -/
theorem exists_takenFor {protocol : String} {cmd : Command}
    (h : ¬NamesNone protocol remaining cmd) : ∃ other ∈ remaining,
      takenFor? protocol (remaining.map (·.name)) cmd.name = some other.name ∧
        NamesBest protocol remaining cmd other := by
  rw [← handledCommand?_eq_none_iff] at h
  obtain ⟨name, hname⟩ := Option.ne_none_iff_exists'.mp h
  obtain ⟨other, hother, rfl⟩ := List.mem_map.mp (handledCommand?_longest hname).1
  refine ⟨other, hother, ?_, namesBest_of_handledCommand? hname⟩
  rw [← handledCommand?_eq_takenFor?, hname]

/-- The owner of a fresh handler with a name of its own, among the commands that remain. -/
theorem ownerOf_freshHandler_remaining (hwell : WellFormed protocol)
    (hremaining : remaining.Sublist protocol.commands) {cmd : Command}
    (hown : OwnHandler protocol.name cmd.name) :
    ownerOf protocol.name (remaining.map (·.name)) (freshHandler protocol.name cmd).signature =
      match handledCommand? protocol.name (remaining.map (·.name))
          (handlerName protocol.name cmd.name).toList with
      | some other => .handler other
      | none => .nobody := by
  have hsubset : remaining.map (·.name) ⊆ commandNames protocol := (hremaining.map _).subset
  exact (ownerOf_freshHandler hwell hsubset cmd).trans (ownerOf_handlerName _ hown)

/-- A handler that names none of the commands that remain is kept as it is. -/
theorem remainder_freshHandler (hwell : WellFormed protocol)
    (hremaining : remaining.Sublist protocol.commands) {cmd : Command}
    (hown : OwnHandler protocol.name cmd.name) :
    remainder protocol.name (remaining.map (·.name)) (freshHandler protocol.name cmd) =
      if NamesNone protocol.name remaining cmd then
        [(Handler.docOf protocol.name cmd).lines ++ Handler.stub protocol.name cmd]
      else [] := by
  have howner := ownerOf_freshHandler_remaining hwell hremaining hown
  have hleading : (freshHandler protocol.name cmd).leading = [] := rfl
  cases hhandled : handledCommand? protocol.name (remaining.map (·.name))
      (handlerName protocol.name cmd.name).toList with
  | none =>
      rw [if_pos (handledCommand?_eq_none_iff.mp hhandled)]
      rw [hhandled] at howner
      simp only [remainder, howner, freshHandler_text]
  | some other =>
      have hnot : ¬NamesNone protocol.name remaining cmd := by
        rw [← handledCommand?_eq_none_iff, hhandled]
        exact Option.some_ne_none other
      rw [if_neg hnot]
      rw [hhandled] at howner
      simp [remainder, howner, hleading]

/-- The handlers that name none of the commands that remain are kept, in their order. -/
theorem unknown_freshCode_eq (hwell : WellFormed protocol)
    (hremaining : remaining.Sublist protocol.commands)
    (hown : ∀ cmd ∈ protocol.received role, OwnHandler protocol.name cmd.name) :
    (freshCode protocol role (remaining.map (·.name)) (freshHandlers protocol role)).unknown =
      ((protocol.received role).filter (NamesNone protocol.name remaining)).map fun cmd =>
        (Handler.docOf protocol.name cmd).lines ++ Handler.stub protocol.name cmd := by
  change List.flatMap _ (freshHandlers protocol role) = _
  rw [freshHandlers, List.flatMap_map]
  generalize protocol.received role = received at hown
  induction received with
  | nil => rfl
  | cons cmd received ih =>
      rw [List.forall_mem_cons] at hown
      rw [List.flatMap_cons, ih hown.2, remainder_freshHandler hwell hremaining hown.1]
      split
      next hnone => rw [List.filter_cons_of_pos (by simpa using hnone), List.map_cons]; rfl
      next hsome => rw [List.filter_cons_of_neg (by simpa using hsome)]; rfl

/-- What is found for a fresh handler: the command that it is taken for. -/
theorem ownedHandler?_eq_map (hwell : WellFormed protocol)
    (hremaining : remaining.Sublist protocol.commands) {cmd : Command}
    (hown : OwnHandler protocol.name cmd.name) :
    ownedHandler? protocol.name (remaining.map (·.name)) (freshHandler protocol.name cmd) =
      (takenFor? protocol.name (remaining.map (·.name)) cmd.name).map fun name =>
        (name, Handler.stub protocol.name cmd) := by
  have howner := ownerOf_freshHandler_remaining hwell hremaining hown
  rw [handledCommand?_eq_takenFor?] at howner
  cases htaken : takenFor? protocol.name (remaining.map (·.name)) cmd.name with
  | some name =>
      rw [htaken] at howner
      exact ownedHandler?_eq_some_iff.mpr ⟨howner, freshHandler_body _ _⟩
  | none =>
      rw [htaken] at howner
      rw [Option.map_none, Option.eq_none_iff_forall_ne_some]
      intro entry hentry
      rw [ownedHandler?_eq_some_iff, howner] at hentry
      cases hentry.1

/-- Under a name the first handler is found that is taken for the handler of its command. -/
theorem handler?_eq_find? (hwell : WellFormed protocol)
    (hremaining : remaining.Sublist protocol.commands)
    (hown : ∀ cmd ∈ protocol.received role, OwnHandler protocol.name cmd.name) (name : String) :
    (freshCode protocol role (remaining.map (·.name)) (freshHandlers protocol role)).handler?
        name =
      ((protocol.received role).find? fun cmd =>
        takenFor? protocol.name (remaining.map (·.name)) cmd.name = some name).map
          (Handler.stub protocol.name) := by
  change (firstOfEach _).lookup name = _
  rw [lookup_firstOfEach, freshHandlers]
  generalize protocol.received role = received at hown
  induction received with
  | nil => rfl
  | cons cmd received ih =>
      rw [List.forall_mem_cons] at hown
      have hcmd := ownedHandler?_eq_map hwell hremaining hown.1
      rw [List.map_cons, List.filterMap_cons, hcmd, List.find?_cons]
      cases takenFor? protocol.name (remaining.map (·.name)) cmd.name with
      | none => exact ih hown.2
      | some found =>
          rw [Option.map_some, List.lookup_cons]
          by_cases hname : found = name
          · simp [hname]
          · have hne : (name == found) = false := beq_eq_false_iff_ne.mpr (Ne.symm hname)
            simpa [hname, hne] using ih hown.2

/-- The handler of a command that remains is taken for its own. -/
theorem takenFor?_self (hwell : WellFormed protocol)
    (hremaining : remaining.Sublist protocol.commands) {cmd : Command} (hcmd : cmd ∈ remaining) :
    takenFor? protocol.name (remaining.map (·.name)) cmd.name = some cmd.name := by
  have hnames : ∀ command ∈ remaining.map (·.name), IsName command :=
    fun command hcommand => isName_commandNames hwell command ((hremaining.map _).subset hcommand)
  rw [← handledCommand?_eq_takenFor?,
    handledCommand?_handlerName hnames (List.mem_map_of_mem hcmd)]

/-- The handler of a command that remains is found under its name, if no handler of a removed
command in front of it names it best. -/
theorem handler?_freshCode (hwell : WellFormed protocol)
    (hremaining : remaining.Sublist protocol.commands)
    (hown : ∀ cmd ∈ protocol.received role, OwnHandler protocol.name cmd.name)
    {front back : List Command} {cmd : Command}
    (hsplit : protocol.received role = front ++ cmd :: back) (hcmd : cmd ∈ remaining)
    (hfront : ∀ other ∈ front, other ∉ remaining → ¬NamesBest protocol.name remaining other cmd) :
    (freshCode protocol role (remaining.map (·.name)) (freshHandlers protocol role)).handler?
        cmd.name =
      some (Handler.stub protocol.name cmd) := by
  have hnodup := @nodup_received _ role hwell
  rw [hsplit, List.map_append, List.map_cons, List.nodup_append] at hnodup
  have hother : ∀ other ∈ front,
      takenFor? protocol.name (remaining.map (·.name)) other.name ≠ some cmd.name := by
    intro other hother htaken
    by_cases hremain : other ∈ remaining
    · rw [takenFor?_self hwell hremaining hremain, Option.some_inj] at htaken
      exact hnodup.2.2 other.name (List.mem_map_of_mem hother) cmd.name List.mem_cons_self htaken
    · rw [← handledCommand?_eq_takenFor?] at htaken
      exact hfront other hother hremain (namesBest_of_handledCommand? htaken)
  have hnone : front.find? (fun other =>
      takenFor? protocol.name (remaining.map (·.name)) other.name = some cmd.name) = none :=
    List.find?_eq_none.mpr fun other hmem => by simpa using hother other hmem
  rw [handler?_eq_find? hwell hremaining hown, hsplit, List.find?_append, hnone, Option.none_or,
    List.find?_cons_of_pos (by simp [takenFor?_self hwell hremaining hcmd]), Option.map_some]

end Removal

/-- A fresh module is read without some of its commands.  A command that remains has its own
handler, unless that of a removed command in front of it names it best.  The handlers that are
kept without a command are those that name no command that remains; every other handler is taken
for that of a command it names best, and under the name of a command the first handler is found
that is taken for its handler. -/
theorem recover_after_removal {protocol : Protocol} {prepared : Prepared} {role : Role}
    {remaining : List Command} (hprepare : prepare protocol = .ok prepared)
    (hremaining : remaining.Sublist protocol.commands)
    (hdescriptions : ∀ cmd ∈ protocol.received role, Showable cmd.description)
    (hown : ∀ cmd ∈ protocol.received role, OwnHandler protocol.name cmd.name) :
    ∃ code, recover protocol.name (commandNames { protocol with commands := remaining })
        (MainModule.build prepared role none).text = .ok code ∧
      (∀ front cmd back, protocol.received role = front ++ cmd :: back → cmd ∈ remaining →
        (∀ other ∈ front, other ∉ remaining → ¬NamesBest protocol.name remaining other cmd) →
        code.handler? cmd.name = some (Handler.stub protocol.name cmd)) ∧
      (∀ cmd ∈ protocol.received role, ¬NamesNone protocol.name remaining cmd →
        ∃ other ∈ remaining,
          takenFor? protocol.name (remaining.map (·.name)) cmd.name = some other.name ∧
            NamesBest protocol.name remaining cmd other) ∧
      (∀ name, code.handler? name = ((protocol.received role).find? fun cmd =>
        takenFor? protocol.name (remaining.map (·.name)) cmd.name = some name).map
          (Handler.stub protocol.name)) ∧
      code.unknown = ((protocol.received role).filter (NamesNone protocol.name remaining)).map
        fun cmd => (Handler.docOf protocol.name cmd).lines ++ Handler.stub protocol.name cmd := by
  obtain ⟨rfl, hwell⟩ := wellFormed_of_prepare hprepare
  have hrecover := @recover_build_none (Prepared.ofProtocol protocol) _ hwell hdescriptions
    (remaining.map (·.name))
  refine ⟨_, hrecover, fun front cmd back hsplit hcmd hfront => ?_,
    fun cmd _ hnamed => exists_takenFor hnamed, handler?_eq_find? hwell hremaining hown,
    unknown_freshCode_eq hwell hremaining hown⟩
  exact handler?_freshCode hwell hremaining hown hsplit hcmd hfront

/-! ## A valve without some of its commands -/

private def valveOpen : Command :=
  ⟨"Open", 1, .aToB, [], "by hand"⟩

private def valveOpenAll : Command :=
  ⟨"OpenAll", 2, .aToB, [], ""⟩

private def valveClose : Command :=
  ⟨"Close", 3, .bidirectional, [], ""⟩

/-- Two commands, the name of one of which starts that of the other, below a third one. -/
private def openingValve : Protocol :=
  ⟨"Valve", 3, [valveClose, valveOpen, valveOpenAll]⟩

private theorem namesNone_valve :
    ([valveClose, valveOpen, valveOpenAll].filter (NamesNone "Valve" [valveOpen])) =
      [valveClose] := by
  have hopen : ¬NamesNone "Valve" [valveOpen] valveOpen := by decide
  have hall : ¬NamesNone "Valve" [valveOpen] valveOpenAll := by decide
  have hclose : NamesNone "Valve" [valveOpen] valveClose := by decide
  simp [hopen, hall, hclose]

/-- Of three commands one remains with its handler, and of the two others the handler of one
is kept and that of the other is taken for the one that remains. -/
theorem recover_after_removal_valve :
    ∃ code, recover "Valve" ["Open"]
        (MainModule.build (Prepared.ofProtocol openingValve) .b none).text = .ok code ∧
      code.handler? "Open" = some (Handler.stub "Valve" valveOpen) ∧
      takenFor? "Valve" ["Open"] "OpenAll" = some "Open" ∧
      code.unknown =
        [(Handler.docOf "Valve" valveClose).lines ++ Handler.stub "Valve" valveClose] := by
  have hremaining : [valveOpen].Sublist openingValve.commands :=
    (List.Sublist.cons_cons _ (List.nil_sublist _)).cons _
  obtain ⟨code, hrecover, hhandlers, htaken, -, hunknown⟩ := @recover_after_removal _ _ .b _
    (rfl : prepare openingValve = _) hremaining (by decide) (by decide)
  refine ⟨code, hrecover, ?_, ?_, ?_⟩
  · have hclose : ¬NamesBest "Valve" [valveOpen] valveClose valveOpen := fun h =>
      absurd h.1 (by decide)
    refine hhandlers [valveClose] valveOpen [valveOpenAll] rfl List.mem_cons_self
      fun other hother _ => ?_
    rw [List.mem_singleton.mp hother]
    exact hclose
  · have hreceived : valveOpenAll ∈ [valveClose, valveOpen, valveOpenAll] :=
      List.mem_cons_of_mem _ (List.mem_cons_of_mem _ List.mem_cons_self)
    obtain ⟨other, hother, hname, -⟩ := htaken valveOpenAll hreceived (by decide)
    obtain rfl := List.mem_singleton.mp hother
    exact hname
  · have hreceived : openingValve.received .b = [valveClose, valveOpen, valveOpenAll] := rfl
    have hname : openingValve.name = "Valve" := rfl
    rw [hreceived, hname, namesNone_valve] at hunknown
    exact hunknown

private def valvePair : Protocol :=
  ⟨"Valve", 3, [valveOpenAll, valveOpen]⟩

/-- The handler of a removed command whose name holds that of a command that remains is taken
for the handler of that command, in the place of its own, and is not kept. -/
theorem not_kept_valve :
    ∃ code, recover "Valve" ["Open"]
        (MainModule.build (Prepared.ofProtocol valvePair) .b none).text = .ok code ∧
      code.handler? "Open" ≠ some (Handler.stub "Valve" valveOpen) ∧
      (Handler.docOf "Valve" valveOpenAll).lines ++ Handler.stub "Valve" valveOpenAll ∉
        code.unknown := by
  have hwell : WellFormed valvePair := (wellFormed_of_prepare (rfl : prepare valvePair = _)).2
  have hremaining : [valveOpen].Sublist valvePair.commands :=
    (List.Sublist.cons_cons _ (List.nil_sublist _)).cons _
  have hrecover := @recover_build_none (Prepared.ofProtocol valvePair) .b hwell (by decide) ["Open"]
  refine ⟨freshCode valvePair .b ["Open"] (freshHandlers valvePair .b), hrecover, ?_, ?_⟩
  · have howner := @ownerOf_freshHandler_remaining _ _ hwell hremaining valveOpenAll (by decide)
    have hentry : ownedHandler? "Valve" ["Open"] (freshHandler "Valve" valveOpenAll) =
        some ("Open", Handler.stub "Valve" valveOpenAll) :=
      ownedHandler?_eq_some_iff.mpr ⟨howner, freshHandler_body _ _⟩
    have hfirst : (freshCode valvePair .b ["Open"] (freshHandlers valvePair .b)).handler? "Open" =
        some (Handler.stub "Valve" valveOpenAll) := by
      change (firstOfEach _).lookup "Open" = _
      rw [lookup_firstOfEach]
      exact congrArg (List.lookup "Open") (List.filterMap_cons_some hentry)
    rw [hfirst]
    decide
  · have hunknown := @unknown_freshCode_eq valvePair .b _ hwell hremaining (by decide)
    have hreceived : valvePair.received .b = [valveOpenAll, valveOpen] := rfl
    have hnames : ["Open"] = [valveOpen].map (·.name) := rfl
    have hopen : ¬NamesNone valvePair.name [valveOpen] valveOpen := by decide
    have hall : ¬NamesNone valvePair.name [valveOpen] valveOpenAll := by decide
    rw [hnames, hunknown, hreceived]
    simp [hopen, hall]

end Recovery
end CommandSet
