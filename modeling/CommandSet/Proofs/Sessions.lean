import CommandSet.Session

/-!
# Whole sessions

A session goes through its steps one after the other.  A step that is refused changes nothing, so
it may be left out of a run; the code that a session reuses was recovered from some module under
the name it recovers with; and a module that has just been generated is generated again without a
change.

Main definitions:

- {lit}`Session.run`: steps one after the other.
- {lit}`Session.accepted`: the steps of a run that are not refused.
- {lit}`Session.Sound`: what holds between any two steps.

Main results:

- Theorem {lit}`Session.step_eq_refused_iff`: which steps are refused.
- Theorem {lit}`Session.run_accepted`: steps that are refused may be left out.
- Theorems {lit}`Session.Sound.step`, {lit}`Session.sound_run`: what a step and a run preserve.
- Theorem {lit}`Session.run_replicate`: generation is stable.
-/

namespace CommandSet

open Recovery (RecoveredCode)

namespace Session

/-! ## Steps that are refused -/

/-- Steps that generate something. -/
def Step.generates : Step → Bool
  | .generate | .regenerate | .header => true
  | _ => false

/-- Answers of steps that are refused. -/
def Answer.isRefused : Answer → Bool
  | .refused _ => true
  | _ => false

variable {session : Session}

theorem takeModule_eq_refused_iff {result : Except ValidationError String}
    {error : ValidationError} :
    (session.takeModule result).1 = .refused error ↔ result = .error error := by
  cases result with
  | error found => simp [takeModule]
  | ok source =>
      rw [takeModule]
      split <;> simp

theorem mainModule_eq_error_iff {code : Option RecoveredCode} {error : ValidationError} :
    session.mainModule code = .error error ↔ prepare session.protocol = .error error := by
  rw [mainModule]
  cases prepare session.protocol with
  | error found => constructor <;> (rintro ⟨⟩; rfl)
  | ok prepared => exact ⟨nofun, nofun⟩

/-- A step is refused if it generates something from a protocol that is refused. -/
theorem step_eq_refused_iff {s : Step} {error : ValidationError} :
    (session.step s).1 = .refused error ↔
      s.generates = true ∧ prepare session.protocol = .error error := by
  cases s with
  | generate => simp [step, takeModule_eq_refused_iff, mainModule_eq_error_iff, Step.generates]
  | regenerate => simp [step, takeModule_eq_refused_iff, mainModule_eq_error_iff, Step.generates]
  | header =>
      rw [step]
      cases prepare session.protocol <;> simp [Step.generates]
  | insert before text =>
      rw [step]
      split <;> simp [Step.generates]
  | _ => simp [step, Step.generates]

/-- A step that is refused leaves the session as it was. -/
theorem step_of_refused {s : Step} (h : (session.step s).1.isRefused = true) :
    (session.step s).2 = session := by
  obtain ⟨error, herror⟩ : ∃ error, (session.step s).1 = .refused error := by
    cases hanswer : (session.step s).1 <;> simp_all [Answer.isRefused]
  obtain ⟨hgenerates, hprepare⟩ := step_eq_refused_iff.mp herror
  have hmodule (code : Option RecoveredCode) : session.mainModule code = .error error :=
    mainModule_eq_error_iff.mpr hprepare
  cases s with
  | generate => rw [step, hmodule, takeModule]
  | regenerate => rw [step, hmodule, takeModule]
  | header => rw [step, hprepare]
  | _ => cases hgenerates

/-! ## Runs -/

/-- Steps one after the other: their answers, and the session behind them. -/
def run (session : Session) : List Step → List Answer × Session
  | [] => ([], session)
  | s :: steps =>
      let (answer, next) := session.step s
      let (answers, last) := next.run steps
      (answer :: answers, last)

/-- The steps of a run that are not refused. -/
def accepted (session : Session) : List Step → List Step
  | [] => []
  | s :: steps =>
      let (answer, next) := session.step s
      if answer.isRefused then next.accepted steps else s :: next.accepted steps

/-- Steps that are refused may be left out of a run: the others answer the same, and the session
behind them is the same. -/
theorem run_accepted (steps : List Step) (session : Session) :
    session.run (session.accepted steps) =
      ((session.run steps).1.filter (!·.isRefused), (session.run steps).2) := by
  induction steps generalizing session with
  | nil => rfl
  | cons s steps ih =>
      cases hrefused : (session.step s).1.isRefused with
      | true =>
          have hsame := step_of_refused hrefused
          simp [accepted, run, hrefused, hsame, ih]
      | false => simp [accepted, run, hrefused, ih]

/-! ## What is recovered -/

/-- The name that a session recovers with behind a step, given the one in front. -/
def recoveringName (name : String) : Step → String
  | .schema protocol => protocol.name
  | _ => name

/-- A session recovers with a name, and the code it reuses was recovered with that name from some
module. -/
structure Sound (name : String) (session : Session) : Prop where
  recovers : session.recoverer.protocol = name
  code : ∀ code ∈ session.recoverer.code, ∃ commands source,
    Recovery.recover name commands source = .ok code

theorem sound_start (protocol : Protocol) (role : Role) :
    (start protocol role).Sound protocol.name :=
  ⟨rfl, nofun⟩

/-- A change that leaves the recoverer alone keeps a session sound. -/
theorem Sound.of_recoverer {name : String} {next : Session} (h : session.Sound name)
    (hsame : next.recoverer = session.recoverer) : next.Sound name :=
  ⟨hsame ▸ h.recovers, hsame ▸ h.code⟩

theorem recoverer_takeModule (session : Session) (result : Except ValidationError String) :
    (session.takeModule result).2.recoverer = session.recoverer := by
  cases result with
  | error error => rfl
  | ok source =>
      rw [takeModule]
      split <;> rfl

/-- What is recovered was recovered from the module as it stands. -/
theorem Sound.recover {name : String} (h : session.Sound name) :
    (session.step .recover).2.Sound name := by
  refine ⟨h.recovers, fun code hcode => ?_⟩
  refine ⟨session.protocol.commands.map (·.name), session.source, ?_⟩
  rw [← h.recovers]
  change (Recovery.recover _ _ _).toOption = some code at hcode
  cases hresult : Recovery.recover session.recoverer.protocol
      (session.protocol.commands.map (·.name)) session.source with
  | error error =>
      rw [hresult] at hcode
      cases hcode
  | ok found =>
      rw [hresult] at hcode
      exact congrArg Except.ok (Option.some.inj hcode)

/-- A step keeps a session sound. -/
theorem Sound.step {name : String} (h : session.Sound name) (s : Step) :
    (session.step s).2.Sound (recoveringName name s) := by
  cases s with
  | schema protocol => exact ⟨rfl, nofun⟩
  | recover => exact h.recover
  | generate => exact h.of_recoverer (recoverer_takeModule session _)
  | regenerate => exact h.of_recoverer (recoverer_takeModule session _)
  | insert before text =>
      refine h.of_recoverer ?_
      rw [Session.step]
      split <;> rfl
  | header =>
      refine h.of_recoverer ?_
      rw [Session.step]
      split <;> rfl
  | _ => exact h.of_recoverer rfl

theorem Sound.run {name : String} (steps : List Step) (h : session.Sound name) :
    (session.run steps).2.Sound (steps.foldl recoveringName name) := by
  induction steps generalizing session name with
  | nil => exact h
  | cons s steps ih => exact ih (h.step s)

/-- Whatever the steps were, the code that a session reuses was recovered under the name of the
last schema. -/
theorem sound_run (protocol : Protocol) (role : Role) (steps : List Step) :
    ((start protocol role).run steps).2.Sound (steps.foldl recoveringName protocol.name) :=
  (sound_start protocol role).run steps

/-! ## Generation -/

/-- What is generated depends on neither the module that is there nor its own result. -/
theorem mainModule_takeModule (result : Except ValidationError String)
    (code : Option RecoveredCode) :
    (session.takeModule result).2.mainModule code = session.mainModule code := by
  cases result with
  | error error => rfl
  | ok source =>
      rw [takeModule]
      split <;> rfl

theorem source_takeModule (session : Session) (source : String) :
    (session.takeModule (.ok source)).2.source = source := by
  rw [takeModule]
  split
  next heq => exact (beq_iff_eq.mp heq).symm
  next => rfl

/-- A module that has been taken over is what is generated the next time. -/
theorem takeModule_takeModule {result : Except ValidationError String}
    (haccepted : (session.takeModule result).1.isRefused = false) :
    (session.takeModule result).2.takeModule result =
      (.unchanged, (session.takeModule result).2) := by
  cases result with
  | error error => cases haccepted
  | ok source => rw [takeModule, source_takeModule, beq_self_eq_true, if_pos rfl]

/-- So it is with the main module of a session. -/
theorem takeModule_mainModule {code : Option RecoveredCode}
    (haccepted : (session.takeModule (session.mainModule code)).1.isRefused = false) :
    (session.takeModule (session.mainModule code)).2.takeModule
        ((session.takeModule (session.mainModule code)).2.mainModule code) =
      (.unchanged, (session.takeModule (session.mainModule code)).2) := by
  rw [mainModule_takeModule]
  exact takeModule_takeModule haccepted

/-- A module that is generated, or generated again with what was recovered, does not change when
the step is repeated. -/
theorem step_step {s : Step} (hs : s = .generate ∨ s = .regenerate)
    (haccepted : (session.step s).1.isRefused = false) :
    (session.step s).2.step s = (.unchanged, (session.step s).2) := by
  rcases hs with rfl | rfl
  · exact takeModule_mainModule haccepted
  · have hcode : (session.step .regenerate).2.recoverer.code = session.recoverer.code :=
      congrArg (·.code) (recoverer_takeModule session _)
    rw [Session.step, hcode]
    exact takeModule_mainModule haccepted

/-- However often it is. -/
theorem run_replicate {s : Step} (hs : s = .generate ∨ s = .regenerate)
    (haccepted : (session.step s).1.isRefused = false) (n : Nat) :
    (session.step s).2.run (List.replicate n s) =
      (List.replicate n .unchanged, (session.step s).2) := by
  induction n with
  | zero => rfl
  | succ n ih =>
      rw [List.replicate_succ, List.replicate_succ, run, step_step hs haccepted]
      simp only [ih]

end Session
end CommandSet
