import CommandSet.CommandLine
import Mathlib.Data.List.Perm.Basic

/-!
# The order of arguments

The arguments of the program are groups: a flag, a flag with its value, or the schema.
Options are taken out one kind after the other, each at its first flag, wherever it
stands.  Taking one out leaves the groups of the others whole and in their order, as long
as no value is a flag itself, so the same groups ask for the same thing in every order.

Main definitions:

- {lit}`Request`, {lit}`Request.groups`: what may be asked for, and the groups that ask
  for it.
- {lit}`Request.Plain`: no value of a request is taken for a flag.

Main results:

- Theorem {lit}`takeValue_arranged`, {lit}`takeFlag_arranged`: taking an option out leaves
  an arrangement of the other groups.
- Theorem {lit}`parseArgs_arranged`: every arrangement of a request is understood.
-/

namespace CommandSet
namespace CommandLine

/-! ## Requests -/

/-- A flag and its value, if there are any. -/
def valueGroups (item : Option (String × String)) : List (List String) :=
  item.toList.map fun pair => [pair.1, pair.2]

/-- A flag that stands alone, if it is there. -/
def flagGroups (flag : String) (present : Bool) : List (List String) :=
  if present then [[flag]] else []

/-- The two spellings of the flag for the output directory. -/
inductive OutFlag where
  | short
  | long
deriving Repr, DecidableEq

def OutFlag.word : OutFlag → String
  | short => "-o"
  | long => "--out"

theorem OutFlag.word_mem (flag : OutFlag) : flag.word ∈ ["-o", "--out"] := by
  cases flag <;> decide

/-- What may be asked for: each option at most once, and one schema. -/
structure Request where
  out : Option (OutFlag × String)
  typed : Bool
  importA : Option String
  importB : Option String
  check : Bool
  schema : String

namespace Request

/-- The groups of arguments that make up a request. -/
def groups (request : Request) : List (List String) :=
  valueGroups (request.out.map fun (flag, dir) => (flag.word, dir)) ++
    (flagGroups "--rust" request.typed ++
      (valueGroups (request.importA.map ("--import-a", ·)) ++
        (valueGroups (request.importB.map ("--import-b", ·)) ++
          (flagGroups "--check" request.check ++ [[request.schema]]))))

/-- The values of a request, its schema among them. -/
def values (request : Request) : List String :=
  (request.out.map Prod.snd).toList ++ request.importA.toList ++ request.importB.toList ++
    [request.schema]

/-- What a request asks for; {lit}`outDir` is where artifacts go by default. -/
def settings (outDir : String) (request : Request) : Settings :=
  ⟨request.schema,
    ⟨(request.out.map Prod.snd).getD outDir, request.importA, request.importB, request.typed⟩,
    request.check⟩

end Request

/-- All flags of the program. -/
def flags : List String :=
  ["-o", "--out", "--rust", "--import-a", "--import-b", "--check"]

/-- No value of a request is a flag, and its schema does not look like an option. -/
structure Request.Plain (request : Request) : Prop where
  values : ∀ value ∈ request.values, value ∉ flags
  schema : ¬['-'] <+: request.schema.toList

/-! ## Taking options out -/

/-- None of the arguments is one of the flags. -/
def Lacks (wanted : List String) (args : List String) : Prop :=
  ∀ arg ∈ args, arg ∉ wanted

theorem takeValue_of_lacks {wanted args : List String} (h : Lacks wanted args) :
    takeValue wanted args = .ok (none, args) := by
  induction args with
  | nil => rfl
  | cons arg rest ih =>
      obtain ⟨harg, hrest⟩ := List.forall_mem_cons.mp h
      simp [takeValue, harg, ih hrest, bind, Except.bind, pure, Except.pure]

/-- The first of the flags is taken out with the argument behind it. -/
theorem takeValue_append {wanted before after : List String} {flag value : String}
    (hbefore : Lacks wanted before) (hflag : flag ∈ wanted) :
    takeValue wanted (before ++ flag :: value :: after) = .ok (some value, before ++ after) := by
  induction before with
  | nil => simp [takeValue, hflag]
  | cons arg rest ih =>
      obtain ⟨harg, hrest⟩ := List.forall_mem_cons.mp hbefore
      simp [takeValue, harg, ih hrest, bind, Except.bind, pure, Except.pure]

theorem takeFlag_of_lacks {flag : String} {args : List String} (h : Lacks [flag] args) :
    takeFlag flag args = (false, args) := by
  induction args with
  | nil => rfl
  | cons arg rest ih =>
      obtain ⟨harg, hrest⟩ := List.forall_mem_cons.mp h
      have hne : arg ≠ flag := List.mem_singleton.not.mp harg
      simp [takeFlag, hne, ih hrest]

theorem takeFlag_append {flag : String} {before after : List String} (h : Lacks [flag] before) :
    takeFlag flag (before ++ flag :: after) = (true, before ++ after) := by
  induction before with
  | nil => simp [takeFlag]
  | cons arg rest ih =>
      obtain ⟨harg, hrest⟩ := List.forall_mem_cons.mp h
      have hne : arg ≠ flag := List.mem_singleton.not.mp harg
      simp [takeFlag, hne, ih hrest]

/-! ## Arrangements -/

variable {groups rest : List (List String)}

theorem Lacks.of_perm {wanted : List String} (h : Lacks wanted rest.flatten)
    (hperm : groups.Perm rest) : Lacks wanted groups.flatten :=
  fun arg harg => h arg (hperm.flatten.mem_iff.mp harg)

/-- The arguments of an arrangement are those of one group between others.  Where the other
groups hold no flag that is looked for, none stands before that group. -/
theorem exists_split_of_perm {wanted group : List String} (h : groups.Perm (group :: rest))
    (hrest : Lacks wanted rest.flatten) :
    ∃ before after, ∃ others : List (List String), groups.flatten = before ++ (group ++ after) ∧
      Lacks wanted before ∧ others.Perm rest ∧ others.flatten = before ++ after := by
  obtain ⟨front, back, rfl⟩ := List.append_of_mem (h.mem_iff.mpr List.mem_cons_self)
  have hothers : (front ++ back).Perm rest := (List.perm_middle.symm.trans h).cons_inv
  have hlacks : Lacks wanted (front ++ back).flatten := hrest.of_perm hothers
  rw [List.flatten_append] at hlacks
  refine ⟨front.flatten, back.flatten, front ++ back, ?_, ?_, hothers, List.flatten_append⟩
  · rw [List.flatten_append, List.flatten_cons]
  · exact fun arg harg => hlacks arg (List.mem_append_left _ harg)

/-- Taking an option with its value out leaves an arrangement of the other groups. -/
theorem takeValue_arranged (wanted : List String) {item : Option (String × String)}
    (harranged : groups.Perm (valueGroups item ++ rest)) (hitem : ∀ pair ∈ item, pair.1 ∈ wanted)
    (hrest : Lacks wanted rest.flatten) :
    ∃ others : List (List String), others.Perm rest ∧
      takeValue wanted groups.flatten = .ok (item.map Prod.snd, others.flatten) := by
  cases item with
  | none => exact ⟨groups, harranged, takeValue_of_lacks (hrest.of_perm harranged)⟩
  | some pair =>
      obtain ⟨before, after, others, hsplit, hbefore, hothers, hleft⟩ :=
        exists_split_of_perm harranged hrest
      refine ⟨others, hothers, ?_⟩
      rw [hsplit, hleft]
      exact takeValue_append hbefore (hitem pair rfl)

/-- Taking a flag out leaves an arrangement of the other groups. -/
theorem takeFlag_arranged {flag : String} {present : Bool}
    (harranged : groups.Perm (flagGroups flag present ++ rest))
    (hrest : Lacks [flag] rest.flatten) :
    ∃ others : List (List String), others.Perm rest ∧
      takeFlag flag groups.flatten = (present, others.flatten) := by
  cases present with
  | false => exact ⟨groups, harranged, takeFlag_of_lacks (hrest.of_perm harranged)⟩
  | true =>
      obtain ⟨before, after, others, hsplit, hbefore, hothers, hleft⟩ :=
        exists_split_of_perm harranged hrest
      refine ⟨others, hothers, ?_⟩
      rw [hsplit, hleft]
      exact takeFlag_append hbefore

/-! ## Whole requests -/

theorem lacks_valueGroups {wanted : List String} {item : Option (String × String)}
    (hflag : ∀ pair ∈ item, pair.1 ∉ wanted) (hvalue : ∀ pair ∈ item, pair.2 ∉ wanted)
    (hrest : Lacks wanted rest.flatten) : Lacks wanted (valueGroups item ++ rest).flatten := by
  cases item with
  | none => exact hrest
  | some pair =>
      exact List.forall_mem_cons.mpr
        ⟨hflag pair rfl, List.forall_mem_cons.mpr ⟨hvalue pair rfl, hrest⟩⟩

theorem lacks_flagGroups {wanted : List String} {flag : String} {present : Bool}
    (hflag : flag ∉ wanted) (hrest : Lacks wanted rest.flatten) :
    Lacks wanted (flagGroups flag present ++ rest).flatten := by
  cases present with
  | false => exact hrest
  | true => exact List.forall_mem_cons.mpr ⟨hflag, hrest⟩

namespace Request.Plain

variable {request : Request} {wanted : List String}

/-- No value of a plain request is one of the flags looked for. -/
theorem value_not_mem (h : request.Plain) (hwanted : wanted ⊆ flags) {value : String}
    (hvalue : value ∈ request.values) : value ∉ wanted :=
  fun hmem => h.values value hvalue (hwanted hmem)

/-! What is left when an option is looked for holds no flag of that option but its own. -/

theorem lacks_schema (h : request.Plain) (hwanted : wanted ⊆ flags) :
    Lacks wanted [[request.schema]].flatten :=
  List.forall_mem_singleton.mpr (h.value_not_mem hwanted (by simp [Request.values]))

theorem lacks_check (h : request.Plain) (hwanted : wanted ⊆ flags)
    (hcheck : "--check" ∉ wanted) :
    Lacks wanted (flagGroups "--check" request.check ++ [[request.schema]]).flatten :=
  lacks_flagGroups hcheck (h.lacks_schema hwanted)

theorem lacks_importB (h : request.Plain) (hwanted : wanted ⊆ flags)
    (hcheck : "--check" ∉ wanted) (hflag : "--import-b" ∉ wanted) :
    Lacks wanted (valueGroups (request.importB.map ("--import-b", ·)) ++
      (flagGroups "--check" request.check ++ [[request.schema]])).flatten := by
  refine lacks_valueGroups ?_ ?_ (h.lacks_check hwanted hcheck)
  · simpa using fun _ _ => hflag
  · simpa using fun path hpath => h.value_not_mem hwanted (by simp [Request.values, hpath])

theorem lacks_importA (h : request.Plain) (hwanted : wanted ⊆ flags)
    (hcheck : "--check" ∉ wanted) (hflagB : "--import-b" ∉ wanted)
    (hflag : "--import-a" ∉ wanted) :
    Lacks wanted (valueGroups (request.importA.map ("--import-a", ·)) ++
      (valueGroups (request.importB.map ("--import-b", ·)) ++
        (flagGroups "--check" request.check ++ [[request.schema]]))).flatten := by
  refine lacks_valueGroups ?_ ?_ (h.lacks_importB hwanted hcheck hflagB)
  · simpa using fun _ _ => hflag
  · simpa using fun path hpath => h.value_not_mem hwanted (by simp [Request.values, hpath])

end Request.Plain

/-- An arrangement of a request is understood as that request, in whatever order its groups
stand. -/
theorem parseArgs_arranged {request : Request} {arrangement : List (List String)}
    (hplain : request.Plain) (harranged : arrangement.Perm request.groups) (outDir : String) :
    parseArgs outDir arrangement.flatten = .ok (request.settings outDir) := by
  have hout : ∀ pair ∈ request.out.map (fun (flag, dir) => (OutFlag.word flag, dir)),
      pair.1 ∈ ["-o", "--out"] := by
    intro _ hpair
    obtain ⟨⟨flag, dir⟩, -, rfl⟩ := Option.map_eq_some_iff.mp hpair
    exact flag.word_mem
  -- each option is taken out of an arrangement of what was left before
  obtain ⟨args₁, harranged₁, hreadOut⟩ := takeValue_arranged ["-o", "--out"] harranged hout
    (lacks_flagGroups (by decide)
      (hplain.lacks_importA (by decide) (by decide) (by decide) (by decide)))
  obtain ⟨args₂, harranged₂, hreadTyped⟩ := takeFlag_arranged harranged₁
    (hplain.lacks_importA (by decide) (by decide) (by decide) (by decide))
  obtain ⟨args₃, harranged₃, hreadA⟩ := takeValue_arranged ["--import-a"] harranged₂ (by simp)
    (hplain.lacks_importB (by decide) (by decide) (by decide))
  obtain ⟨args₄, harranged₄, hreadB⟩ := takeValue_arranged ["--import-b"] harranged₃ (by simp)
    (hplain.lacks_check (by decide) (by decide))
  obtain ⟨args₅, harranged₅, hreadCheck⟩ := takeFlag_arranged harranged₄
    (hplain.lacks_schema (by decide))
  obtain rfl : args₅ = [[request.schema]] := List.perm_singleton.mp harranged₅
  have hdash : ['-'].isPrefixOf request.schema.toList = false := by
    rw [Bool.eq_false_iff, Ne, List.isPrefixOf_iff_prefix]
    exact hplain.schema
  simp only [parseArgs, hreadOut, hreadTyped, hreadA, hreadB, hreadCheck, bind, Except.bind]
  simp [hdash, Request.settings, Function.comp_def, pure, Except.pure]

/-- Everything is asked for, with values that look like options. -/
def busyRequest : Request :=
  ⟨some (.long, "-out"), true, some "--a", some "-", true, "lamp.lcsf"⟩

/-- Its groups in another order, the schema between them. -/
theorem parseArgs_arranged_busy :
    busyRequest.Plain ∧
      List.Perm [["--import-b", "-"], ["--check"], ["lamp.lcsf"], ["--out", "-out"], ["--rust"],
        ["--import-a", "--a"]] busyRequest.groups ∧
      parseArgs "lcsf_out"
          ["--import-b", "-", "--check", "lamp.lcsf", "--out", "-out", "--rust", "--import-a",
            "--a"] =
        .ok ⟨"lamp.lcsf", ⟨"-out", some "--a", some "-", true⟩, true⟩ := by
  have hplain : busyRequest.Plain := ⟨by decide, by decide⟩
  have harranged : List.Perm [["--import-b", "-"], ["--check"], ["lamp.lcsf"], ["--out", "-out"],
      ["--rust"], ["--import-a", "--a"]] busyRequest.groups := by
    decide
  exact ⟨hplain, harranged, parseArgs_arranged hplain harranged "lcsf_out"⟩

end CommandLine
end CommandSet
