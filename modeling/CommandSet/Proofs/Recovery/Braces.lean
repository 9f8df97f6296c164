import CommandSet.Recovery.Line
import Mathlib.Data.List.Basic

/-!
# Nesting of braces

How the braces of some code change the nesting depth, character by character and line by
line.

Main definitions:

- {lit}`depthAfter`: the nesting depth after some code.
- {lit}`codeOf`: the code of lines, their comments cut.
- {lit}`Balanced`: lines that close what they open and nothing else.
- {lit}`Leads`: lines between two depths.
- {lit}`Descends`: lines between two depths that stay above zero until the last.

Main results:

- Theorem {lit}`depthAfter_eq_some_iff`: the depth by counting braces.
- Theorem {lit}`balanced_iff`: balanced lines lead from depth zero back to it.
- Theorem {lit}`descends_succ`: code that is never closed below its start, one level up.
-/

namespace CommandSet
namespace Recovery

/-! ## Characters -/

/-- The nesting depth after some code; nothing if a brace is closed that was never
opened. -/
def depthAfter : Nat → List Char → Option Nat
  | depth, [] => some depth
  | depth, '{' :: rest => depthAfter (depth + 1) rest
  | 0, '}' :: _ => none
  | depth + 1, '}' :: rest => depthAfter depth rest
  | depth, _ :: rest => depthAfter depth rest

theorem depthAfter_other {c : Char} (hopen : c ≠ '{') (hclose : c ≠ '}') (depth : Nat)
    (rest : List Char) : depthAfter depth (c :: rest) = depthAfter depth rest := by
  rw [depthAfter]
  all_goals grind

/-- The walk over braces gives the depth and says whether a brace was opened. -/
theorem walkBraces_eq (depth : Nat) (opened : Bool) (code : List Char) :
    walkBraces depth opened code =
      (depthAfter depth code).map fun after => (after, opened || code.contains '{') := by
  induction code generalizing depth opened with
  | nil => simp [walkBraces, depthAfter]
  | cons c code ih =>
      by_cases hopen : c = '{'
      · subst hopen
        simp [walkBraces, depthAfter, ih]
      by_cases hclose : c = '}'
      · subst hclose
        cases depth with
        | zero => simp [walkBraces, depthAfter]
        | succ depth => simp [walkBraces, depthAfter, ih]
      rw [depthAfter_other hopen hclose, walkBraces, ih]
      · have hne : ('{' == c) = false := beq_eq_false_iff_ne.mpr (Ne.symm hopen)
        rw [List.contains_cons, hne, Bool.false_or]
      · exact hopen
      · exact hclose

/-- Code is walked part by part. -/
theorem depthAfter_append (depth : Nat) (first second : List Char) :
    depthAfter depth (first ++ second) =
      (depthAfter depth first).bind (depthAfter · second) := by
  induction first generalizing depth with
  | nil => simp [depthAfter]
  | cons c first ih =>
      rw [List.cons_append]
      by_cases hopen : c = '{'
      · subst hopen
        simp [depthAfter, ih]
      by_cases hclose : c = '}'
      · subst hclose
        cases depth with
        | zero => simp [depthAfter]
        | succ depth => simp [depthAfter, ih]
      rw [depthAfter_other hopen hclose, depthAfter_other hopen hclose, ih]

/-- The depth that code leads to, by counting its braces. -/
theorem depthAfter_eq_some_iff {depth after : Nat} {code : List Char} :
    depthAfter depth code = some after ↔
      (∀ p, p <+: code → p.count '}' ≤ depth + p.count '{') ∧
        after + code.count '}' = depth + code.count '{' := by
  induction code generalizing depth with
  | nil =>
      simp only [depthAfter, Option.some.injEq, List.prefix_nil, forall_eq, List.count_nil]
      omega
  | cons c code ih =>
      have hcut : (∀ p, p <+: c :: code → p.count '}' ≤ depth + p.count '{') ↔
          ∀ p, p <+: code → (c :: p).count '}' ≤ depth + (c :: p).count '{' := by
        constructor
        · intro h p hp
          exact h (c :: p) ((List.prefix_cons_inj c).mpr hp)
        · intro h p hp
          rcases List.prefix_cons_iff.mp hp with rfl | ⟨tail, rfl, htail⟩
          · simp
          · exact h tail htail
      rw [hcut]
      by_cases hopen : c = '{'
      · subst hopen
        have hclosed (p : List Char) : ('{' :: p).count '}' = p.count '}' :=
          List.count_cons_of_ne (by decide)
        have hopened (p : List Char) : ('{' :: p).count '{' = p.count '{' + 1 :=
          List.count_cons_self
        simp only [depthAfter, ih, hclosed, hopened]
        have hsum (n : Nat) : depth + 1 + n = depth + (n + 1) := by omega
        simp only [hsum]
      by_cases hclose : c = '}'
      · subst hclose
        have hclosed (p : List Char) : ('}' :: p).count '}' = p.count '}' + 1 :=
          List.count_cons_self
        have hopened (p : List Char) : ('}' :: p).count '{' = p.count '{' :=
          List.count_cons_of_ne (by decide)
        simp only [hclosed, hopened]
        cases depth with
        | zero =>
            simp only [depthAfter, reduceCtorEq, false_iff, not_and]
            intro h
            exact absurd (h [] List.nil_prefix) (by simp)
        | succ depth =>
            simp only [depthAfter, ih]
            have hsum (n : Nat) : depth + 1 + n = depth + n + 1 := by omega
            simp only [hsum, Nat.add_le_add_iff_right, ← Nat.add_assoc, Nat.add_right_cancel_iff]
      · have hclosed (p : List Char) : (c :: p).count '}' = p.count '}' :=
          List.count_cons_of_ne hclose
        have hopened (p : List Char) : (c :: p).count '{' = p.count '{' :=
          List.count_cons_of_ne hopen
        simp only [depthAfter_other hopen hclose, ih, hclosed, hopened]

/-- Code leads as far from any depth above. -/
theorem depthAfter_add {depth after : Nat} {code : List Char}
    (h : depthAfter depth code = some after)
    (more : Nat) : depthAfter (depth + more) code = some (after + more) := by
  rw [depthAfter_eq_some_iff] at h ⊢
  obtain ⟨hbelow, htotal⟩ := h
  refine ⟨fun p hp => ?_, by omega⟩
  have hle := hbelow p hp
  omega

/-- Code without braces changes nothing. -/
theorem depthAfter_of_braceless {code : List Char} (hopen : '{' ∉ code) (hclose : '}' ∉ code)
    (depth : Nat) : depthAfter depth code = some depth := by
  induction code with
  | nil => rfl
  | cons c code ih =>
      rw [List.mem_cons, not_or] at hopen hclose
      rw [depthAfter_other (Ne.symm hopen.1) (Ne.symm hclose.1), ih hopen.2 hclose.2]

/-! ## Lines -/

/-- The code of lines, their comments cut. -/
def codeOf (lines : List String) : List Char :=
  lines.flatMap codePart

@[simp]
theorem codeOf_nil : codeOf [] = [] :=
  rfl

@[simp]
theorem codeOf_cons (line : String) (lines : List String) :
    codeOf (line :: lines) = codePart line ++ codeOf lines :=
  rfl

@[simp]
theorem codeOf_append (first second : List String) :
    codeOf (first ++ second) = codeOf first ++ codeOf second :=
  List.flatMap_append

/-- Lines that close what they open and nothing else. -/
structure Balanced (lines : List String) : Prop where
  /-- No beginning of the code closes more than it opens. -/
  never_below : ∀ p, p <+: codeOf lines → p.count '}' ≤ p.count '{'
  /-- The code opens as much as it closes. -/
  total : (codeOf lines).count '{' = (codeOf lines).count '}'

/-- Balanced lines lead from depth zero back to it. -/
theorem balanced_iff {lines : List String} :
    Balanced lines ↔ depthAfter 0 (codeOf lines) = some 0 := by
  rw [depthAfter_eq_some_iff]
  simp only [Nat.zero_add]
  constructor
  · intro h
    exact ⟨h.never_below, h.total.symm⟩
  · intro h
    exact ⟨h.1, h.2.symm⟩

instance (lines : List String) : Decidable (Balanced lines) :=
  decidable_of_iff _ balanced_iff.symm

theorem Balanced.nil : Balanced [] :=
  balanced_iff.mpr rfl

theorem Balanced.append {first second : List String} (hfirst : Balanced first)
    (hsecond : Balanced second) : Balanced (first ++ second) := by
  rw [balanced_iff] at hfirst hsecond ⊢
  rw [codeOf_append, depthAfter_append, hfirst]
  exact hsecond

/-- A line without braces is balanced. -/
theorem Balanced.cons {line : String} {lines : List String}
    (hline : depthAfter 0 (codePart line) = some 0) (hlines : Balanced lines) :
    Balanced (line :: lines) := by
  rw [balanced_iff] at hlines ⊢
  rw [codeOf_cons, depthAfter_append, hline]
  exact hlines

/-- Balanced lines in a block are balanced with the lines around them. -/
theorem Balanced.block {head last : String} {inner : List String} {depth : Nat}
    (hhead : depthAfter 0 (codePart head) = some depth) (hinner : Balanced inner)
    (hlast : depthAfter depth (codePart last) = some 0) : Balanced (head :: (inner ++ [last])) := by
  rw [balanced_iff] at hinner ⊢
  have hshifted := depthAfter_add hinner depth
  rw [Nat.zero_add] at hshifted
  rw [codeOf_cons, codeOf_append, codeOf_cons, codeOf_nil, List.append_nil, depthAfter_append,
    hhead, Option.bind_some, depthAfter_append, hshifted, Option.bind_some, hlast]

/-! ## Lines between depths -/

/-- Lines that lead from one depth to another. -/
def Leads (depth after : Nat) (lines : List String) : Prop :=
  depthAfter depth (codeOf lines) = some after

instance (depth after : Nat) (lines : List String) : Decidable (Leads depth after lines) :=
  inferInstanceAs (Decidable (_ = _))

theorem leads_append_iff {depth after : Nat} {first second : List String} :
    Leads depth after (first ++ second) ↔
      ∃ next, Leads depth next first ∧ Leads next after second := by
  rw [Leads, codeOf_append, depthAfter_append, Option.bind_eq_some_iff]
  rfl

theorem Leads.append {depth next after : Nat} {first second : List String}
    (hfirst : Leads depth next first) (hsecond : Leads next after second) :
    Leads depth after (first ++ second) :=
  leads_append_iff.mpr ⟨next, hfirst, hsecond⟩

/-- Lines lead to one depth only. -/
theorem Leads.unique {depth after other : Nat} {lines : List String} (h : Leads depth after lines)
    (hother : Leads depth other lines) : after = other :=
  Option.some.inj (h.symm.trans hother)

/-- Lines that reach one depth do so from one depth only. -/
theorem Leads.start_unique {depth other after : Nat} {lines : List String}
    (h : Leads depth after lines) (hother : Leads other after lines) : depth = other := by
  have hcount := (depthAfter_eq_some_iff.mp h).2
  have hcountOther := (depthAfter_eq_some_iff.mp hother).2
  omega

theorem Balanced.leads {lines : List String} (h : Balanced lines) (depth : Nat) :
    Leads depth depth lines := by
  have hshifted := depthAfter_add (balanced_iff.mp h) depth
  rwa [Nat.zero_add] at hshifted

/-- Balanced lines around others lead nowhere themselves. -/
theorem leads_around_iff {depth after : Nat} {above block below : List String}
    (habove : Balanced above) (hbelow : Balanced below) :
    Leads depth after (above ++ (block ++ below)) ↔ Leads depth after block := by
  constructor
  · intro h
    obtain ⟨next, hnext, h⟩ := leads_append_iff.mp h
    obtain rfl : depth = next := (habove.leads depth).unique hnext
    obtain ⟨last, hblock, hlast⟩ := leads_append_iff.mp h
    obtain rfl : last = after := (hbelow.leads last).unique hlast
    exact hblock
  · intro hblock
    exact (habove.leads depth).append (hblock.append (hbelow.leads after))

theorem leads_flatMap_iff {α : Type} {values : List α} {first second : α → List String}
    (h : ∀ a ∈ values, ∀ depth after, Leads depth after (first a) ↔ Leads depth after (second a))
    {depth after : Nat} :
    Leads depth after (values.flatMap first) ↔ Leads depth after (values.flatMap second) := by
  induction values generalizing depth with
  | nil => rfl
  | cons a values ih =>
      rw [List.forall_mem_cons] at h
      simp only [List.flatMap_cons, leads_append_iff, h.1, ih h.2]

theorem balanced_iff_leads {lines : List String} : Balanced lines ↔ Leads 0 0 lines :=
  balanced_iff

/-! ## Lines of a function -/

/-- Lines lead from one depth to another, which is above zero before each of them. -/
inductive Descends : Nat → List String → Nat → Prop where
  | nil (depth : Nat) : Descends depth [] depth
  | cons {depth next last : Nat} {line : String} {lines : List String} (hdepth : depth ≠ 0)
      (hline : depthAfter depth (codePart line) = some next) (hlines : Descends next lines last) :
      Descends depth (line :: lines) last

theorem Descends.append {depth next last : Nat} {first second : List String}
    (hfirst : Descends depth first next) (hsecond : Descends next second last) :
    Descends depth (first ++ second) last := by
  induction hfirst with
  | nil => exact hsecond
  | cons hdepth hline _ ih => exact .cons hdepth hline (ih hsecond)

/-- Code that is never closed below its start, one level up. -/
theorem descends_succ {depth after : Nat} {lines : List String}
    (h : depthAfter depth (codeOf lines) = some after) :
    Descends (depth + 1) lines (after + 1) := by
  induction lines generalizing depth with
  | nil =>
      obtain rfl : depth = after := Option.some.inj h
      exact .nil _
  | cons line lines ih =>
      rw [codeOf_cons, depthAfter_append] at h
      obtain ⟨next, hline, hlines⟩ := Option.bind_eq_some_iff.mp h
      exact .cons (Nat.succ_ne_zero depth) (depthAfter_add hline 1) (ih hlines)

/-- Balanced lines inside a function leave its depth as it is. -/
theorem Balanced.descends {lines : List String} (h : Balanced lines) (depth : Nat) :
    Descends (depth + 1) lines (depth + 1) := by
  have hshifted := depthAfter_add (balanced_iff.mp h) depth
  rw [Nat.zero_add] at hshifted
  exact descends_succ hshifted

end Recovery
end CommandSet
