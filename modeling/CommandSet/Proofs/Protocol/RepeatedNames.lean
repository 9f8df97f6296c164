import CommandSet.Validation
import Mathlib.Data.List.Nodup

/-!
# The search for repeated names of complex attributes

The search descends into every attribute of the complex type, the flat list into those
that hold sub-attributes besides.  A complex attribute without any adds only its own
name, so both meet the complex names of a forest in one order, whether or not the forest
is a valid one.

Main definition:

- {lit}`walkNames`: the search over a list of names.

Main results:

- Theorem {lit}`walkComplexes_eq`: searching sibling trees is searching the complex names
  of their flat list, whatever was seen before.
- Theorem {lit}`repeatedComplexName_first`: the search finds the first complex name of
  the flat list that repeats an earlier one, and nothing when there is none.
-/

namespace CommandSet

/-! ## Lists of names -/

/-- Walk names with those seen so far; stops at the first name seen twice. -/
def walkNames (seen : List String) : List String → Except String (List String)
  | [] => .ok seen
  | name :: rest => if seen.contains name then .error name else walkNames (name :: seen) rest

theorem walkNames_append (seen first second : List String) :
    walkNames seen (first ++ second) =
      match walkNames seen first with
      | .ok seen => walkNames seen second
      | .error name => .error name := by
  induction first generalizing seen with
  | nil => rfl
  | cons name rest ih =>
      rw [List.cons_append, walkNames, walkNames]
      split
      · rfl
      · exact ih (name :: seen)

/-- The walk passes names that are distinct and were not seen before. -/
theorem walkNames_eq_ok_iff {seen names passed : List String} :
    walkNames seen names = .ok passed ↔
      names.Nodup ∧ names.Disjoint seen ∧ passed = names.reverse ++ seen := by
  induction names generalizing seen with
  | nil => simp [walkNames, eq_comm]
  | cons name rest ih =>
      rw [walkNames]
      by_cases hseen : name ∈ seen
      · simp [hseen]
      · simp only [List.contains_eq_mem, hseen, decide_false, Bool.false_eq_true, if_false, ih,
          List.nodup_cons, List.disjoint_cons_right, List.disjoint_cons_left, List.reverse_cons,
          List.append_assoc, List.singleton_append, not_false_eq_true, true_and]
        tauto

/-- The walk stops at the first name that was seen before it started or stands among
those it has passed. -/
theorem walkNames_eq_error_iff {seen names : List String} {name : String} :
    walkNames seen names = .error name ↔
      ∃ before after, names = before ++ name :: after ∧
        before.Nodup ∧ before.Disjoint seen ∧ name ∈ before ++ seen := by
  constructor
  · induction names generalizing seen with
    | nil => simp [walkNames]
    | cons head rest ih =>
        intro hwalk
        rw [walkNames] at hwalk
        split at hwalk
        next hseen =>
          cases hwalk
          exact ⟨[], rest, rfl, List.nodup_nil, List.disjoint_nil_left _, by simpa using hseen⟩
        next hnew =>
          have hhead : head ∉ seen := by simpa using hnew
          obtain ⟨before, after, rfl, hnodup, hdisjoint, hmem⟩ := ih hwalk
          obtain ⟨hfresh, hrest⟩ := List.disjoint_cons_right.mp hdisjoint
          refine ⟨head :: before, after, rfl, List.nodup_cons.mpr ⟨hfresh, hnodup⟩,
            List.disjoint_cons_left.mpr ⟨hhead, hrest⟩, ?_⟩
          simpa [or_comm, or_assoc, or_left_comm] using hmem
  · rintro ⟨before, after, rfl, hnodup, hdisjoint, hmem⟩
    have hpassed := walkNames_eq_ok_iff.mpr ⟨hnodup, hdisjoint, rfl⟩
    rw [walkNames_append, hpassed]
    have hseen : (before.reverse ++ seen).contains name = true := by simpa using hmem
    simp only [walkNames, hseen, if_true]

/-! ## Forests -/

theorem complexNames_append (first second : List Entry) :
    complexNames (first ++ second) = complexNames first ++ complexNames second := by
  rw [complexNames, List.filter_append, List.map_append]
  rfl

mutual

/-- Walking a tree is walking the complex names of its flat list. -/
theorem walkComplex_eq (seen ancestors : List String) (index : Nat) :
    (att : Attribute) →
      walkComplex seen att = walkNames seen (complexNames (Entry.ofTree ancestors index att))
  | ⟨name, id, optional, dataType, children, description⟩ => by
      rw [walkComplex, Entry.ofTree]
      by_cases hcomplex : dataType = .subAttributes
      case pos =>
        have hbelow := walkComplexes_eq (name :: seen) (ancestors ++ [name]) 0 children
        cases children with
        | nil => simp [Attribute.isComplex, Attribute.hasSubAttributes, complexNames, hcomplex,
            walkNames, walkComplexes]
        | cons child rest =>
            simp [Attribute.isComplex, Attribute.hasSubAttributes, complexNames, hcomplex,
              walkNames] at hbelow ⊢
            rw [hbelow]
      case neg =>
        simp [Attribute.isComplex, Attribute.hasSubAttributes, complexNames, hcomplex, walkNames]

/-- Walking sibling trees is walking the complex names of their flat list. -/
theorem walkComplexes_eq (seen ancestors : List String) (index : Nat) :
    (atts : List Attribute) →
      walkComplexes seen atts = walkNames seen (complexNames (Entry.ofTrees ancestors index atts))
  | [] => rfl
  | att :: rest => by
      rw [walkComplexes, Entry.ofTrees, complexNames_append, walkNames_append,
        walkComplex_eq seen ancestors index att]
      cases walkNames seen (complexNames (Entry.ofTree ancestors index att)) with
      | ok passed => exact walkComplexes_eq passed ancestors (index + 1) rest
      | error name => rfl

end

/-- Walking all commands is walking the complex names of the flat list. -/
theorem walkCommands_eq (seen : List String) (cmds : List Command) :
    walkCommands seen cmds = walkNames seen (complexNames (flatten cmds)) := by
  induction cmds generalizing seen with
  | nil => rfl
  | cons cmd rest ih =>
      rw [walkCommands, flatten, List.flatMap_cons, ← flatten, complexNames_append,
        walkNames_append, walkComplexes_eq seen [cmd.name] 0 cmd.attributes]
      cases walkNames seen (complexNames (Entry.ofTrees [cmd.name] 0 cmd.attributes)) with
      | ok passed => exact ih passed
      | error name => rfl

/-! ## The search -/

theorem repeatedComplexName?_eq_some_iff {cmds : List Command} {name : String} :
    repeatedComplexName? cmds = some name ↔
      ∃ before after, complexNames (flatten cmds) = before ++ name :: after ∧
        before.Nodup ∧ name ∈ before := by
  have hwalk : repeatedComplexName? cmds = some name ↔
      walkNames [] (complexNames (flatten cmds)) = .error name := by
    rw [repeatedComplexName?, walkCommands_eq]
    cases walkNames [] (complexNames (flatten cmds)) <;> simp
  rw [hwalk, walkNames_eq_error_iff]
  simp

theorem repeatedComplexName?_eq_none_iff {cmds : List Command} :
    repeatedComplexName? cmds = none ↔ (complexNames (flatten cmds)).Nodup := by
  rw [repeatedComplexName?, walkCommands_eq]
  constructor
  · intro hnone
    cases hwalk : walkNames [] (complexNames (flatten cmds)) with
    | ok passed => exact (walkNames_eq_ok_iff.mp hwalk).1
    | error name => simp [hwalk] at hnone
  · intro hnodup
    rw [walkNames_eq_ok_iff.mpr ⟨hnodup, List.disjoint_nil_right _, rfl⟩]

/-- The search finds the first name of a complex attribute that repeats an earlier one in
the flat list of the attributes, and nothing exactly when no name does. -/
theorem repeatedComplexName_first (cmds : List Command) :
    (∀ name, repeatedComplexName? cmds = some name ↔
      ∃ before after, complexNames (flatten cmds) = before ++ name :: after ∧
        before.Nodup ∧ name ∈ before) ∧
    (repeatedComplexName? cmds = none ↔ (complexNames (flatten cmds)).Nodup) :=
  ⟨fun _ => repeatedComplexName?_eq_some_iff, repeatedComplexName?_eq_none_iff⟩

end CommandSet
