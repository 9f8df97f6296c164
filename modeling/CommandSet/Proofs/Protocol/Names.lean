import CommandSet.Validation

/-!
# Names

The names that generated code can use, said without the check that decides it: a letter
or underscore, with letters, digits and underscores behind it.

Main definition:

- {lit}`IsName`: the names of generated code.

Main result:

- Theorem {lit}`isIdentifier_iff`: identifiers are exactly these names.
-/

namespace CommandSet

/-- ASCII letters and the underscore. -/
def IsNameStart (c : Char) : Prop :=
  ('A' ≤ c ∧ c ≤ 'Z') ∨ ('a' ≤ c ∧ c ≤ 'z') ∨ c = '_'

/-- ASCII letters, digits and the underscore. -/
def IsNameRest (c : Char) : Prop :=
  IsNameStart c ∨ ('0' ≤ c ∧ c ≤ '9')

/-- A letter or underscore, with letters, digits and underscores behind it. -/
def IsName (name : String) : Prop :=
  ∃ first rest, name.toList = first :: rest ∧ IsNameStart first ∧ ∀ c ∈ rest, IsNameRest c

theorem isNameStart_iff {c : Char} : (c.isAlpha || c == '_') = true ↔ IsNameStart c := by
  have halpha : c.isAlpha = (decide (c.val ≥ 'A'.val ∧ c.val ≤ 'Z'.val) ||
      (decide (c.val ≥ 'a'.val) && decide (c.val ≤ 'z'.val))) := rfl
  rw [halpha, IsNameStart]
  simp only [Bool.or_eq_true, Bool.and_eq_true, decide_eq_true_eq, beq_iff_eq, or_assoc]
  exact Iff.rfl

theorem isNameRest_iff {c : Char} : (c.isAlphanum || c == '_') = true ↔ IsNameRest c := by
  rw [IsNameRest, ← isNameStart_iff]
  simp only [Char.isAlphanum, Char.isDigit, Bool.or_eq_true, Bool.and_eq_true,
    decide_eq_true_eq, beq_iff_eq]
  constructor
  · rintro ((h | h) | h)
    · exact Or.inl (Or.inl h)
    · exact Or.inr h
    · exact Or.inl (Or.inr h)
  · rintro ((h | h) | h)
    · exact Or.inl (Or.inl h)
    · exact Or.inr h
    · exact Or.inl (Or.inr h)

/-- Identifiers are the names of the declared form. -/
theorem isIdentifier_iff {name : String} : isIdentifier name = true ↔ IsName name := by
  unfold isIdentifier IsName
  cases name.toList with
  | nil => simp [isIdentifierChars]
  | cons c rest =>
      simp only [isIdentifierChars, Bool.and_eq_true, List.all_eq_true, isNameStart_iff,
        isNameRest_iff, List.cons.injEq]
      constructor
      · rintro ⟨hc, hrest⟩
        exact ⟨c, rest, ⟨rfl, rfl⟩, hc, hrest⟩
      · rintro ⟨_, _, ⟨rfl, rfl⟩, hc, hrest⟩
        exact ⟨hc, hrest⟩

/-- Every character of a name is a letter, a digit or an underscore. -/
theorem IsName.forall_mem {name : String} (h : IsName name) : ∀ c ∈ name.toList, IsNameRest c := by
  obtain ⟨first, rest, hname, hfirst, hrest⟩ := h
  rw [hname]
  exact List.forall_mem_cons.mpr ⟨Or.inl hfirst, hrest⟩

theorem IsName.toList_ne_nil {name : String} (h : IsName name) : name.toList ≠ [] := by
  obtain ⟨first, rest, hname, -⟩ := h
  simp [hname]

end CommandSet
