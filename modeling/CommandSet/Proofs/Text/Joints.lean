import Mathlib.Data.List.Basic

/-!
# Joints in names

Many names of generated code are joined from two names with a fixed text between them.  Two of
them are spelled alike where one of the names holds that text itself.

Main result:

- Theorem {lit}`joint_eq_iff`: how two joined names come to one spelling.
-/

namespace CommandSet

variable {c : Char} {mid : List Char}

/-- A joint moves only behind another one, if its first character does not come back in it. -/
theorem append_joint (hc : c ∉ mid) {rest word other : List Char} (hne : rest ≠ [])
    (h : c :: (mid ++ word) = rest ++ c :: (mid ++ other)) :
    ∃ tail, rest = c :: (mid ++ tail) ∧ word = tail ++ c :: (mid ++ other) := by
  cases rest with
  | nil => exact absurd rfl hne
  | cons d rest =>
      obtain ⟨rfl, hmid⟩ := List.cons.inj h
      rcases List.append_eq_append_iff.mp hmid with ⟨tail, rfl, hword⟩ | ⟨inner, rfl, hinner⟩
      · exact ⟨tail, rfl, hword⟩
      · cases inner with
        | nil => exact ⟨[], by simp, by simpa using hinner.symm⟩
        | cons d inner =>
            obtain ⟨rfl, -⟩ := List.cons.inj hinner
            exact absurd (List.mem_append_right _ List.mem_cons_self) hc

section Strings

variable {joint first second word other : String}

/-- Of two names of one spelling, the one that starts longer holds the joint of the other one
and a joint behind it. -/
theorem exists_joint (hjoint : joint.toList = c :: mid) (hc : c ∉ mid) (hne : first ≠ second)
    {rest : List Char} (hsecond : second.toList = first.toList ++ rest)
    (hrest : joint.toList ++ word.toList = rest ++ (joint.toList ++ other.toList)) :
    ∃ rest, second = first ++ joint ++ rest ∧ word = rest ++ joint ++ other := by
  have hnil : rest ≠ [] := by
    rintro rfl
    rw [List.append_nil, String.toList_inj] at hsecond
    exact hne hsecond.symm
  rw [hjoint] at hrest
  obtain ⟨tail, rfl, htail⟩ := append_joint hc hnil hrest
  refine ⟨String.ofList tail, ?_, ?_⟩
  · rw [← String.toList_inj, hsecond]
    simp [hjoint]
  · rw [← String.toList_inj, htail]
    simp [hjoint]

/-- Names with a joint are spelled alike where their parts are, or where one starts with the
other one's joint and has one behind it. -/
theorem joint_eq_iff (hjoint : joint.toList = c :: mid) (hc : c ∉ mid) :
    first ++ joint ++ word = second ++ joint ++ other ↔
      (first = second ∧ word = other) ∨
        (∃ rest, second = first ++ joint ++ rest ∧ word = rest ++ joint ++ other) ∨
          ∃ rest, first = second ++ joint ++ rest ∧ other = rest ++ joint ++ word := by
  constructor
  · intro h
    by_cases hne : first = second
    · subst hne
      exact .inl ⟨rfl, (String.append_right_inj _).mp h⟩
    · rw [← String.toList_inj] at h
      simp only [String.toList_append, List.append_assoc] at h
      rcases List.append_eq_append_iff.mp h with ⟨rest, hsecond, hrest⟩ | ⟨rest, hfirst, hrest⟩
      · exact .inr (.inl (exists_joint hjoint hc hne hsecond hrest))
      · exact .inr (.inr (exists_joint hjoint hc (Ne.symm hne) hfirst hrest))
  · rintro (⟨rfl, rfl⟩ | ⟨rest, rfl, rfl⟩ | ⟨rest, rfl, rfl⟩)
    · rfl
    · simp only [String.append_assoc]
    · simp only [String.append_assoc]

end Strings

end CommandSet
