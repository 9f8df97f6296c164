import Mathlib.Data.List.DropRight

/-!
# Between a start and an ending

Generated code is read by taking fixed texts off its ends.

Main definition:

- {lit}`between?`: what stands between a start and an ending.

Main results:

- Theorem {lit}`between_append`: it is read off a text that is made of the three.
- Theorem {lit}`between_eq_none`: a text that starts otherwise holds nothing between.
-/

namespace CommandSet

theorem dropPrefix_append (front rest : List Char) :
    (front ++ rest).dropPrefix? front = some rest :=
  List.dropPrefix?_append_of_beq rest (beq_self_eq_true front)

theorem dropSuffix_append (front rest : List Char) :
    (front ++ rest).dropSuffix? rest = some front :=
  List.dropSuffix?_eq_some_iff.mpr ⟨rest, rfl, beq_self_eq_true rest⟩

/-- What stands in a text between a start and an ending. -/
def between? (front back : String) (text : List Char) : Option String := do
  let rest ← text.dropPrefix? front.toList
  let middle ← rest.dropSuffix? back.toList
  some (String.ofList middle)

@[simp]
theorem between_append (front middle back : String) :
    between? front back (front ++ middle ++ back).toList = some middle := by
  unfold between?
  rw [String.toList_append, String.toList_append, List.append_assoc, dropPrefix_append]
  simp only [Option.bind_eq_bind, Option.bind_some, dropSuffix_append, String.ofList_toList]

/-- Texts that start otherwise hold nothing between. -/
theorem between_eq_none {front : String} (back : String) {text : List Char}
    (h : ¬front.toList <+: text) : between? front back text = none := by
  have hnone : text.dropPrefix? front.toList = none := by
    by_contra hsome
    obtain ⟨rest, hrest⟩ := Option.ne_none_iff_exists'.mp hsome
    obtain ⟨start, rfl, hstart⟩ := List.dropPrefix?_eq_some_iff.mp hrest
    obtain rfl := beq_iff_eq.mp hstart
    exact h (List.prefix_append _ _)
  rw [between?, hnone]
  rfl

end CommandSet
