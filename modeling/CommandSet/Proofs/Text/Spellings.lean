import CommandSet.Naming
import CommandSet.Proofs.Text.Words

/-!
# Spellings of names

Rust items spell the names of a protocol as capitalised words or in snake case.  Either way
a word becomes a word.

Main definition:

- {lit}`leading?`: the first character behind the underscores of a name.

Main results:

- Theorems {lit}`isWord_capitalized`, {lit}`isWord_snakeCase`: the spellings of words.
- Theorems {lit}`underscore_not_mem_capitalized`, {lit}`isUpper_of_mem_snakeCase`: what they
  never hold.
- Theorem {lit}`IsName.isName_capitalized_iff`: which names stay names when capitalised.
- Theorem {lit}`IsName.snakeCase_ne_nil`: names stay names in snake case.
-/

namespace CommandSet

/-! ## Capitalised names -/

private theorem mem_of_mem_underscoreParts {seen text part : List Char} {c : Char}
    (hpart : part ∈ underscorePartsFrom seen text) (hc : c ∈ part) : c ∈ seen ∨ c ∈ text := by
  induction text generalizing seen with
  | nil =>
      rw [underscorePartsFrom] at hpart
      split at hpart
      · exact absurd hpart List.not_mem_nil
      · rw [List.mem_singleton.mp hpart, List.mem_reverse] at hc
        exact .inl hc
  | cons d text ih =>
      rw [underscorePartsFrom] at hpart
      split at hpart
      · split at hpart
        · exact .inr (List.mem_cons_of_mem _ ((ih hpart).resolve_left List.not_mem_nil))
        · rcases List.mem_cons.mp hpart with rfl | hpart
          · exact .inl (List.mem_reverse.mp hc)
          · exact .inr (List.mem_cons_of_mem _ ((ih hpart).resolve_left List.not_mem_nil))
      · rcases ih hpart with hseen | htext
        · rcases List.mem_cons.mp hseen with rfl | hseen
          · exact .inr List.mem_cons_self
          · exact .inl hseen
        · exact .inr (List.mem_cons_of_mem _ htext)

private theorem not_underscore_of_mem_parts {seen text part : List Char} (hseen : '_' ∉ seen)
    (hpart : part ∈ underscorePartsFrom seen text) : ∀ c ∈ part, c ≠ '_' := by
  have hreverse : ∀ c ∈ seen.reverse, c ≠ '_' := by
    rintro c hc rfl
    exact hseen (List.mem_reverse.mp hc)
  induction text generalizing seen with
  | nil =>
      rw [underscorePartsFrom] at hpart
      split at hpart
      · exact absurd hpart List.not_mem_nil
      · exact List.mem_singleton.mp hpart ▸ hreverse
  | cons d text ih =>
      rw [underscorePartsFrom] at hpart
      split at hpart
      · split at hpart
        · exact ih List.not_mem_nil hpart (List.forall_mem_nil _)
        · rcases List.mem_cons.mp hpart with rfl | hpart
          · exact hreverse
          · exact ih List.not_mem_nil hpart (List.forall_mem_nil _)
      next hd =>
        have hseen' : '_' ∉ d :: seen := by
          rw [List.mem_cons, not_or]
          exact ⟨fun heq => hd (beq_iff_eq.mpr heq.symm), hseen⟩
        refine ih hseen' hpart ?_
        rintro c hc rfl
        exact hseen' (List.mem_reverse.mp hc)

/-- Capitalised words are words. -/
theorem isWord_capitalized {name : String} (h : IsWord name) : IsWord (capitalized name) := by
  intro c hc
  rw [capitalized, String.toList_ofList, List.mem_flatMap] at hc
  obtain ⟨part, hpart, hc⟩ := hc
  have hchars : ∀ d ∈ part, IsNameRest d := fun d hd =>
    h d ((mem_of_mem_underscoreParts hpart hd).resolve_left List.not_mem_nil)
  cases part with
  | nil => exact absurd hc List.not_mem_nil
  | cons d rest =>
      rw [List.forall_mem_cons] at hchars
      rw [capitalizedWord, Text.upperChar_ascii hchars.1.isAscii,
        Text.lowerFrom_ascii [] fun e he => (hchars.2 e he).isAscii, List.singleton_append,
        List.mem_cons, List.mem_map] at hc
      rcases hc with rfl | ⟨e, he, rfl⟩
      · exact hchars.1.toUpper
      · exact (hchars.2 e he).toLower

/-- Capitalised words hold no underscore. -/
theorem underscore_not_mem_capitalized {name : String} (h : IsWord name) :
    '_' ∉ (capitalized name).toList := by
  rw [capitalized, String.toList_ofList, List.mem_flatMap]
  rintro ⟨part, hpart, hmem⟩
  have hchars : ∀ d ∈ part, IsNameRest d ∧ d ≠ '_' := fun d hd =>
    ⟨h d ((mem_of_mem_underscoreParts hpart hd).resolve_left List.not_mem_nil),
      not_underscore_of_mem_parts List.not_mem_nil hpart d hd⟩
  cases part with
  | nil => exact absurd hmem List.not_mem_nil
  | cons d rest =>
      rw [List.forall_mem_cons] at hchars
      rw [capitalizedWord, Text.upperChar_ascii hchars.1.1.isAscii,
        Text.lowerFrom_ascii [] fun e he => (hchars.2 e he).1.isAscii, List.singleton_append,
        List.mem_cons, List.mem_map] at hmem
      rcases hmem with hd | ⟨e, he, hd⟩
      · exact hchars.1.2 (hchars.1.1.eq_underscore_of_toUpper hd.symm)
      · exact (hchars.2 e he).2 ((hchars.2 e he).1.eq_underscore_of_toLower hd)

/-- The first character of a name behind its leading underscores. -/
def leading? (name : String) : Option Char :=
  (name.toList.dropWhile (· == '_')).head?

/-- What was read of a part starts the first one. -/
private theorem exists_part_of_seen {seen : List Char} (hseen : seen ≠ []) (text : List Char) :
    ∃ rest others, underscorePartsFrom seen text = (seen.reverse ++ rest) :: others := by
  induction text generalizing seen with
  | nil => exact ⟨[], [], by simp [underscorePartsFrom, hseen]⟩
  | cons c text ih =>
      rw [underscorePartsFrom]
      split
      · exact ⟨[], underscorePartsFrom [] text, by simp [hseen]⟩
      · obtain ⟨rest, others, hparts⟩ := ih (List.cons_ne_nil c seen)
        exact ⟨c :: rest, others, by simp [hparts]⟩

/-- A capitalised name starts with the first character behind its underscores. -/
theorem head?_capitalized {name : String} (h : IsWord name) :
    (capitalized name).toList.head? = (leading? name).map Char.toUpper := by
  have hparts (chars : List Char) (h : ∀ c ∈ chars, IsNameRest c) :
      ((underscorePartsFrom [] chars).flatMap capitalizedWord).head? =
        (chars.dropWhile (· == '_')).head?.map Char.toUpper := by
    induction chars with
    | nil => rfl
    | cons c chars ih =>
        rw [List.forall_mem_cons] at h
        rw [underscorePartsFrom]
        by_cases hc : (c == '_') = true
        · rw [if_pos hc, if_pos List.isEmpty_nil, ih h.2, List.dropWhile_cons, if_pos hc]
        · obtain ⟨rest, others, hparts⟩ := exists_part_of_seen (List.cons_ne_nil c []) chars
          rw [if_neg hc, hparts, List.dropWhile_cons, if_neg hc]
          simp [capitalizedWord, Text.upperChar_ascii h.1.isAscii]
  rw [capitalized, String.toList_ofList, leading?, hparts name.toList h]

/-- The first character behind the underscores is a letter or a digit. -/
theorem IsWord.leading {name : String} (h : IsWord name) {c : Char} (hc : leading? name = some c) :
    IsNameRest c ∧ c ≠ '_' := by
  have hrest := List.head?_dropWhile_not (· == '_') name.toList
  rw [leading?] at hc
  rw [hc] at hrest
  have hmem := List.mem_of_mem_head? (Option.mem_def.mpr hc)
  exact ⟨h c ((List.dropWhile_sublist _).subset hmem), by simpa using hrest⟩

/-- A name stays a name when capitalised if it starts with a letter behind its underscores. -/
theorem IsName.isName_capitalized_iff {name : String} (h : IsName name) :
    IsName (capitalized name) ↔ ∃ c, leading? name = some c ∧ c.isAlpha = true := by
  rw [(isWord_capitalized h.isWord).isName_iff, head?_capitalized h.isWord]
  cases hleading : leading? name with
  | none => simp
  | some c =>
      obtain ⟨hrest, hc⟩ := h.isWord.leading hleading
      simp [hrest.isNameStart_toUpper_iff hc]

/-- A capitalised name with more behind it is a name unless it starts with a digit behind its
underscores. -/
theorem IsName.isName_capitalized_append_iff {name rest : String} (h : IsName name)
    (hrest : IsName rest) :
    IsName (capitalized name ++ rest) ↔ ∀ c, leading? name = some c → c.isAlpha = true := by
  have hhead := head?_capitalized h.isWord
  rw [((isWord_capitalized h.isWord).append hrest.isWord).isName_iff, String.toList_append,
    List.head?_append, hhead]
  cases hleading : leading? name with
  | none =>
      obtain ⟨first, others, htext, hfirst, -⟩ := hrest
      simp [htext, hfirst]
  | some c =>
      obtain ⟨hchar, hc⟩ := h.isWord.leading hleading
      simp [hchar.isNameStart_toUpper_iff hc]

/-! ## Names in snake case -/

/-- Words in snake case are words. -/
theorem isWord_snakeCase {name : String} (h : IsWord name) : IsWord (snakeCase name) := by
  have hchars (afterLower : Bool) {chars : List Char} (h : ∀ c ∈ chars, IsNameRest c) :
      ∀ c ∈ snakeCaseFrom afterLower chars, IsNameRest c := by
    induction chars generalizing afterLower with
    | nil => simp [snakeCaseFrom]
    | cons d chars ih =>
        rw [List.forall_mem_cons] at h
        intro c hc
        rw [snakeCaseFrom, Text.lowerChar_ascii h.1.isAscii] at hc
        simp only [List.mem_append, List.mem_singleton] at hc
        rcases hc with (hc | rfl) | hc
        · have hline : c = '_' := by
            split at hc
            · exact List.mem_singleton.mp hc
            · exact absurd hc List.not_mem_nil
          exact hline ▸ Or.inl (Or.inr (Or.inr rfl))
        · exact h.1.toLower
        · exact ih _ h.2 c hc
  intro c hc
  rw [snakeCase, String.toList_ofList] at hc
  exact hchars false h c hc

/-- Words in snake case hold no capital. -/
theorem isUpper_of_mem_snakeCase {name : String} (h : IsWord name) :
    ∀ c ∈ (snakeCase name).toList, c.isUpper = false := by
  have hchars (afterLower : Bool) {chars : List Char} (h : ∀ c ∈ chars, IsNameRest c) :
      ∀ c ∈ snakeCaseFrom afterLower chars, c.isUpper = false := by
    induction chars generalizing afterLower with
    | nil => simp [snakeCaseFrom]
    | cons d chars ih =>
        rw [List.forall_mem_cons] at h
        rw [snakeCaseFrom, Text.lowerChar_ascii h.1.isAscii, List.forall_mem_append,
          List.forall_mem_append, List.forall_mem_singleton]
        refine ⟨⟨?_, h.1.toLower_not_upper⟩, ih _ h.2⟩
        split
        · exact List.forall_mem_singleton.mpr (by decide)
        · exact List.forall_mem_nil _
  rw [snakeCase, String.toList_ofList]
  exact hchars false h

/-- Names do not vanish in snake case. -/
theorem IsName.snakeCase_ne_nil {name : String} (h : IsName name) :
    (snakeCase name).toList ≠ [] := by
  obtain ⟨first, rest, hname, hfirst, -⟩ := h
  have hrest : IsNameRest first := Or.inl hfirst
  rw [snakeCase, String.toList_ofList, hname, snakeCaseFrom, Text.lowerChar_ascii hrest.isAscii]
  simp

/-! ## Names of Rust types -/

theorem isWord_typedNestedPayload {parent name : String} (hparent : IsName parent)
    (hname : IsName name) : IsWord (Naming.typedNestedPayload parent name) :=
  (((isWord_capitalized hparent.isWord).append (IsWord.fixed rfl : IsWord "Att")).append
    (isWord_capitalized hname.isWord)).append (IsWord.fixed rfl : IsWord "Payload")

theorem isWord_typedCommandPayload {name : String} (h : IsName name) :
    IsWord (Naming.typedCommandPayload name) :=
  (isWord_capitalized h.isWord).append (IsWord.fixed rfl : IsWord "AttPayload")

end CommandSet
