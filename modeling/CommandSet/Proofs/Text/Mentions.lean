import CommandSet.Proofs.Text.Tokens
import Mathlib.Data.List.Forall2

/-!
# Names in their places

What a name on a line of Rust code stands for is told by its neighbours.  It is called if a
parenthesis follows.  It names a type unless it starts the line, stands behind a path, or is
itself the path to a variant.

Main definitions:

- {lit}`Mention`: a name, and how it is used.
- {lit}`mentions`: the names on a line.
- {lit}`fixedMentions`, {lit}`holes`: the names of a template, and how those in its holes are
  used.

Main result:

- Theorem {lit}`forall_mentions_of_fill`: what holds of the names of a template and of the words
  in its holes holds of the names on a line that fills it.
-/

namespace CommandSet

/-! ## Mentions -/

/-- What stands right before a name: nothing on its line, one colon, two of them, or anything
else. -/
inductive Spot where
  | start
  | colon
  | path
  | inside
deriving Repr, DecidableEq

/-- What stands before a name behind one more mark. -/
def Spot.after (spot : Spot) (c : Char) : Spot :=
  if c == ':' then
    match spot with
    | colon | path => path
    | start | inside => colon
  else inside

/-- Whether a name there can be that of a type. -/
def Spot.allowsType : Spot → Bool
  | start | path => false
  | colon | inside => true

/-- Whether two colons and a capital follow. -/
def leadsToVariant : List Token → Bool
  | .mark ':' :: .mark ':' :: .name (c :: _) :: _ => c.isUpper
  | _ => false

/-- A name on a line. -/
structure Mention where
  name : List Char
  called : Bool
  /-- Whether it names a type. -/
  typed : Bool
deriving Repr, DecidableEq

/-- The names among some tokens. -/
def mentionsFrom (spot : Spot) : List Token → List Mention
  | [] => []
  | .name text :: rest =>
      ⟨text, rest.head? == some (.mark '('), spot.allowsType && !leadsToVariant rest⟩ ::
        mentionsFrom .inside rest
  | .mark c :: rest => mentionsFrom (spot.after c) rest

/-- The names on a line. -/
def mentions (line : String) : List Mention :=
  mentionsFrom .start (tokens line)

theorem mentions_indent (level : Nat) (text : String) :
    mentions (indent level text) = mentions text := by
  rw [mentions, tokens_indent, mentions]

/-! ## Comments -/

theorem tokensFrom_comment (chars : List Char) : tokensFrom [] ('/' :: '/' :: chars) = [] :=
  rfl

theorem mentions_comment (chars : List Char) :
    mentions (String.ofList ('/' :: '/' :: chars)) = [] := by
  rw [mentions, tokens_ofList, tokensFrom_comment]
  rfl

theorem mentions_comment_append (chars : List Char) (rest : String) :
    mentions (String.ofList ('/' :: '/' :: chars) ++ rest) = [] := by
  rw [mentions, tokens, String.toList_append, String.toList_ofList, List.cons_append,
    List.cons_append, tokensFrom_comment]
  rfl

/-! ## Mentions in templates -/

/-- Whether a parenthesis may follow once the holes are filled. -/
def mayBeCalled : List Token → Bool
  | .mark c :: _ => c == '(' || c == '@'
  | _ => false

/-- The names of a template, each used as widely as its holes allow. -/
def fixedMentions (spot : Spot) : List Token → List Mention
  | [] => []
  | .name text :: rest =>
      ⟨text, mayBeCalled rest, spot.allowsType && !leadsToVariant rest⟩ ::
        fixedMentions .inside rest
  | .mark c :: rest => fixedMentions (if c == '@' then .inside else spot.after c) rest

/-- How the words in the holes of a template may be used: whether they are called, and whether
they name types. -/
def holes (spot : Spot) : List Token → List (Bool × Bool)
  | [] => []
  | .name _ :: rest => holes .inside rest
  | .mark c :: rest =>
      if c == '@' then (mayBeCalled rest, spot.allowsType) :: holes .inside rest
      else holes (spot.after c) rest

/-- Spots of a template, and what they may be once its holes are filled. -/
def Spot.Covers : Spot → Spot → Prop
  | start, filled => filled = start
  | colon, filled => filled = colon ∨ filled = path
  | path, filled => filled = path
  | inside, _ => True

theorem Spot.Covers.after {spot filled : Spot} (h : spot.Covers filled) (c : Char) :
    (spot.after c).Covers (filled.after c) := by
  unfold Spot.after
  split
  · cases spot <;> cases filled <;> simp_all [Covers]
  · exact trivial

theorem Spot.Covers.allowsType {spot filled : Spot} (h : spot.Covers filled)
    (hfilled : filled.allowsType = true) : spot.allowsType = true := by
  cases spot <;> cases filled <;> simp_all [Covers, Spot.allowsType]

section Fill

variable {words : List (List Char)}

theorem mayBeCalled_of_fillWords {template : List Token}
    (h : (fillWords template words).head? = some (.mark '(')) : mayBeCalled template = true := by
  cases template with
  | nil => cases h
  | cons token template =>
      cases hhole : token == .mark '@' with
      | true =>
          obtain rfl := beq_iff_eq.mp hhole
          rfl
      | false =>
          rw [fillWords_token hhole, List.head?_cons] at h
          obtain rfl := Option.some.inj h
          rfl

theorem leadsToVariant_fillWords {template : List Token} (h : leadsToVariant template = true) :
    leadsToVariant (fillWords template words) = true := by
  unfold leadsToVariant at h
  split at h
  next => cases words <;> exact h
  next => cases h

end Fill

/-- Properties of names that become weaker the less a name is used. -/
def Weakens (P : Mention → Prop) : Prop :=
  ∀ ⦃name called typed called' typed'⦄, P ⟨name, called, typed⟩ →
    (called' = true → called = true) → (typed' = true → typed = true) → P ⟨name, called', typed'⟩

/-- What holds of the names of a template and of the words in its holes holds once it is
filled. -/
theorem forall_mentionsFrom_fillWords {P : Mention → Prop} (hP : Weakens P)
    (template : List Token) : ∀ (spot filled : Spot) (words : List (List Char)),
      spot.Covers filled → (∀ m ∈ fixedMentions spot template, P m) →
        List.Forall₂ (fun hole word => P ⟨word, hole.1, hole.2⟩) (holes spot template) words →
          ∀ m ∈ mentionsFrom filled (fillWords template words), P m := by
  induction template with
  | nil =>
      intro _ _ _ _ _ _ m hm
      cases hm
  | cons token template ih =>
      intro spot filled words hspot hfixed hholes
      cases token with
      | name text =>
          have hfill : fillWords (.name text :: template) words =
              .name text :: fillWords template words :=
            fillWords_token rfl template words
          rw [fixedMentions, List.forall_mem_cons] at hfixed
          rw [hfill, mentionsFrom, List.forall_mem_cons]
          refine ⟨hP hfixed.1 ?_ ?_, ih .inside .inside words trivial hfixed.2 hholes⟩
          · exact fun hcalled => mayBeCalled_of_fillWords (beq_iff_eq.mp hcalled)
          · intro htyped
            rw [Bool.and_eq_true, Bool.not_eq_true'] at htyped
            rw [Bool.and_eq_true, Bool.not_eq_true', hspot.allowsType htyped.1]
            refine ⟨rfl, Bool.eq_false_iff.mpr fun hvariant => ?_⟩
            rw [leadsToVariant_fillWords hvariant] at htyped
            cases htyped.2
      | mark c =>
          rw [fixedMentions] at hfixed
          rw [holes] at hholes
          by_cases hc : c = '@'
          · subst hc
            rw [if_pos (beq_self_eq_true _)] at hfixed hholes
            cases hholes with
            | @cons _ word _ words hword hholes =>
                rw [fillWords_hole, nameToken]
                split
                · exact ih .inside filled words trivial hfixed hholes
                · rw [List.singleton_append, mentionsFrom, List.forall_mem_cons]
                  refine ⟨hP hword ?_ ?_, ih .inside .inside words trivial hfixed hholes⟩
                  · exact fun hcalled => mayBeCalled_of_fillWords (beq_iff_eq.mp hcalled)
                  · exact fun htyped => hspot.allowsType (Bool.and_eq_true_iff.mp htyped).1
          · have hne : (c == '@') = false := beq_false_of_ne hc
            have hfill : fillWords (.mark c :: template) words =
                .mark c :: fillWords template words :=
              fillWords_token (by simpa using hc) template words
            rw [hne, if_neg Bool.false_ne_true] at hfixed hholes
            rw [hfill, mentionsFrom]
            exact ih (spot.after c) (filled.after c) words (hspot.after c) hfixed hholes

/-- The same for a line, by the text of its template. -/
theorem forall_mentions_of_fill {P : Mention → Prop} (hP : Weakens P) {template : List Char}
    {line : String} {words : List (List Char)} (hline : line.toList = fill template words)
    (htemplate : isTemplate false template = true)
    (hwords : ∀ word ∈ words, ∀ c ∈ word, isNameChar c = true)
    (hfixed : ∀ m ∈ fixedMentions .start (tokensFrom [] template), P m)
    (hholes : List.Forall₂ (fun hole word => P ⟨word, hole.1, hole.2⟩)
      (holes .start (tokensFrom [] template)) words) : ∀ m ∈ mentions line, P m := by
  rw [mentions, tokens_of_words hline htemplate hwords, tokens_ofList]
  exact forall_mentionsFrom_fillWords hP _ .start .start words rfl hfixed hholes

end CommandSet
