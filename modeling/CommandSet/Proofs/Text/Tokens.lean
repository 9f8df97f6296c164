import CommandSet.Proofs.Text.Words

/-!
# Tokens of Rust code

A line of Rust code is read as names and marks.  The lines of generated code are templates in
which names fill holes; as long as no hole touches a name, their tokens are those of the
template with the names in place, and the names are read back.

Main definitions:

- {lit}`Token`, {lit}`tokens`: the names and marks on a line of code.
- {lit}`fill`, {lit}`fillWords`, {lit}`fillTokens`: a template, as text and as tokens, with
  its holes filled.
- {lit}`Filled`: a text that is put together from the parts of a template and words.
- {lit}`readFront?`, {lit}`read?`: the names with which tokens start with, or are, a template.

Main results:

- Theorem {lit}`tokens_of_fill`: the tokens of a line that fills a template.
- Theorem {lit}`read_of_fill`: the names are read back.
-/

namespace CommandSet

/-! ## Tokens -/

/-- A name, or a character that stands for itself. -/
inductive Token where
  | name (text : List Char)
  | mark (c : Char)
deriving Repr, DecidableEq

/-- Letters, digits and the underscore. -/
def isNameChar (c : Char) : Bool :=
  c.isAlphanum || c == '_'

/-- The name made of some characters, if there are any. -/
def nameToken (chars : List Char) : List Token :=
  if chars.isEmpty then [] else [.name chars]

/-- The tokens of a text; {lit}`seen` holds the characters of the name being read, in reverse.
Two slashes start a comment. -/
def tokensFrom (seen : List Char) : List Char → List Token
  | [] => nameToken seen.reverse
  | c :: rest =>
      if isNameChar c then tokensFrom (c :: seen) rest
      else if c == '/' && rest.head? == some '/' then nameToken seen.reverse
      else nameToken seen.reverse ++ (if c == ' ' then [] else [.mark c]) ++ tokensFrom [] rest

/-- The tokens of a line. -/
def tokens (line : String) : List Token :=
  tokensFrom [] line.toList

theorem tokensFrom_append {word : List Char} (h : ∀ c ∈ word, isNameChar c = true)
    (seen rest : List Char) :
    tokensFrom seen (word ++ rest) = tokensFrom (word.reverse ++ seen) rest := by
  induction word generalizing seen with
  | nil => rfl
  | cons c word ih =>
      rw [List.forall_mem_cons] at h
      rw [List.cons_append, tokensFrom, if_pos h.1, ih h.2, List.reverse_cons, List.append_assoc]
      rfl

/-- A name ends where no character of a name follows. -/
theorem tokensFrom_of_head {rest : List Char} (h : rest.head?.all (!isNameChar ·) = true)
    (seen : List Char) : tokensFrom seen rest = nameToken seen.reverse ++ tokensFrom [] rest := by
  cases rest with
  | nil => simp [tokensFrom, nameToken]
  | cons c rest =>
      have hc : ¬isNameChar c = true := by simpa using h
      have hnone : nameToken ([] : List Char).reverse = [] := rfl
      rw [tokensFrom, tokensFrom, if_neg hc, if_neg hc, hnone]
      split
      · rw [List.append_nil]
      · rw [List.append_assoc, List.nil_append]

/-- Blanks are no tokens. -/
theorem tokens_indent (level : Nat) (text : String) : tokens (indent level text) = tokens text := by
  rw [tokens, toList_indent]
  induction 4 * level with
  | zero => rfl
  | succ n ih =>
      rw [List.replicate_succ, List.cons_append, ← ih]
      rfl

/-! ## Names -/

/-- Characters that are one name. -/
structure IsLexeme (chars : List Char) : Prop where
  nonempty : chars ≠ []
  names : ∀ c ∈ chars, isNameChar c = true

theorem IsWord.isLexeme {word : String} (h : IsWord word) (hne : word.toList ≠ []) :
    IsLexeme word.toList :=
  ⟨hne, fun c hc => isNameRest_iff.mpr (h c hc)⟩

/-- A fixed text is checked character by character. -/
theorem IsLexeme.fixed {chars : List Char} (h : (!chars.isEmpty && chars.all isNameChar) = true) :
    IsLexeme (String.ofList chars).toList := by
  rw [Bool.and_eq_true, Bool.not_eq_true', List.isEmpty_eq_false_iff, List.all_eq_true] at h
  rw [String.toList_ofList]
  exact ⟨h.1, h.2⟩

theorem IsLexeme.nameToken {chars : List Char} (h : IsLexeme chars) :
    nameToken chars = [.name chars] := by
  have hne : chars.isEmpty = false := List.isEmpty_eq_false_iff.mpr h.nonempty
  rw [CommandSet.nameToken, hne, if_neg Bool.false_ne_true]

theorem isLexeme_toString (n : Nat) : IsLexeme (toString n).toList := by
  refine (isWord_toString n).isLexeme ?_
  rw [Nat.toString_eq_repr, Nat.toList_repr]
  exact Nat.toDigits_ne_nil

/-! ## Templates -/

/-- A template with names in its holes, which are marked by an at sign. -/
def fill : List Char → List (List Char) → List Char
  | [], _ => []
  | c :: template, [] => c :: fill template []
  | c :: template, word :: words =>
      if c == '@' then word ++ fill template words else c :: fill template (word :: words)

/-- The tokens of a template with names in their holes. -/
def fillTokens : List Token → List (List Char) → List Token
  | [], _ => []
  | token :: template, [] => token :: fillTokens template []
  | token :: template, word :: words =>
      if token == .mark '@' then .name word :: fillTokens template words
      else token :: fillTokens template (word :: words)

/-- The tokens of a template with words in its holes, where an empty word leaves nothing. -/
def fillWords : List Token → List (List Char) → List Token
  | [], _ => []
  | token :: template, [] => token :: fillWords template []
  | token :: template, word :: words =>
      if token == .mark '@' then nameToken word ++ fillWords template words
      else token :: fillWords template (word :: words)

/-- Whether no hole touches a name or another hole, and there is no comment;
{lit}`afterName` says whether a name stands before. -/
def isTemplate (afterName : Bool) : List Char → Bool
  | [] => true
  | c :: rest =>
      if c == '@' then
        !afterName && rest.head?.all (fun d => !isNameChar d && d != '@') && isTemplate false rest
      else c != '/' && isTemplate (isNameChar c) rest

theorem fill_nil (template : List Char) : fill template [] = template := by
  induction template with
  | nil => rfl
  | cons c template ih => rw [fill, ih]

theorem fill_hole (template word : List Char) (words : List (List Char)) :
    fill ('@' :: template) (word :: words) = word ++ fill template words :=
  rfl

/-- Characters other than holes stay. -/
theorem fill_char {c : Char} (hc : (c == '@') = false) (template : List Char)
    (words : List (List Char)) : fill (c :: template) words = c :: fill template words := by
  cases words with
  | nil => rfl
  | cons word words => rw [fill, hc, if_neg Bool.false_ne_true]

/-- A text template is filled part by part. -/
theorem fill_append {front : List Char} {first : List (List Char)}
    (h : front.count '@' = first.length) (back : List Char) (second : List (List Char)) :
    fill (front ++ back) (first ++ second) = fill front first ++ fill back second := by
  induction front generalizing first with
  | nil =>
      obtain rfl := List.length_eq_zero_iff.mp h.symm
      rfl
  | cons c front ih =>
      rw [List.count_cons] at h
      by_cases hhole : c = '@'
      · subst hhole
        rw [beq_self_eq_true, if_pos rfl] at h
        obtain ⟨word, first, rfl⟩ := List.exists_cons_of_length_eq_add_one h.symm
        rw [List.length_cons, Nat.add_right_cancel_iff] at h
        rw [List.cons_append, List.cons_append, fill_hole, fill_hole, ih h, List.append_assoc]
      · have hc : (c == '@') = false := beq_false_of_ne hhole
        rw [hc, if_neg Bool.false_ne_true, Nat.add_zero] at h
        rw [List.cons_append, fill_char hc, fill_char hc, ih h, List.cons_append]

/-- A text that is put together from fixed parts and words, with its template and the words in
the holes of the template. -/
inductive Filled : String → List Char → List (List Char) → Prop where
  | fixed {chars : List Char} (h : chars.contains '@' = false) :
      Filled (String.ofList chars) chars []
  | word (word : String) : Filled word ['@'] [word.toList]
  | append {first second : String} {front back : List Char} {words more : List (List Char)}
      (hfirst : Filled first front words) (hsecond : Filled second back more) :
      Filled (first ++ second) (front ++ back) (words ++ more)

/-- The template has a hole for every word. -/
theorem Filled.count_eq {text : String} {template : List Char} {words : List (List Char)}
    (h : Filled text template words) : template.count '@' = words.length := by
  induction h with
  | fixed h => exact List.count_eq_zero.mpr fun hmem => by simp [hmem] at h
  | word => rfl
  | append _ _ ihfirst ihsecond => rw [List.count_append, List.length_append, ihfirst, ihsecond]

/-- The text is the template with the words in its holes. -/
theorem Filled.toList_eq {text : String} {template : List Char} {words : List (List Char)}
    (h : Filled text template words) : text.toList = fill template words := by
  induction h with
  | fixed => rw [String.toList_ofList, fill_nil]
  | word word => exact (List.append_nil _).symm
  | append hfirst _ ihfirst ihsecond =>
      rw [String.toList_append, ihfirst, ihsecond, fill_append hfirst.count_eq]

theorem fillWords_nil (template : List Token) : fillWords template [] = template := by
  induction template with
  | nil => rfl
  | cons token template ih => rw [fillWords, ih]

theorem fillWords_hole (template : List Token) (word : List Char) (words : List (List Char)) :
    fillWords (.mark '@' :: template) (word :: words) =
      nameToken word ++ fillWords template words :=
  rfl

/-- Tokens other than holes stay. -/
theorem fillWords_token {token : Token} (htoken : (token == .mark '@') = false)
    (template : List Token) (words : List (List Char)) :
    fillWords (token :: template) words = token :: fillWords template words := by
  cases words with
  | nil => rfl
  | cons word words => rw [fillWords, htoken, if_neg Bool.false_ne_true]

/-- The same where the words are names. -/
theorem fillTokens_token {token : Token} (htoken : (token == .mark '@') = false)
    (template : List Token) (words : List (List Char)) :
    fillTokens (token :: template) words = token :: fillTokens template words := by
  cases words with
  | nil => rfl
  | cons word words => rw [fillTokens, htoken, if_neg Bool.false_ne_true]

/-- Where no word is empty, each is a name. -/
theorem fillWords_eq {words : List (List Char)} (h : ∀ word ∈ words, IsLexeme word)
    (template : List Token) : fillWords template words = fillTokens template words := by
  induction template generalizing words with
  | nil => rfl
  | cons token template ih =>
      cases words with
      | nil => rw [fillWords, fillTokens, ih h]
      | cons word words =>
          rw [fillWords, fillTokens, ih h, ih (List.forall_mem_cons.mp h).2,
            (List.forall_mem_cons.mp h).1.nameToken]
          rfl

theorem fillTokens_nil (template : List Token) : fillTokens template [] = template :=
  (fillWords_eq (List.forall_mem_nil _) template).symm.trans (fillWords_nil template)

/-- A template is filled hole by hole. -/
theorem fillTokens_cons (template : List Token) (word : List Char) (words : List (List Char)) :
    fillTokens template (word :: words) = fillTokens (fillTokens template [word]) words := by
  induction template with
  | nil => rfl
  | cons token template ih =>
      cases hhole : token == .mark '@' with
      | true =>
          obtain rfl := beq_iff_eq.mp hhole
          have hname : (Token.name word == .mark '@') = false := rfl
          rw [fillTokens, fillTokens, if_pos hhole, if_pos hhole, fillTokens_nil,
            fillTokens_token hname]
      | false => rw [fillTokens_token hhole, fillTokens_token hhole, fillTokens_token hhole, ih]

/-- A template is filled part by part. -/
theorem fillTokens_append {front : List Token} {first : List (List Char)}
    (h : front.count (.mark '@') = first.length) (back : List Token) (second : List (List Char)) :
    fillTokens (front ++ back) (first ++ second) =
      fillTokens front first ++ fillTokens back second := by
  induction front generalizing first with
  | nil =>
      obtain rfl := List.length_eq_zero_iff.mp h.symm
      rfl
  | cons token front ih =>
      rw [List.count_cons] at h
      by_cases hhole : token = .mark '@'
      · subst hhole
        rw [beq_self_eq_true, if_pos rfl] at h
        obtain ⟨word, first, rfl⟩ := List.exists_cons_of_length_eq_add_one h.symm
        rw [List.length_cons, Nat.add_right_cancel_iff] at h
        exact congrArg (List.cons _) (ih h)
      · have hne : (token == .mark '@') = false := beq_false_of_ne hhole
        rw [hne, if_neg Bool.false_ne_true, Nat.add_zero] at h
        rw [List.cons_append, fillTokens_token hne, fillTokens_token hne, ih h, List.cons_append]

/-- A template between two others is filled on its own, where the last has no holes to fill. -/
theorem fillTokens_between {front inner : List Token} {first second : List (List Char)}
    (hfirst : front.count (.mark '@') = first.length)
    (hsecond : inner.count (.mark '@') = second.length) (back : List Token) :
    fillTokens (front ++ (inner ++ back)) (first ++ second) =
      fillTokens front first ++ (fillTokens inner second ++ back) := by
  have hinner := fillTokens_append hsecond back []
  rw [List.append_nil, fillTokens_nil] at hinner
  rw [fillTokens_append hfirst, hinner]

theorem fillWords_nameToken (chars : List Char) (template : List Token)
    (words : List (List Char)) :
    fillWords (nameToken chars ++ template) words =
      nameToken chars ++ fillWords template words := by
  unfold nameToken
  split
  · rfl
  · exact fillWords_token rfl template words

/-- Behind a hole no character of a name follows, also once the other holes are filled. -/
theorem head?_all_fill {template : List Char}
    (h : template.head?.all (fun d => !isNameChar d && d != '@') = true)
    (words : List (List Char)) : (fill template words).head?.all (!isNameChar ·) = true := by
  cases template with
  | nil => rfl
  | cons d template =>
      rw [List.head?_cons, Option.all_some, Bool.and_eq_true, bne_iff_ne] at h
      have hd : (d == '@') = false := beq_false_of_ne h.2
      rw [fill_char hd, List.head?_cons, Option.all_some, h.1]

/-- The tokens of a filled template are those of the template with the words in place. -/
theorem tokensFrom_fill (template : List Char) : ∀ (seen : List Char) (words : List (List Char)),
    isTemplate (!seen.isEmpty) template = true →
      (∀ word ∈ words, ∀ c ∈ word, isNameChar c = true) →
        tokensFrom seen (fill template words) = fillWords (tokensFrom seen template) words := by
  induction template with
  | nil =>
      intro seen words _ _
      have hname := fillWords_nameToken seen.reverse [] words
      rw [List.append_nil] at hname
      rw [fill, tokensFrom, hname, fillWords, List.append_nil]
  | cons c template ih =>
      intro seen words htemplate hwords
      rw [isTemplate] at htemplate
      split at htemplate
      next hhole =>
        -- a word fills the hole: no name stands before it, and none goes on behind it
        obtain rfl := beq_iff_eq.mp hhole
        simp only [Bool.and_eq_true, Bool.not_not, List.isEmpty_iff] at htemplate
        obtain ⟨⟨rfl, hhead⟩, htemplate⟩ := htemplate
        have hmark : tokensFrom [] ('@' :: template) = .mark '@' :: tokensFrom [] template := rfl
        cases words with
        | nil => rw [fill_nil, fillWords_nil]
        | cons word words =>
            rw [List.forall_mem_cons] at hwords
            rw [fill_hole, tokensFrom_append hwords.1, tokensFrom_of_head (head?_all_fill hhead _),
              List.append_nil, List.reverse_reverse, ih [] words htemplate hwords.2, hmark,
              fillWords_hole]
      next hplain =>
        have hc : (c == '@') = false := Bool.eq_false_iff.mpr hplain
        rw [Bool.and_eq_true, bne_iff_ne] at htemplate
        have hslash : (c == '/') = false := beq_false_of_ne htemplate.1
        have hmark (rest : List Token) :
            fillWords ((if c == ' ' then [] else [Token.mark c]) ++ rest) words =
              (if c == ' ' then [] else [Token.mark c]) ++ fillWords rest words := by
          split
          · rfl
          · exact fillWords_token (by simpa using hplain) rest words
        rw [fill_char hc, tokensFrom, tokensFrom]
        split
        next hname =>
          rw [hname] at htemplate
          exact ih (c :: seen) words htemplate.2 hwords
        next hother =>
          rw [Bool.eq_false_iff.mpr hother] at htemplate
          simp only [hslash, Bool.false_and, Bool.false_eq_true, if_false, List.append_assoc,
            fillWords_nameToken, hmark, ih [] words htemplate.2 hwords]

theorem tokens_ofList (chars : List Char) : tokens (String.ofList chars) = tokensFrom [] chars := by
  rw [tokens, String.toList_ofList]

/-- The tokens of a line that fills a template with words. -/
theorem tokens_of_words {template : List Char} {line : String} {words : List (List Char)}
    (hline : line.toList = fill template words) (htemplate : isTemplate false template = true)
    (hwords : ∀ word ∈ words, ∀ c ∈ word, isNameChar c = true) :
    tokens line = fillWords (tokens (String.ofList template)) words := by
  rw [tokens, hline, tokens_ofList]
  exact tokensFrom_fill template [] words htemplate hwords

/-- The tokens of a line that fills a template with names. -/
theorem tokens_of_fill {template : List Char} {line : String} {words : List (List Char)}
    (hline : line.toList = fill template words) (htemplate : isTemplate false template = true)
    (hwords : ∀ word ∈ words, IsLexeme word) :
    tokens line = fillTokens (tokens (String.ofList template)) words :=
  (tokens_of_words hline htemplate fun word hword => (hwords word hword).names).trans
    (fillWords_eq hwords _)

/-! ## Texts that end in a mark -/

/-- What follows a mark does not change the tokens before it. -/
theorem tokensFrom_append_of_mark {front : List Char} (hslash : '/' ∉ front)
    (hend : front.getLast?.any (!isNameChar ·) = true) (rest : List Char) : ∀ seen,
      tokensFrom seen (front ++ rest) = tokensFrom seen front ++ tokensFrom [] rest := by
  induction front with
  | nil => exact absurd hend (by decide)
  | cons c front ih =>
      intro seen
      rw [List.mem_cons, not_or] at hslash
      have hc : (c == '/') = false := beq_false_of_ne (Ne.symm hslash.1)
      cases front with
      | nil =>
          have hmark : ¬isNameChar c = true := by simpa using hend
          have hnone : tokensFrom [] [] = [] := rfl
          rw [List.singleton_append, tokensFrom, tokensFrom, if_neg hmark, if_neg hmark, hc,
            Bool.false_and, Bool.false_and, if_neg Bool.false_ne_true, if_neg Bool.false_ne_true,
            hnone, List.append_nil]
      | cons d front =>
          rw [List.getLast?_cons_cons] at hend
          have ih := ih hslash.2 hend
          rw [List.cons_append, tokensFrom, tokensFrom, hc, Bool.false_and, Bool.false_and,
            if_neg Bool.false_ne_true, if_neg Bool.false_ne_true]
          split
          · exact ih _
          · simp only [ih, List.append_assoc]

/-- Texts with these tokens, whatever follows them. -/
def Lexes (text : String) (list : List Token) : Prop :=
  ∀ rest, tokensFrom [] (text.toList ++ rest) = list ++ tokensFrom [] rest

theorem Lexes.append {first second : String} {front back : List Token} (hfirst : Lexes first front)
    (hsecond : Lexes second back) : Lexes (first ++ second) (front ++ back) := by
  intro rest
  rw [String.toList_append, List.append_assoc, hfirst, hsecond, List.append_assoc]

theorem Lexes.tokens_eq {text : String} {list : List Token} (h : Lexes text list) :
    tokens text = list := by
  have htext := h []
  rw [List.append_nil] at htext
  exact htext.trans (List.append_nil _)

/-- Whether a template ends in a mark that is no hole. -/
def endsInMark (template : List Char) : Bool :=
  template.getLast?.any fun c => !isNameChar c && c != '@'

theorem fill_append_singleton {c : Char} (hc : c ≠ '@') (template : List Char) :
    ∀ words, fill (template ++ [c]) words = fill template words ++ [c] := by
  have hne : (c == '@') = false := beq_false_of_ne hc
  induction template with
  | nil =>
      intro words
      cases words <;> simp [fill, hne]
  | cons d template ih =>
      intro words
      cases words with
      | nil => simp [fill_nil]
      | cons word words =>
          rw [List.cons_append, fill, fill]
          split
          · rw [ih, List.append_assoc]
          · rw [ih, List.cons_append]

theorem slash_not_mem_fill {template : List Char} : ∀ {afterName : Bool} {words : List (List Char)},
    isTemplate afterName template = true → (∀ word ∈ words, IsLexeme word) →
      '/' ∉ fill template words := by
  induction template with
  | nil =>
      intro _ _ _ _
      exact List.not_mem_nil
  | cons c template ih =>
      intro afterName words htemplate hwords
      rw [isTemplate] at htemplate
      split at htemplate
      next hhole =>
        rw [Bool.and_eq_true] at htemplate
        cases words with
        | nil =>
            rw [fill, List.mem_cons, not_or]
            exact ⟨fun heq => absurd (heq ▸ hhole) (by decide), ih htemplate.2 hwords⟩
        | cons word words =>
            rw [List.forall_mem_cons] at hwords
            rw [fill, if_pos hhole, List.mem_append, not_or]
            exact ⟨fun hmem => absurd (hwords.1.names _ hmem) (by decide), ih htemplate.2 hwords.2⟩
      next hplain =>
        rw [Bool.and_eq_true, bne_iff_ne] at htemplate
        cases words with
        | nil =>
            rw [fill, List.mem_cons, not_or]
            exact ⟨htemplate.1.symm, ih htemplate.2 hwords⟩
        | cons word words =>
            rw [fill, if_neg hplain, List.mem_cons, not_or]
            exact ⟨htemplate.1.symm, ih htemplate.2 hwords⟩

/-- A filled template that ends in a mark keeps its tokens, whatever follows. -/
theorem lexes_of_fill {template : List Char} {line : String} {words : List (List Char)}
    (hline : line.toList = fill template words) (htemplate : isTemplate false template = true)
    (hend : endsInMark template = true) (hwords : ∀ word ∈ words, IsLexeme word) :
    Lexes line (fillTokens (tokens (String.ofList template)) words) := by
  intro rest
  have hslash := slash_not_mem_fill htemplate hwords
  have hlast : (fill template words).getLast?.any (!isNameChar ·) = true := by
    rcases List.eq_nil_or_concat template with rfl | ⟨init, c, rfl⟩
    · exact absurd hend (by decide)
    · have hc : (!isNameChar c && c != '@') = true := by simpa [endsInMark] using hend
      rw [Bool.and_eq_true, bne_iff_ne] at hc
      rw [List.concat_eq_append, fill_append_singleton hc.2]
      simpa using hc.1
  rw [hline, tokensFrom_append_of_mark hslash hlast, tokens_ofList]
  refine congrArg (· ++ _) ((tokensFrom_fill template [] words htemplate ?_).trans
    (fillWords_eq hwords _))
  exact fun word hword => (hwords word hword).names

/-- A fixed text that ends in a mark. -/
theorem Lexes.fixed {chars : List Char}
    (h : (isTemplate false chars && endsInMark chars) = true) :
    Lexes (String.ofList chars) (tokens (String.ofList chars)) := by
  rw [Bool.and_eq_true] at h
  have hline : (String.ofList chars).toList = fill chars [] :=
    String.toList_ofList.trans (fill_nil chars).symm
  have hlexes := lexes_of_fill hline h.1 h.2 (List.forall_mem_nil _)
  rwa [fillTokens_nil] at hlexes

/-! ## Reading -/

/-- The names with which tokens fill those of a template they start with, and what follows. -/
def readFront? : List Token → List Token → Option (List (List Char) × List Token)
  | [], rest => some ([], rest)
  | expected :: template, token :: rest =>
      if expected = .mark '@' then
        match token with
        | .name text => (readFront? template rest).map fun front => (text :: front.1, front.2)
        | .mark _ => none
      else if expected = token then readFront? template rest else none
  | _ :: _, [] => none

/-- The names with which tokens fill those of a template. -/
def read? (template line : List Token) : Option (List (List Char)) :=
  match readFront? template line with
  | some (words, []) => some words
  | _ => none

theorem readFront_hole (text : List Char) (template rest : List Token) :
    readFront? (.mark '@' :: template) (.name text :: rest) =
      (readFront? template rest).map fun front => (text :: front.1, front.2) :=
  rfl

theorem readFront_self {token : Token} (h : token ≠ .mark '@') (template rest : List Token) :
    readFront? (token :: template) (token :: rest) = readFront? template rest := by
  conv => lhs; unfold readFront?
  rw [if_neg h, if_pos rfl]

/-- The names in the holes of a template are read back. -/
theorem readFront_fillTokens (template rest : List Token) : ∀ words : List (List Char),
    template.count (.mark '@') = words.length →
      readFront? template (fillTokens template words ++ rest) = some (words, rest) := by
  induction template with
  | nil =>
      intro words hcount
      obtain rfl := List.length_eq_zero_iff.mp hcount.symm
      rfl
  | cons token template ih =>
      intro words hcount
      rw [List.count_cons] at hcount
      by_cases hhole : token = .mark '@'
      · subst hhole
        rw [beq_self_eq_true, if_pos rfl] at hcount
        obtain ⟨word, words, rfl⟩ := List.exists_cons_of_length_eq_add_one hcount.symm
        rw [List.length_cons, Nat.add_right_cancel_iff] at hcount
        rw [fillTokens, if_pos (beq_self_eq_true _), List.cons_append, readFront_hole,
          ih words hcount, Option.map_some]
      · have hne : (token == .mark '@') = false := beq_false_of_ne hhole
        rw [hne, if_neg Bool.false_ne_true, Nat.add_zero] at hcount
        cases words with
        | nil => rw [fillTokens, List.cons_append, readFront_self hhole, ih [] hcount]
        | cons word words =>
            rw [fillTokens, hne, if_neg Bool.false_ne_true, List.cons_append,
              readFront_self hhole, ih (word :: words) hcount]

theorem read_fillTokens {template : List Token} {words : List (List Char)}
    (hcount : template.count (.mark '@') = words.length) :
    read? template (fillTokens template words) = some words := by
  have hread := readFront_fillTokens template [] words hcount
  rw [List.append_nil] at hread
  rw [read?, hread]

/-- The names with which a line fills a template are read back. -/
theorem read_of_fill {template : List Char} {line : String} {words : List (List Char)}
    (hline : line.toList = fill template words) (htemplate : isTemplate false template = true)
    (hwords : ∀ word ∈ words, IsLexeme word)
    (hcount : (tokensFrom [] template).count (.mark '@') = words.length) :
    read? (tokens (String.ofList template)) (tokens line) = some words := by
  rw [tokens_of_fill hline htemplate hwords, tokens_ofList]
  exact read_fillTokens hcount

end CommandSet
