import CommandSet.Proofs.Schema.Quoting

/-!
# Escape pairs of quoted descriptions

Between its quotes a description is a sequence of ordinary characters and of pairs, a
backslash with the character after it.  The reader of quoted texts takes it apart in
this way.  The escapes, however, are replaced one kind after the other throughout the
text, so that the second backslash of an escaped backslash is taken for the first half
of an escape when {lit}`n` or {lit}`t` follows.

Main definitions:

- {lit}`Piece`, {lit}`piecesOf`: the characters and pairs of a quoted text, from the left.
- {lit}`Piece.value`: what a piece stands for.
- {lit}`decoded`: what the pieces of a description become.
- {lit}`Misread`: an escaped backslash in front of {lit}`n` or {lit}`t`.

Main results:

- Theorem {lit}`reads_string_iff`: which quoted texts are read.
- Theorem {lit}`unescape_eq_replaced`: the three replacements as one pass.
- Theorem {lit}`describe_quoted`: the description of every quoted text, and when it is
  what its pieces stand for.
-/

namespace CommandSet
namespace Schema

/-! ## Pieces -/

/-- An ordinary character of a quoted text, or a backslash with the character after it. -/
inductive Piece where
  | plain (c : Char)
  | pair (c : Char)
deriving Repr, DecidableEq

namespace Piece

/-- The piece as written. -/
def chars : Piece → List Char
  | plain c => [c]
  | pair c => ['\\', c]

/-- Ordinary characters are neither quotes nor backslashes. -/
def Legal : Piece → Prop
  | plain c => c ≠ '"' ∧ c ≠ '\\'
  | pair _ => True

instance (piece : Piece) : Decidable piece.Legal :=
  match piece with
  | plain c => inferInstanceAs (Decidable (c ≠ '"' ∧ c ≠ '\\'))
  | pair _ => inferInstanceAs (Decidable True)

/-- What the piece stands for: a pair that is no escape stands for itself. -/
def value : Piece → List Char
  | plain c => [c]
  | pair c => ((escapes.lookup c).map ([·])).getD ['\\', c]

theorem value_plain (c : Char) : (plain c).value = [c] :=
  rfl

theorem value_slash : (pair '\\').value = ['\\', '\\'] :=
  rfl

end Piece

/-- The pieces of a quoted text, from the left. -/
def piecesOf : List Char → List Piece
  | '\\' :: c :: rest => .pair c :: piecesOf rest
  | c :: rest => .plain c :: piecesOf rest
  | [] => []

/-- A text is its pieces. -/
theorem flatMap_chars_piecesOf (text : List Char) : (piecesOf text).flatMap Piece.chars = text := by
  induction text using piecesOf.induct with
  | case1 c rest ih => simp [piecesOf, Piece.chars, ih]
  | case2 c rest hpair ih =>
      rw [piecesOf.eq_2 c rest hpair]
      simp [Piece.chars, ih]
  | case3 => rfl

/-- The pieces up to the closing quote are legal. -/
theorem legal_quotedSpan (text : List Char) :
    ∀ piece ∈ piecesOf (Grammar.quotedSpan text), piece.Legal := by
  induction text using Grammar.quotedSpan.induct with
  | case1 => simp [Grammar.quotedSpan, piecesOf]
  | case2 c rest ih => simpa [Grammar.quotedSpan, piecesOf, Piece.Legal] using ih
  | case3 => simp [Grammar.quotedSpan, piecesOf]
  | case4 c rest hquote hpair hlast ih =>
      have hslash : c ≠ '\\' := by
        rintro rfl
        cases rest with
        | nil => exact hlast rfl rfl
        | cons d rest => exact hpair d rest rfl rfl
      have hpieces : piecesOf (c :: Grammar.quotedSpan rest) =
          .plain c :: piecesOf (Grammar.quotedSpan rest) :=
        piecesOf.eq_2 c _ fun _ _ hc _ => hslash hc
      rw [Grammar.quotedSpan.eq_4 c rest hquote hpair hlast, hpieces, List.forall_mem_cons]
      exact ⟨⟨hquote, hslash⟩, ih⟩
  | case5 => simp [Grammar.quotedSpan, piecesOf]

theorem quotedSpan_isPrefix (text : List Char) : Grammar.quotedSpan text <+: text := by
  induction text using Grammar.quotedSpan.induct with
  | case1 | case3 | case5 => simp [Grammar.quotedSpan]
  | case2 c rest ih => simpa [Grammar.quotedSpan, List.cons_prefix_cons] using ih
  | case4 c rest hquote hpair hlast ih =>
      rw [Grammar.quotedSpan.eq_4 c rest hquote hpair hlast, List.cons_prefix_cons]
      exact ⟨rfl, ih⟩

/-- Legal pieces in front of a quote are all that stands before it. -/
theorem quotedSpan_flatMap_chars {pieces : List Piece} (h : ∀ piece ∈ pieces, piece.Legal)
    (rest : List Char) :
    Grammar.quotedSpan (pieces.flatMap Piece.chars ++ '"' :: rest) =
      pieces.flatMap Piece.chars := by
  induction pieces with
  | nil => rfl
  | cons piece pieces ih =>
      obtain ⟨hpiece, hpieces⟩ := List.forall_mem_cons.mp h
      cases piece with
      | plain c =>
          obtain ⟨hquote, hslash⟩ := hpiece
          have hstep : Grammar.quotedSpan (c :: (pieces.flatMap Piece.chars ++ '"' :: rest)) =
              c :: Grammar.quotedSpan (pieces.flatMap Piece.chars ++ '"' :: rest) :=
            Grammar.quotedSpan.eq_4 c _ hquote (fun _ _ hc _ => hslash hc)
              fun hc _ => hslash hc
          simp only [List.flatMap_cons, Piece.chars, List.cons_append, List.nil_append, hstep,
            ih hpieces]
      | pair c =>
          simp only [List.flatMap_cons, Piece.chars, List.cons_append, List.nil_append,
            Grammar.quotedSpan, ih hpieces]

/-! ## Quoted texts -/

/-- A reader reads one thing off a text. -/
theorem Reads.unique {α : Type} {r : Reader α} {text rest rest' : List Char} {a a' : α}
    (h : Reads r text a rest) (h' : Reads r text a' rest') : a = a' ∧ rest = rest' := by
  obtain ⟨_, _, heq⟩ := h 0 Attempts.none
  obtain ⟨_, _, heq'⟩ := h' 0 Attempts.none
  have hpair := (Prod.mk.inj (heq.symm.trans heq')).1
  simp only [Option.some.injEq, Prod.mk.injEq, Cursor.mk.injEq] at hpair
  exact ⟨hpair.1, hpair.2.2⟩

/-- What is refused is not read. -/
theorem Refuses.not_reads {α : Type} {r : Reader α} {text rest : List Char} {a : α}
    (h : Refuses r text) : ¬Reads r text a rest := by
  intro h'
  obtain ⟨_, heq⟩ := h 0 Attempts.none
  obtain ⟨_, _, heq'⟩ := h' 0 Attempts.none
  exact nomatch (Prod.mk.inj (heq.symm.trans heq')).1

/-- The reader of what stands between the quotes. -/
private theorem reads_stringInner (text : List Char) :
    Reads (Reader.named .stringInner <| Reader.plain fun rest =>
        let span := Grammar.quotedSpan rest
        some (span, span.length)) text (Grammar.quotedSpan text)
      (text.drop (Grammar.quotedSpan text).length) :=
  Reads.named _ (reads_plain rfl rfl)

/-- A quoted text is read exactly if legal pieces stand between its quotes. -/
theorem reads_string_iff {text inner rest : List Char} :
    Reads Grammar.string text inner rest ↔
      text = '"' :: (inner ++ '"' :: rest) ∧ ∀ piece ∈ piecesOf inner, piece.Legal := by
  have hread {tail rest : List Char}
      (hclose : tail = Grammar.quotedSpan tail ++ '"' :: rest) :
      Reads Grammar.string ('"' :: tail) (Grammar.quotedSpan tail) rest := by
    have hdrop : tail.drop (Grammar.quotedSpan tail).length = '"' :: rest := by
      rw [congrArg (List.drop _) hclose, List.drop_left]
    have hinner := reads_stringInner tail
    rw [hdrop] at hinner
    exact Reads.named _ ((reads_word "\"" tail).bind
      (hinner.bind ((reads_word "\"" rest).bind (reads_pure _ rest))))
  constructor
  · intro h
    by_cases hopen : "\"".toList <+: text
    case neg => exact absurd h ((refuses_word hopen).bind.named _).not_reads
    obtain ⟨tail, rfl⟩ := hopen
    by_cases hclose : "\"".toList <+: tail.drop (Grammar.quotedSpan tail).length
    case neg =>
      exact absurd h <| Refuses.not_reads <| Refuses.named _ <|
        (reads_word "\"" tail).bind_refuses <|
          (reads_stringInner tail).bind_refuses (refuses_word hclose).bind
    obtain ⟨rest', hrest⟩ := hclose
    have htail : tail = Grammar.quotedSpan tail ++ '"' :: rest' :=
      (List.prefix_iff_eq_append.mp (quotedSpan_isPrefix tail)).symm.trans (by rw [← hrest]; rfl)
    obtain ⟨rfl, rfl⟩ := h.unique (hread htail)
    exact ⟨congrArg ('"' :: ·) htail, legal_quotedSpan tail⟩
  · rintro ⟨rfl, hlegal⟩
    have hspan := quotedSpan_flatMap_chars hlegal rest
    rw [flatMap_chars_piecesOf] at hspan
    have hinner := @hread (inner ++ '"' :: rest) rest (by rw [hspan])
    rwa [hspan] at hinner

/-! ## Replacing in one pass -/

/-- The text with the given escapes, a letter and the character it stands for, replaced
wherever a backslash stands in front of such a letter. -/
def replaced (escapes : List (Char × Char)) : List Char → List Char
  | '\\' :: c :: rest =>
      match escapes.lookup c with
      | some d => d :: replaced escapes rest
      | none => '\\' :: replaced escapes (c :: rest)
  | c :: rest => c :: replaced escapes rest
  | [] => []

theorem replaced_cons {escapes : List (Char × Char)} {c : Char} (hc : c ≠ '\\')
    (rest : List Char) : replaced escapes (c :: rest) = c :: replaced escapes rest :=
  replaced.eq_2 escapes c rest fun _ _ heq _ => hc heq

theorem replaced_nil (text : List Char) : replaced [] text = text := by
  induction text using replaced.induct [] with
  | case1 c rest v hv => simp at hv
  | case2 c rest hnone ih => simpa [replaced] using ih
  | case3 c rest hpair ih => rw [replaced.eq_2 [] c rest hpair, ih]
  | case4 => rfl

section Step

variable {escapes : List (Char × Char)} {letter d : Char}

/-- A replaced text starts with a letter that is no replacement only if it did before. -/
private theorem replaced_cons_starts {c : Char} (hletter : letter ≠ '\\')
    (hvalues : ∀ c v, escapes.lookup c = some v → v ≠ '\\' ∧ v ≠ letter) (hc : c ≠ letter)
    (rest : List Char) : ¬[letter] <+: replaced escapes (c :: rest) := by
  by_cases hslash : c = '\\'
  case neg =>
    rw [replaced_cons hslash, List.cons_prefix_cons]
    exact fun h => hc h.1.symm
  subst hslash
  cases rest with
  | nil => simpa [replaced, List.cons_prefix_cons] using hletter
  | cons e rest =>
      cases he : escapes.lookup e with
      | none => simpa [replaced, he, List.cons_prefix_cons] using hletter
      | some v => simpa [replaced, he, List.cons_prefix_cons] using (hvalues e v he).2.symm

/-- Replacing one more kind of escape afterwards is replacing it in the same pass, if its
letter is none of those already replaced and no replacement looks like a part of it. -/
theorem replaceAll_replaced (hletter : letter ≠ '\\') (hnew : escapes.lookup letter = none)
    (hvalues : ∀ c v, escapes.lookup c = some v → v ≠ '\\' ∧ v ≠ letter) (text : List Char) :
    Text.replaceAll ['\\', letter] [d] (replaced escapes text) =
      replaced (escapes ++ [(letter, d)]) text := by
  have hkept {c : Char} {text : List Char} (hc : c ≠ '\\') : ¬['\\', letter] <+: c :: text := by
    rw [List.cons_prefix_cons]
    exact fun h => hc h.1.symm
  induction text using replaced.induct escapes with
  | case1 c rest v hv ih =>
      have hv' : (escapes ++ [(letter, d)]).lookup c = some v := by
        simp [List.lookup_append, hv]
      simp only [replaced, hv, hv']
      rw [Text.replaceAll_cons (hkept (hvalues c v hv).1), ih]
  | case2 c rest hnone ih =>
      by_cases hc : c = letter
      -- The pair is the escape that is replaced now; the pass goes on behind it.
      · subst hc
        have hd : (escapes ++ [(c, d)]).lookup c = some d := by
          simp [List.lookup_append, hnew]
        rw [replaced_cons hletter, replaced_cons hletter, Text.replaceAll_cons (hkept hletter),
          List.cons.injEq] at ih
        simp only [replaced, hnone, hd]
        rw [replaced_cons hletter, ← ih.2]
        exact @Text.replaceAll_append ['\\', c] [d] (List.cons_ne_nil _ _) _
      · have hnone' : (escapes ++ [(letter, d)]).lookup c = none := by
          simp [List.lookup_append, hnone, List.lookup_singleton, beq_false_of_ne hc]
        simp only [replaced, hnone, hnone']
        rw [Text.replaceAll_cons, ih]
        rw [List.cons_prefix_cons]
        exact fun h => replaced_cons_starts hletter hvalues hc rest h.2
  | case3 c rest hpair ih =>
      rw [replaced.eq_2 escapes c rest hpair, replaced.eq_2 _ c rest hpair, Text.replaceAll_cons,
        ih]
      by_cases hc : c = '\\'
      case neg => exact hkept hc
      cases rest with
      | nil => simp [replaced, List.cons_prefix_cons]
      | cons e rest => exact absurd rfl (hpair e rest hc)
  | case4 => exact Text.replaceAll_nil (List.cons_ne_nil _ _)

end Step

/-- The three replacements are one pass. -/
theorem unescape_eq_replaced (text : List Char) :
    unescape text = String.ofList (replaced escapes text) := by
  have hnewline := @replaceAll_replaced [] 'n' '\n' (by decide) rfl (by simp) text
  have htab := @replaceAll_replaced [('n', '\n')] 't' '\t' (by decide) (by decide) (by grind) text
  have hquote := @replaceAll_replaced [('n', '\n'), ('t', '\t')] '"' '"' (by decide) (by decide)
    (by grind) text
  rw [replaced_nil, List.nil_append] at hnewline
  rw [unescape, hnewline, htab]
  exact congrArg String.ofList hquote

/-! ## What the pieces become -/

/-- What the pieces of a description become: behind an escaped backslash the next
ordinary character is taken for the second half of a pair. -/
def decoded : List Piece → List Char
  | .pair '\\' :: .plain c :: rest => '\\' :: ((Piece.pair c).value ++ decoded rest)
  | piece :: rest => piece.value ++ decoded rest
  | [] => []

/-- An escaped backslash stands in front of {lit}`n` or {lit}`t`. -/
def Misread (pieces : List Piece) : Prop :=
  ∃ c ∈ ['n', 't'], [.pair '\\', .plain c] <:+: pieces

private theorem replaced_pair {c : Char} (hc : c ≠ '\\') (rest : List Char) :
    replaced escapes ('\\' :: c :: rest) = (Piece.pair c).value ++ replaced escapes rest := by
  rw [replaced, Piece.value]
  cases escapes.lookup c with
  | none => simp [replaced_cons hc]
  | some d => rfl

private theorem replaced_slash (rest : List Char) :
    replaced escapes ('\\' :: '\\' :: rest) = '\\' :: replaced escapes ('\\' :: rest) := by
  have hslash : escapes.lookup '\\' = none := by decide
  simp only [replaced, hslash]

/-- The pass over a quoted text, piece by piece. -/
theorem replaced_flatMap_chars {pieces : List Piece} (h : ∀ piece ∈ pieces, piece.Legal) :
    replaced escapes (pieces.flatMap Piece.chars) = decoded pieces := by
  induction pieces using decoded.induct with
  | case1 c rest ih =>
      obtain ⟨-, hc, hrest⟩ := by simpa only [List.forall_mem_cons] using h
      simp only [decoded, List.flatMap_cons, Piece.chars, List.cons_append, List.nil_append,
        replaced_slash, replaced_pair hc.2, ih hrest]
  | case2 piece rest hpair ih =>
      obtain ⟨hpiece, hrest⟩ := List.forall_mem_cons.mp h
      rw [decoded.eq_2 piece rest hpair, ← ih hrest, List.flatMap_cons]
      cases piece with
      | plain c => exact replaced_cons hpiece.2 _
      | pair c =>
          by_cases hc : c = '\\'
          case neg => exact replaced_pair hc _
          subst hc
          -- Behind an escaped backslash there is nothing or another pair.
          cases rest with
          | nil => rfl
          | cons next rest =>
              cases next with
              | plain e => exact absurd rfl (hpair e rest rfl)
              | pair e =>
                  simp only [List.flatMap_cons, Piece.chars, List.cons_append, List.nil_append,
                    replaced_slash]
                  rfl
  | case3 => rfl

/-- What a pair stands for if its letter is not misread behind an escaped backslash. -/
private theorem value_pair_of_legal {c : Char} (hc : c ≠ '"') (hletter : c ∉ ['n', 't']) :
    (Piece.pair c).value = ['\\', c] := by
  have hlookup : escapes.lookup c = none := by
    simp only [List.mem_cons, List.not_mem_nil, or_false, not_or] at hletter
    simp [escapes, List.lookup_cons, beq_false_of_ne hletter.1, beq_false_of_ne hletter.2,
      beq_false_of_ne hc]
  rw [Piece.value, hlookup]
  rfl

private theorem length_value_pair {c : Char} (hletter : c ∈ ['n', 't']) :
    (Piece.pair c).value.length = 1 := by
  simp only [List.mem_cons, List.not_mem_nil, or_false] at hletter
  rcases hletter with rfl | rfl <;> rfl

/-- Misreading loses characters. -/
theorem length_decoded_le {pieces : List Piece} (h : ∀ piece ∈ pieces, piece.Legal) :
    (decoded pieces).length ≤ (pieces.flatMap Piece.value).length := by
  induction pieces using decoded.induct with
  | case1 c rest ih =>
      obtain ⟨-, hc, hrest⟩ := by simpa only [List.forall_mem_cons] using h
      have hvalue : (Piece.pair c).value.length ≤ 2 := by
        rw [Piece.value]
        cases escapes.lookup c <;> simp
      have := ih hrest
      simp only [decoded, List.flatMap_cons, Piece.value_slash, Piece.value_plain,
        List.length_append, List.length_cons, List.length_nil]
      omega
  | case2 piece rest hpair ih =>
      rw [decoded.eq_2 piece rest hpair, List.flatMap_cons, List.length_append, List.length_append]
      exact Nat.add_le_add_left (ih (List.forall_mem_cons.mp h).2) _
  | case3 => exact Nat.le_refl _

theorem misread_cons {piece : Piece} {rest : List Piece} :
    Misread (piece :: rest) ↔
      (∃ c ∈ ['n', 't'], [.pair '\\', .plain c] <+: piece :: rest) ∨ Misread rest := by
  simp only [Misread, List.infix_cons_iff, and_or_left, exists_or]

/-- Only a misread letter is decoded in another way than its piece says. -/
theorem decoded_eq_iff {pieces : List Piece} (h : ∀ piece ∈ pieces, piece.Legal) :
    decoded pieces = pieces.flatMap Piece.value ↔ ¬Misread pieces := by
  induction pieces using decoded.induct with
  | case1 c rest ih =>
      obtain ⟨-, hc, hrest⟩ := by simpa only [List.forall_mem_cons] using h
      have hfirst : (∃ c' ∈ ['n', 't'], [Piece.pair '\\', .plain c'] <+:
          .pair '\\' :: .plain c :: rest) ↔ c ∈ ['n', 't'] := by
        simp [List.cons_prefix_cons]
      have hsecond : Misread (.plain c :: rest) ↔ Misread rest := by
        simp [misread_cons, List.cons_prefix_cons]
      rw [misread_cons, hfirst, hsecond]
      by_cases hletter : c ∈ ['n', 't']
      · refine iff_of_false (fun heq => ?_) (not_not_intro (.inl hletter))
        have hlength := congrArg List.length heq
        have := length_decoded_le hrest
        simp only [decoded, List.flatMap_cons, Piece.value_slash, Piece.value_plain,
          List.length_append, List.length_cons, List.length_nil, length_value_pair hletter]
          at hlength
        omega
      · rw [or_iff_right hletter, ← ih hrest]
        simp [decoded, value_pair_of_legal hc.1 hletter, Piece.value_slash, Piece.value_plain]
  | case2 piece rest hpair ih =>
      have hfirst : ¬∃ c ∈ ['n', 't'], [Piece.pair '\\', .plain c] <+: piece :: rest := by
        rintro ⟨c, -, tail, htail⟩
        obtain ⟨rfl, rfl⟩ := List.cons.inj htail
        exact hpair c tail rfl rfl
      rw [decoded.eq_2 piece rest hpair, List.flatMap_cons, List.append_cancel_left_eq,
        ih (List.forall_mem_cons.mp h).2, misread_cons, or_iff_right hfirst]
  | case3 => simp [decoded, Misread]

/-- The description of every quoted text, and when it is what its pieces stand for. -/
theorem describe_quoted {text inner rest : List Char} (h : Reads Grammar.string text inner rest) :
    text = '"' :: (inner ++ '"' :: rest) ∧ (∀ piece ∈ piecesOf inner, piece.Legal) ∧
      (piecesOf inner).flatMap Piece.chars = inner ∧
      describe (some inner) = String.ofList (decoded (piecesOf inner)) ∧
      (describe (some inner) = String.ofList ((piecesOf inner).flatMap Piece.value) ↔
        ¬Misread (piecesOf inner)) := by
  obtain ⟨htext, hlegal⟩ := reads_string_iff.mp h
  have hchars := flatMap_chars_piecesOf inner
  have hdecoded : describe (some inner) = String.ofList (decoded (piecesOf inner)) := by
    rw [← replaced_flatMap_chars hlegal, hchars, ← unescape_eq_replaced]
    rfl
  refine ⟨htext, hlegal, hchars, hdecoded, ?_⟩
  rw [hdecoded, String.ofList_inj, decoded_eq_iff hlegal]

/-- Behind an escaped quote and an escaped backslash everything is as written. -/
theorem describe_quoted_path :
    Reads Grammar.string "\"\\\"a\\\\b\\n\";".toList "\\\"a\\\\b\\n".toList [';'] ∧
      describe (some "\\\"a\\\\b\\n".toList) = "\"a\\\\b\n" := by
  have h : Reads Grammar.string "\"\\\"a\\\\b\\n\";".toList "\\\"a\\\\b\\n".toList [';'] :=
    reads_string_iff.mpr ⟨rfl, by decide⟩
  obtain ⟨-, -, -, hdecoded, -⟩ := describe_quoted h
  exact ⟨h, hdecoded.trans (by decide)⟩

/-- In the description of two backslashes and {lit}`n` the escaped backslash loses a
backslash, and the letter becomes a newline. -/
theorem describe_misread_newline :
    Reads Grammar.string "\"\\\\n\"".toList "\\\\n".toList [] ∧
      piecesOf "\\\\n".toList = [.pair '\\', .plain 'n'] ∧
      describe (some "\\\\n".toList) = "\\\n" ∧
      ¬∀ text inner rest, Reads Grammar.string text inner rest →
        describe (some inner) = String.ofList ((piecesOf inner).flatMap Piece.value) := by
  have h : Reads Grammar.string "\"\\\\n\"".toList "\\\\n".toList [] :=
    reads_string_iff.mpr ⟨rfl, by decide⟩
  have hdescribe : describe (some "\\\\n".toList) = "\\\n" := by
    rw [describe, Option.map_some, Option.getD_some, unescape_eq_replaced]
    decide
  refine ⟨h, by decide, hdescribe, fun hall => ?_⟩
  have hpairs := hdescribe.symm.trans (hall _ _ _ h)
  exact absurd hpairs (by decide)

end Schema
end CommandSet
