import CommandSet.Proofs.Text.Mentions
import CommandSet.Proofs.Typed.CodecPairs

/-!
# References in the Rust bridge

A line of a bridge module refers to functions that decode and encode payload structs, to
constants that describe attributes, to payload structs and to functions on numbers of variable
length.  Every line is one of few templates, so what it refers to are the words in its holes.

Main definitions:

- {lit}`ModuleNames`: the names that a module has.
- {lit}`Resolved`: a name that refers to one of them, if it has to.
- {lit}`Fits`: a word whose uses in a hole are resolved.
- {lit}`Pieces`: a line that is put together from fixed parts and words that fit.

Main results:

- Theorems {lit}`Pieces.resolves`, {lit}`resolves_of_tokens`: a line that fills a template
  refers to what the words in its holes refer to.
-/

namespace CommandSet
namespace Typed

/-! ## References -/

/-- Names of functions that decode or encode a payload struct. -/
def IsCodecName (name : List Char) : Prop :=
  ("decode_".toList <+: name ∨ "encode_".toList <+: name) ∧ "_payload".toList <:+ name

/-- Names of functions on numbers of variable length. -/
def IsNumberName (name : List Char) : Prop :=
  name = "vle_decode".toList ∨ name = "vle_encode".toList

/-- Names of constants that describe attributes. -/
def IsTableName (name : List Char) : Prop :=
  "_ATT_DESC".toList <:+ name

/-- Names of payload structs; the type of all payloads is none. -/
def IsStructName (name : List Char) : Prop :=
  "Payload".toList <:+ name ∧ name ≠ "CmdPayload".toList

/-- The names that a module has. -/
structure ModuleNames where
  functions : List (List Char)
  constants : List (List Char)
  structs : List (List Char)
  imports : List (List Char)

/-- A name that a module has if it refers to anything. -/
structure Resolved (names : ModuleNames) (m : Mention) : Prop where
  function : m.called = true → IsCodecName m.name → m.name ∈ names.functions
  number : m.called = true → IsNumberName m.name → m.name ∈ names.imports
  constant : IsTableName m.name → m.name ∈ names.constants
  struct : m.typed = true → IsStructName m.name → m.name ∈ names.structs

/-- Lines whose names a module has. -/
def Resolves (names : ModuleNames) (line : String) : Prop :=
  ∀ m ∈ mentions line, Resolved names m

theorem weakens_resolved (names : ModuleNames) : Weakens (Resolved names) :=
  fun _ _ _ _ _ h hcalled htyped =>
    ⟨fun hc => h.function (hcalled hc), fun hc => h.number (hcalled hc), h.constant,
      fun ht => h.struct (htyped ht)⟩

/-- Names that refer to nothing, told by how they start and end. -/
def harmless (m : Mention) : Bool :=
  !(m.called && (['v', 'l', 'e', '_'].isPrefixOf m.name ||
      ['_', 'p', 'a', 'y', 'l', 'o', 'a', 'd'].isSuffixOf m.name)) &&
    !(['_', 'A', 'T', 'T', '_', 'D', 'E', 'S', 'C'].isSuffixOf m.name) &&
      !(m.typed && (['P', 'a', 'y', 'l', 'o', 'a', 'd'].isSuffixOf m.name &&
        m.name != ['C', 'm', 'd', 'P', 'a', 'y', 'l', 'o', 'a', 'd']))

section Words

variable {names : ModuleNames} {word : List Char} {called typed : Bool}

theorem IsNumberName.isPrefixOf (h : IsNumberName word) :
    ['v', 'l', 'e', '_'].isPrefixOf word = true := by
  rcases h with rfl | rfl <;> rw [String.toList_ofList] <;> rfl

theorem resolved_of_harmless {m : Mention} (h : harmless m = true) : Resolved names m := by
  simp only [harmless, Bool.and_eq_true, Bool.not_eq_true', Bool.and_eq_false_iff,
    Bool.or_eq_false_iff] at h
  obtain ⟨⟨hcalled, hconstant⟩, hstruct⟩ := h
  constructor
  case function =>
    rintro hc ⟨-, hname⟩
    rw [String.toList_ofList, ← List.isSuffixOf_iff_suffix] at hname
    simp_all
  case number =>
    intro hc hname
    have hstart := hname.isPrefixOf
    simp_all
  case constant =>
    intro hname
    rw [IsTableName, String.toList_ofList, ← List.isSuffixOf_iff_suffix] at hname
    simp_all
  case struct =>
    rintro ht ⟨hname, hne⟩
    rw [String.toList_ofList, ← List.isSuffixOf_iff_suffix] at hname
    rw [String.toList_ofList] at hne
    simp_all

/-- Words without capitals are names of functions at most. -/
theorem resolved_of_small (h : ∀ c ∈ word, c.isUpper = false)
    (hfunction : called = true → IsCodecName word → word ∈ names.functions)
    (hnumber : called = true → ¬IsNumberName word) :
    Resolved names ⟨word, called, typed⟩ := by
  constructor
  case function => exact hfunction
  case number => exact fun hc hname => absurd hname (hnumber hc)
  case constant =>
    intro hname
    rw [IsTableName, String.toList_ofList] at hname
    exact absurd (h 'A' (hname.subset (by decide))) (by decide)
  case struct =>
    rintro - ⟨hname, -⟩
    rw [String.toList_ofList] at hname
    exact absurd (h 'P' (hname.subset (by decide))) (by decide)

/-- Words without underscores are names of structs at most. -/
theorem resolved_of_unlined (h : '_' ∉ word)
    (hstruct : typed = true → IsStructName word → word ∈ names.structs) :
    Resolved names ⟨word, called, typed⟩ := by
  constructor
  case function =>
    rintro - ⟨-, hname⟩
    rw [String.toList_ofList] at hname
    exact absurd (hname.subset (by decide)) h
  case number =>
    rintro - hname
    have hstart := List.isPrefixOf_iff_prefix.mp hname.isPrefixOf
    exact absurd (hstart.subset (by decide)) h
  case constant =>
    intro hname
    rw [IsTableName, String.toList_ofList] at hname
    exact absurd (hname.subset (by decide)) h
  case struct => exact hstruct

/-- Words without either are no names at all. -/
theorem resolved_of_plain (h : '_' ∉ word) (hy : 'y' ∉ word) :
    Resolved names ⟨word, called, typed⟩ := by
  refine resolved_of_unlined h ?_
  rintro - ⟨hname, -⟩
  rw [String.toList_ofList] at hname
  exact absurd (hname.subset (by decide)) hy

/-- Words that end in another way than names of structs are names of constants at most. -/
theorem resolved_of_ending (ending : List Char) (hending : ending <:+ word)
    (hlength : 7 ≤ ending.length) (hstruct : ¬['P', 'a', 'y', 'l', 'o', 'a', 'd'] <:+ ending)
    (hconstant : IsTableName word → word ∈ names.constants) :
    Resolved names ⟨word, false, typed⟩ := by
  constructor
  case function => exact nofun
  case number => exact nofun
  case constant => exact hconstant
  case struct =>
    rintro - ⟨hname, -⟩
    rw [String.toList_ofList] at hname
    exact absurd (List.suffix_of_suffix_length_le hname hending hlength) hstruct

/-- Functions on numbers of variable length are imported. -/
theorem resolved_of_isNumberName (h : IsNumberName word) (hmem : word ∈ names.imports) :
    Resolved names ⟨word, called, typed⟩ := by
  have hsmall : ∀ c ∈ word, c.isUpper = false := by
    rcases h with rfl | rfl <;> rw [String.toList_ofList] <;> simp
  constructor
  case function =>
    rintro - ⟨hname, -⟩
    rcases h with rfl | rfl <;> rcases hname with hname | hname <;>
      repeat rw [String.toList_ofList] at hname
    all_goals exact absurd (List.cons_prefix_cons.mp hname).1 (by decide)
  case number => exact fun _ _ => hmem
  case constant =>
    intro hname
    rw [IsTableName, String.toList_ofList] at hname
    exact absurd (hsmall 'A' (hname.subset (by decide))) (by decide)
  case struct =>
    rintro - ⟨hname, -⟩
    rw [String.toList_ofList] at hname
    exact absurd (hsmall 'P' (hname.subset (by decide))) (by decide)

end Words

/-! ## Lines -/

/-- A word that fits a hole: a part of a name, and resolved as it is used there. -/
structure Fits (names : ModuleNames) (hole : Bool × Bool) (word : List Char) : Prop where
  chars : ∀ c ∈ word, isNameChar c = true
  resolved : Resolved names ⟨word, hole.1, hole.2⟩

/-- Templates with these holes whose own names refer to nothing but the given ones. -/
def suits (external : List (List Char)) (contexts : List (Bool × Bool)) (template : List Token) :
    Bool :=
  (fixedMentions .start template).all (fun m => harmless m || external.contains m.name) &&
    holes .start template == contexts

section Lines

variable {names : ModuleNames}

theorem forall_fixed_of_suits {external : List (List Char)} {contexts : List (Bool × Bool)}
    {template : List Token} (h : suits external contexts template = true)
    (hexternal : ∀ name ∈ external, IsNumberName name ∧ name ∈ names.imports) :
    ∀ m ∈ fixedMentions .start template, Resolved names m := by
  intro m hm
  have hall := List.all_eq_true.mp (Bool.and_eq_true_iff.mp h).1 m hm
  rcases Bool.or_eq_true_iff.mp hall with hfree | hname
  · exact resolved_of_harmless hfree
  · obtain ⟨hnumber, hmem⟩ := hexternal m.name (List.contains_iff_mem.mp hname)
    exact resolved_of_isNumberName hnumber hmem

theorem forall₂_resolved {contexts : List (Bool × Bool)} {words : List (List Char)}
    (h : List.Forall₂ (Fits names) contexts words) :
    List.Forall₂ (fun hole word => Resolved names ⟨word, hole.1, hole.2⟩) contexts words :=
  h.imp fun _ _ hword => hword.resolved

theorem forall_chars_of_forall₂ {contexts : List (Bool × Bool)} {words : List (List Char)}
    (h : List.Forall₂ (Fits names) contexts words) :
    ∀ word ∈ words, ∀ c ∈ word, isNameChar c = true := by
  induction h with
  | nil => exact List.forall_mem_nil _
  | cons hword _ ih => exact List.forall_mem_cons.mpr ⟨hword.chars, ih⟩

/-- A line that is put together from fixed parts and words, each of which fits its hole in the
template of the line. -/
inductive Pieces (names : ModuleNames) : String → List Char → List (Bool × Bool) → Prop where
  | fixed {chars : List Char} (h : chars.contains '@' = false) :
      Pieces names (String.ofList chars) chars []
  | word {word : String} {hole : Bool × Bool} (h : Fits names hole word.toList) :
      Pieces names word ['@'] [hole]
  | append {first second : String} {front back : List Char} {contexts more : List (Bool × Bool)}
      (hfirst : Pieces names first front contexts) (hsecond : Pieces names second back more) :
      Pieces names (first ++ second) (front ++ back) (contexts ++ more)

theorem Pieces.exists_filled {line : String} {template : List Char} {contexts : List (Bool × Bool)}
    (h : Pieces names line template contexts) :
    ∃ words, Filled line template words ∧ List.Forall₂ (Fits names) contexts words := by
  induction h with
  | fixed h => exact ⟨[], .fixed h, .nil⟩
  | @word word _ h => exact ⟨[word.toList], .word word, .cons h .nil⟩
  | append _ _ ihfirst ihsecond =>
      obtain ⟨words, hfirst, hwords⟩ := ihfirst
      obtain ⟨more, hsecond, hmore⟩ := ihsecond
      exact ⟨words ++ more, hfirst.append hsecond, List.rel_append hwords hmore⟩

/-- A line of pieces refers to what the words in its holes refer to. -/
theorem Pieces.resolves {line : String} {template : List Char} {contexts : List (Bool × Bool)}
    (h : Pieces names line template contexts)
    (hsuits : (isTemplate false template && suits [] contexts (tokensFrom [] template)) = true) :
    Resolves names line := by
  obtain ⟨words, hfilled, hwords⟩ := h.exists_filled
  rw [Bool.and_eq_true] at hsuits
  have hholes : holes .start (tokensFrom [] template) = contexts :=
    beq_iff_eq.mp (Bool.and_eq_true_iff.mp hsuits.2).2
  exact forall_mentions_of_fill (weakens_resolved names) hfilled.toList_eq hsuits.1
    (forall_chars_of_forall₂ hwords) (forall_fixed_of_suits hsuits.2 (List.forall_mem_nil _))
    (hholes ▸ forall₂_resolved hwords)

/-- A line of tokens that fill a template. -/
theorem resolves_of_tokens {external : List (List Char)} {contexts : List (Bool × Bool)}
    {template : List Token} {line : String} {words : List (List Char)}
    (hline : tokens line = fillTokens template words) (h : suits external contexts template = true)
    (hexternal : ∀ name ∈ external, IsNumberName name ∧ name ∈ names.imports)
    (hlexemes : ∀ word ∈ words, IsLexeme word)
    (hwords : List.Forall₂ (Fits names) contexts words) : Resolves names line := by
  have hholes : holes .start template = contexts := beq_iff_eq.mp (Bool.and_eq_true_iff.mp h).2
  rw [Resolves, mentions, hline, ← fillWords_eq hlexemes]
  exact forall_mentionsFrom_fillWords (weakens_resolved names) template .start .start words rfl
    (forall_fixed_of_suits h hexternal) (hholes ▸ forall₂_resolved hwords)

/-- A fixed line. -/
theorem resolves_fixed {chars : List Char}
    (h : (mentionsFrom .start (tokensFrom [] chars)).all harmless = true) :
    Resolves names (String.ofList chars) := by
  intro m hm
  rw [mentions, tokens_ofList] at hm
  exact resolved_of_harmless (List.all_eq_true.mp h m hm)

/-- A fixed line that opens a block. -/
theorem resolves_opening {chars : List Char}
    (h : (mentionsFrom .start (tokensFrom [] (chars ++ [' ', '{']))).all harmless = true) :
    Resolves names (opening (String.ofList chars)) := by
  have hopening : opening (String.ofList chars) = String.ofList (chars ++ [' ', '{']) := by
    rw [opening, ← String.toList_inj, String.toList_append]
    repeat rw [String.toList_ofList]
  rw [hopening]
  exact resolves_fixed h

theorem resolves_comment (chars : List Char) :
    Resolves names (String.ofList ('/' :: '/' :: chars)) := by
  rw [Resolves, mentions_comment]
  exact List.forall_mem_nil _

theorem resolves_comment_append (chars : List Char) (rest : String) :
    Resolves names (String.ofList ('/' :: '/' :: chars) ++ rest) := by
  rw [Resolves, mentions_comment_append]
  exact List.forall_mem_nil _

theorem resolves_blank : Resolves names "" :=
  List.forall_mem_nil _

theorem resolves_indent {level : Nat} {text : String} (h : Resolves names text) :
    Resolves names (indent level text) := by
  rwa [Resolves, mentions_indent]

theorem resolves_closing : Resolves names closing :=
  resolves_fixed rfl

/-- A fixed line that closes a block. -/
theorem resolves_closing_append {chars : List Char}
    (h : (mentionsFrom .start (tokensFrom [] ('}' :: chars))).all harmless = true) :
    Resolves names (closing ++ String.ofList chars) := by
  have hclosing : closing ++ String.ofList chars = String.ofList ('}' :: chars) := by
    rw [closing, ← String.toList_inj, String.toList_append]
    repeat rw [String.toList_ofList]
    rfl
  rw [hclosing]
  exact resolves_fixed h

end Lines

/-! ## Words -/

section Fits

variable {names : ModuleNames} {called typed : Bool}

theorem fits_of_isWord {word : String} (h : IsWord word)
    (hresolved : Resolved names ⟨word.toList, called, typed⟩) :
    Fits names (called, typed) word.toList :=
  ⟨fun c hc => isNameRest_iff.mpr (h c hc), hresolved⟩

theorem fits_fixed {chars : List Char}
    (h : (chars.all isNameChar && harmless ⟨chars, called, typed⟩) = true) :
    Fits names (called, typed) (String.ofList chars).toList := by
  rw [Bool.and_eq_true, List.all_eq_true] at h
  rw [String.toList_ofList]
  exact ⟨h.1, resolved_of_harmless h.2⟩

theorem fits_toString (n : Nat) : Fits names (called, typed) (toString n).toList := by
  have hdigit : ∀ c ∈ (toString n).toList, c.isDigit = true := by
    rw [Nat.toString_eq_repr, Nat.toList_repr]
    exact fun c hc => Nat.isDigit_of_mem_toDigits (by decide) (by decide) hc
  exact fits_of_isWord (isWord_toString n) (resolved_of_plain
    (fun hmem => absurd (hdigit _ hmem) (by decide)) fun hmem => absurd (hdigit _ hmem) (by decide))

theorem fits_hexWord (n : UInt16) : Fits names (called, typed) (Text.hexWord n).toList := by
  have hchars : ∀ c ∈ (Text.hexWord n).toList, c ≠ '_' ∧ c ≠ 'y' := by
    rw [Text.hexWord, String.toList_append, List.forall_mem_append, Text.hexCapitals,
      String.toList_ofList, String.toList_ofList, List.forall_mem_map]
    exact ⟨by simp, Schema.forall_mem_toDigits (by decide) n.toNat⟩
  exact fits_of_isWord (isWord_hexWord n)
    (resolved_of_plain (fun hmem => (hchars _ hmem).1 rfl) fun hmem => (hchars _ hmem).2 rfl)

theorem fits_field {name : String} (h : IsName name) :
    Fits names (false, typed) (snakeCase name).toList :=
  fits_of_isWord (isWord_snakeCase h.isWord)
    (resolved_of_small (isUpper_of_mem_snakeCase h.isWord) nofun nofun)

theorem fits_variant {name : String} (h : IsName name) :
    Fits names (called, false) (capitalized name).toList :=
  fits_of_isWord (isWord_capitalized h.isWord)
    (resolved_of_unlined (underscore_not_mem_capitalized h.isWord) nofun)

theorem fits_keyword (type : DataType) :
    Fits names (called, false) (capitalized type.keyword).toList := by
  have hword : IsWord type.keyword := by
    cases type <;> exact IsWord.fixed rfl
  exact fits_of_isWord (isWord_capitalized hword)
    (resolved_of_unlined (underscore_not_mem_capitalized hword) nofun)

/-- A name in capitals, between two texts of which the second tells it from names of structs
and of constants that describe attributes. -/
theorem fits_upper {name : String} (h : IsWord name) {front back : List Char}
    (hends : (front.all isNameChar && back.all isNameChar && decide (9 ≤ back.length) &&
      !(['_', 'A', 'T', 'T', '_', 'D', 'E', 'S', 'C'].isSuffixOf back) &&
        !(['P', 'a', 'y', 'l', 'o', 'a', 'd'].isSuffixOf back)) = true) :
    Fits names (false, typed)
      (String.ofList front ++ Text.upper name ++ String.ofList back).toList := by
  simp only [Bool.and_eq_true, List.all_eq_true, decide_eq_true_eq, Bool.not_eq_true',
    Bool.eq_false_iff, ne_eq, List.isSuffixOf_iff_suffix] at hends
  obtain ⟨⟨⟨⟨hfront, hback⟩, hlength⟩, hconstant⟩, hstruct⟩ := hends
  rw [String.toList_append, String.toList_append, String.toList_ofList, String.toList_ofList]
  have hsuffix := List.suffix_append (front ++ (Text.upper name).toList) back
  refine ⟨?_, resolved_of_ending back hsuffix (by omega) hstruct fun hname => ?_⟩
  · rw [List.forall_mem_append, List.forall_mem_append]
    exact ⟨⟨hfront, fun c hc => isNameRest_iff.mpr (h.upper c hc)⟩, hback⟩
  · rw [IsTableName, String.toList_ofList] at hname
    exact absurd (List.suffix_of_suffix_length_le hname hsuffix hlength) hconstant

section Group

variable {group : Group}

theorem fits_payloadType (h : group.Named) (hmem : group.payloadType.toList ∈ names.structs) :
    Fits names (called, typed) group.payloadType.toList :=
  ⟨(isLexeme_payloadType h).names,
    resolved_of_unlined h.underscore_not_mem_payloadType fun _ _ => hmem⟩

/-- The constant of a group. -/
theorem fits_descriptorConstant (h : group.Named)
    (hmem : (descriptorConstant group.stem).toList ∈ names.constants) :
    Fits names (false, typed) (descriptorConstant group.stem).toList := by
  have hword : IsWord (descriptorConstant group.stem) :=
    h.isWord_stem.upper.append (IsWord.fixed rfl : IsWord "_ATT_DESC")
  refine fits_of_isWord hword (resolved_of_ending ['_', 'A', 'T', 'T', '_', 'D', 'E', 'S', 'C'] ?_
    (by decide) (by decide) fun _ => hmem)
  rw [descriptorConstant, String.toList_append, String.toList_ofList]
  exact List.suffix_append _ _

theorem fits_decoderName (h : group.Named)
    (hmem : (Decoder.name group.stem).toList ∈ names.functions) :
    Fits names (called, typed) (Decoder.name group.stem).toList := by
  refine ⟨(isLexeme_decoderName h.isWord_stem).names, resolved_of_small ?_ (fun _ _ => hmem) ?_⟩
  · rw [Decoder.name, String.toList_append, String.toList_append, List.forall_mem_append,
      List.forall_mem_append, String.toList_ofList, String.toList_ofList]
    exact ⟨⟨by simp, h.isUpper_of_mem_stem⟩, by simp⟩
  · intro _ hname
    have hstart := hname.isPrefixOf
    rw [Decoder.name, String.toList_append, String.toList_append, String.toList_ofList] at hstart
    cases hstart

theorem fits_encoderName (h : group.Named)
    (hmem : (Encoder.name group.stem).toList ∈ names.functions) :
    Fits names (called, typed) (Encoder.name group.stem).toList := by
  refine ⟨(isLexeme_encoderName h.isWord_stem).names, resolved_of_small ?_ (fun _ _ => hmem) ?_⟩
  · rw [Encoder.name, String.toList_append, String.toList_append, List.forall_mem_append,
      List.forall_mem_append, String.toList_ofList, String.toList_ofList]
    exact ⟨⟨by simp, h.isUpper_of_mem_stem⟩, by simp⟩
  · intro _ hname
    have hstart := hname.isPrefixOf
    rw [Encoder.name, String.toList_append, String.toList_append, String.toList_ofList] at hstart
    cases hstart

end Group

end Fits

end Typed
end CommandSet
