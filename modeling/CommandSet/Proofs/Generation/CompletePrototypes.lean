import CommandSet.Proofs.Generation.Prototypes
import CommandSet.Proofs.Recovery.Readable
import CommandSet.Proofs.Text.Uncommented

/-!
# Complete prototypes

What counts as a public function is decided by the braces in the code of its lines, while its
prototype is cut from the text of its signature, comments included.  So the semicolon behind a
prototype can fall into a comment, and data with an initialiser is taken for a function.

Main definitions:

- {lit}`uncommented`, {lit}`EndsInComment`: a text without its comments, and texts that end in one.
- {lit}`PublicFunction.head`: what a prototype takes from a signature.
- {lit}`PublicFunction.IsComplete`: prototypes that declare the function of their signature.

Main results:

- Theorem {lit}`isComplete_iff`: a prototype is complete where the head of the signature does not
  end in a comment and its code ends in a parenthesis.
- Theorem {lit}`isComplete_prototype_iff`: when the prototypes of recovered functions are complete.
- Theorem {lit}`incomplete_prototypes_pump`: recovered functions with incomplete prototypes.
-/

namespace CommandSet

open CommentMode
open Firmware (MainHeader)
open Recovery (PublicFunction RecoveredCode recover codePart isSignatureLine)

/-! ## Trimmed texts -/

namespace Text

/-- Trimming drops blanks only. -/
theorem exists_trimEnd_append (text : List Char) :
    ∃ blanks, (∀ c ∈ blanks, isBlank c = true) ∧ trimEnd text ++ blanks = text := by
  refine ⟨(text.reverse.takeWhile isBlank).reverse, fun c hc => ?_, ?_⟩
  · exact List.all_eq_true.mp List.all_takeWhile c (List.mem_reverse.mp hc)
  · rw [trimEnd, ← List.reverse_append, List.takeWhile_append_dropWhile, List.reverse_reverse]

theorem trimEnd_append_blanks (text : List Char) {blanks : List Char}
    (h : ∀ c ∈ blanks, isBlank c = true) : trimEnd (text ++ blanks) = trimEnd text := by
  rw [trimEnd, trimEnd, List.reverse_append,
    List.dropWhile_append_of_pos fun c hc => h c (List.mem_reverse.mp hc)]

/-- A text is kept up to a character that is not blank. -/
theorem trimEnd_snoc {c : Char} (h : isBlank c = false) (text : List Char) :
    trimEnd (text ++ [c]) = text ++ [c] := by
  rw [trimEnd, List.reverse_concat, List.dropWhile_cons_of_neg (by simp [h]), ← List.reverse_concat,
    List.reverse_reverse]

/-- A longer text keeps what is kept of its beginning. -/
theorem trimEnd_isPrefix_append (text more : List Char) :
    trimEnd text <+: trimEnd (text ++ more) := by
  rw [trimEnd, trimEnd, ← List.reverse_suffix, List.reverse_reverse, List.reverse_reverse,
    List.reverse_append, List.dropWhile_append]
  split
  · exact List.suffix_rfl
  · exact (List.dropWhile_suffix _).trans (List.suffix_append _ _)

end Text

/-! ## Texts without comments -/

/-- A text without its comments. -/
def uncommented (text : List Char) : List Char :=
  (scan true code text).2 ++ (scan true code text).1.pending

/-- All code is complete unless a slash was read last. -/
theorem uncommented_eq {text : List Char} (h : (scan true code text).1 ≠ slash) :
    uncommented text = (scan true code text).2 := by
  rw [uncommented]
  cases hmode : (scan true code text).1 with
  | slash => exact absurd hmode h
  | _ => exact List.append_nil _

theorem uncommented_append (front rest : List Char) :
    uncommented (front ++ rest) = (scan true code front).2 ++
      ((scan true (scan true code front).1 rest).2 ++
        (scan true (scan true code front).1 rest).1.pending) := by
  rw [uncommented, scan_append, List.append_assoc]

/-- Code is made of the characters of the text; only a slash may come later than it was read. -/
theorem not_mem_scan {c : Char} (hslash : c ≠ '/') {chars : List Char} (h : c ∉ chars)
    (blocks : Bool) (mode : CommentMode) : c ∉ (scan blocks mode chars).2 := by
  induction chars generalizing mode with
  | nil => exact List.not_mem_nil
  | cons d chars ih =>
      rw [List.mem_cons, not_or] at h
      have hstep : c ∉ (feed blocks mode d).2 := by
        cases mode <;> simp only [feed] <;> split_ifs <;> simp [h.1, hslash]
      rw [scan, List.mem_append, not_or]
      exact ⟨hstep, ih h.2 _⟩

/-- Texts that end inside of a comment. -/
def EndsInComment (text : List Char) : Prop :=
  (scan true code text).1 = line ∨ Inside (scan true code text).1

instance (text : List Char) : Decidable (EndsInComment text) :=
  inferInstanceAs (Decidable (_ ∨ _ ∨ _))

/-- A semicolon behind a text is part of the comment that the text ends in. -/
theorem uncommented_snoc_of_comment {text : List Char} (h : EndsInComment text) :
    uncommented (text ++ [';']) = uncommented text := by
  rw [uncommented_append, uncommented]
  rcases h with h | h | h <;> rw [h] <;> rfl

/-- Outside of comments a reader is in code, or behind a slash. -/
theorem fst_scan_of_not_endsInComment {text : List Char} (h : ¬EndsInComment text) :
    (scan true code text).1 = code ∨ (scan true code text).1 = slash := by
  rw [EndsInComment, Inside, not_or, not_or] at h
  cases hmode : (scan true code text).1 with
  | code => exact Or.inl rfl
  | slash => exact Or.inr rfl
  | line => exact absurd hmode h.1
  | block => exact absurd hmode h.2.1
  | star => exact absurd hmode h.2.2

/-- Outside of comments a semicolon stays. -/
theorem uncommented_snoc {text : List Char} (h : ¬EndsInComment text) :
    uncommented (text ++ [';']) = uncommented text ++ [';'] := by
  rw [uncommented_append, uncommented, List.append_assoc]
  rcases fst_scan_of_not_endsInComment h with hmode | hmode <;> rw [hmode] <;> rfl

/-- Behind a parenthesis a reader is in code. -/
theorem fst_scan_of_parenthesis {text : List Char} (h : ¬EndsInComment text)
    (hends : [')'] <:+ uncommented text) : (scan true code text).1 = code := by
  rcases fst_scan_of_not_endsInComment h with hmode | hmode
  · exact hmode
  · rw [uncommented, hmode] at hends
    obtain ⟨front, hfront⟩ := hends
    exact absurd (List.append_inj' hfront rfl).2 (by decide)

namespace Recovery

/-! ## Prototypes and signatures -/

namespace PublicFunction

/-- What a prototype takes from a signature: all before the first brace, but not the blanks in
front of it. -/
def head (function : PublicFunction) : List Char :=
  Text.trimEnd ((Text.unlines function.signature).toList.takeWhile (· != '{'))

/-- Prototypes that declare the function of their signature, comments aside. -/
structure IsComplete (function : PublicFunction) : Prop where
  closed : [')', ';'] <:+ Text.trimEnd (uncommented function.prototype.toList)
  eq_signature : Text.trimEnd (uncommented function.prototype.toList) =
    Text.trimEnd ((uncommented (Text.unlines function.signature).toList).takeWhile (· != '{')) ++
      [';']

variable (function : PublicFunction)

theorem toList_prototype : function.prototype.toList = function.head ++ [';'] := by
  rw [prototype, prototypeOf, String.toList_append, String.toList_ofList]
  rfl

/-- A signature is its head, blanks and what stands from the first brace on. -/
theorem exists_signature_eq : ∃ blanks rest, (∀ c ∈ blanks, Text.isBlank c = true) ∧
    (Text.unlines function.signature).toList = function.head ++ (blanks ++ rest) ∧
    '{' ∉ function.head ++ blanks ∧ ∀ c ∈ rest.head?, c = '{' := by
  obtain ⟨blanks, hblanks, hhead⟩ := Text.exists_trimEnd_append
    ((Text.unlines function.signature).toList.takeWhile (· != '{'))
  refine ⟨blanks, (Text.unlines function.signature).toList.dropWhile (· != '{'), hblanks,
    ?_, ?_, ?_⟩
  · rw [← List.append_assoc, head, hhead, List.takeWhile_append_dropWhile]
  · rw [head, hhead]
    intro hmem
    simpa using List.all_eq_true.mp List.all_takeWhile _ hmem
  · intro c hc
    have hnot := List.head?_dropWhile_not (· != '{') (Text.unlines function.signature).toList
    rw [Option.mem_def.mp hc] at hnot
    simpa using hnot

/-- The code of a head stands before the first brace of the code. -/
theorem takeWhile_code_append (rest : List Char) :
    ((scan true code function.head).2 ++ rest).takeWhile (· != '{') =
      (scan true code function.head).2 ++ rest.takeWhile (· != '{') := by
  obtain ⟨blanks, _, -, -, hbrace, -⟩ := function.exists_signature_eq
  rw [List.takeWhile_append_of_pos]
  intro c hc
  rw [bne_iff_ne]
  rintro rfl
  exact not_mem_scan (by decide) (fun h => hbrace (List.mem_append_left _ h)) true code hc

variable {function}

/-- Where the head of a signature ends in code, it is all the code up to the brace but blanks. -/
theorem trimEnd_uncommented_signature (hmode : (scan true code function.head).1 = code) :
    Text.trimEnd ((uncommented (Text.unlines function.signature).toList).takeWhile (· != '{')) =
      Text.trimEnd (uncommented function.head) := by
  obtain ⟨blanks, rest, hblanks, hsignature, hbrace, hrest⟩ := function.exists_signature_eq
  have hslash : '/' ∉ blanks := fun h => absurd (hblanks _ h) (by decide)
  have hbehind : (uncommented rest).takeWhile (· != '{') = [] := by
    cases rest with
    | nil => rfl
    | cons c rest =>
        obtain rfl := hrest c rfl
        rfl
  have hkept : ∀ c ∈ blanks, (c != '{') = true := by
    intro c hc
    rw [bne_iff_ne]
    rintro rfl
    exact hbrace (List.mem_append_right _ hc)
  have hcode : uncommented (Text.unlines function.signature).toList =
      (scan true code function.head).2 ++ (blanks ++ uncommented rest) := by
    rw [hsignature, uncommented_append, hmode, scan_append, scan_code hslash, uncommented,
      List.append_assoc]
  have hhead : uncommented function.head = (scan true code function.head).2 :=
    uncommented_eq (by simp [hmode])
  rw [hcode, takeWhile_code_append, List.takeWhile_append_of_pos hkept, hbehind, List.append_nil,
    Text.trimEnd_append_blanks _ hblanks, hhead]

/-- A prototype that loses its semicolon to a comment is shorter than the code of its
signature. -/
theorem not_eq_signature_of_comment (h : EndsInComment function.head) :
    Text.trimEnd (uncommented function.prototype.toList) ≠
      Text.trimEnd ((uncommented (Text.unlines function.signature).toList).takeWhile
        (· != '{')) ++ [';'] := by
  intro heq
  obtain ⟨blanks, rest, -, hsignature, -, -⟩ := function.exists_signature_eq
  have hmode : (scan true code function.head).1 ≠ slash := by
    rcases h with h | h | h <;> rw [h] <;> decide
  rw [toList_prototype, uncommented_snoc_of_comment h, uncommented_eq hmode, hsignature,
    uncommented_append, takeWhile_code_append] at heq
  refine absurd (congrArg List.length heq) (Nat.ne_of_lt ?_)
  rw [List.length_append]
  exact Nat.lt_succ_of_le (Text.trimEnd_isPrefix_append _ _).length_le

/-- A prototype is complete exactly if the head of the signature does not end in a comment and
its code ends in a parenthesis. -/
theorem isComplete_iff :
    function.IsComplete ↔ ¬EndsInComment function.head ∧ [')'] <:+ uncommented function.head := by
  have hsemicolon (hopen : ¬EndsInComment function.head) :
      Text.trimEnd (uncommented function.prototype.toList) =
        uncommented function.head ++ [';'] := by
    rw [toList_prototype, uncommented_snoc hopen, Text.trimEnd_snoc (by decide)]
  constructor
  · rintro ⟨hclosed, heq⟩
    have hopen : ¬EndsInComment function.head := fun h => not_eq_signature_of_comment h heq
    rw [hsemicolon hopen] at hclosed
    obtain ⟨front, hfront⟩ := hclosed
    rw [List.append_cons front ')' [';']] at hfront
    exact ⟨hopen, front, List.append_cancel_right hfront⟩
  · rintro ⟨hopen, hends⟩
    have hmode := fst_scan_of_parenthesis hopen hends
    obtain ⟨front, hfront⟩ := hends
    refine ⟨?_, ?_⟩
    · rw [hsemicolon hopen, ← hfront, List.append_assoc]
      exact List.suffix_append _ _
    · rw [hsemicolon hopen, trimEnd_uncommented_signature hmode, ← hfront,
        Text.trimEnd_snoc (by decide)]

end PublicFunction

/-! ## Signatures of recovered functions -/

/-- The lines of a signature before the last could be part of one and open no block. -/
theorem Framed.signature {stop : String → Bool} {function : FoundFunction}
    (h : Framed stop function) : ∃ above line, function.signature = above ++ [line] ∧
      '{' ∈ codePart line ∧
      ∀ l ∈ above, isSignatureLine l = true ∧ '{' ∉ codePart l := by
  cases h with
  | mk hpending hstop hopen hline hrest =>
      refine ⟨_, _, rfl, hopen, fun l hl => ⟨mem_splitEnding_snd hl, ?_⟩⟩
      exact (hpending l (mem_of_mem_splitEnding_snd hl)).opens

end Recovery

/-! ## Prototypes of recovered functions -/

/-- The header of an accepted module declares every public function by its prototype.  The last
line of the signature is the first whose code opens a block, and the prototype is complete exactly
if what stands before the first brace, in code or not, does not end in a comment and its code ends
in a parenthesis. -/
theorem isComplete_prototype_iff {protocol source : String} {commands : List String}
    {code : RecoveredCode} (hrecover : recover protocol commands source = .ok code)
    {function : PublicFunction} (hfunction : function ∈ code.publicFunctions) :
    (∀ prepared, function.prototype ∈ (MainHeader.build prepared (some code)).lines) ∧
      (∃ above line, function.signature = above ++ [line] ∧ '{' ∈ codePart line ∧
        ∀ l ∈ above, isSignatureLine l = true ∧ '{' ∉ codePart l) ∧
      (function.IsComplete ↔
        ¬EndsInComment function.head ∧ [')'] <:+ uncommented function.head) := by
  refine ⟨fun prepared => ?_, ?_, PublicFunction.isComplete_iff⟩
  · have hheader :
        (MainHeader.build prepared (some code)).publicFunctions = code.publicFunctions :=
      if_neg (by simp [List.ne_nil_of_mem hfunction])
    rw [← hheader] at hfunction
    exact (isInfix_declarationLines hfunction).subset
      (List.mem_append_right _ List.mem_cons_self)
  · obtain ⟨_, publics, -, hrecovered⟩ := Recovery.recoveredFrom_of_recover hrecover
    rw [hrecovered.publicFunctions, List.mem_map] at hfunction
    obtain ⟨found, hfound, rfl⟩ := hfunction
    exact (hrecovered.publicFramed found hfound).signature

/-- A module whose public section holds some lines. -/
private def publicModule (lines : List String) : String :=
  Text.unlines (["// *** Definitions ***", "// *** Private Functions ***",
    "// *** Public Functions ***"] ++ lines)

/-- What is recovered from such a module where the lines are one function. -/
private def publicCode (signature rest : List String) : RecoveredCode :=
  ⟨[], [], [], [], none, [], [⟨[], [], signature, signature ++ rest⟩], []⟩

/-- The prototype of a function with its brace on a line of its own is complete. -/
theorem isComplete_prototype_rate :
    ∃ code, recover "Pump" ["Start"]
        (publicModule ["int rate(void)", r"{", "    return 3;", r"}"]) = .ok code ∧
      code.publicFunctions.map (·.prototype) = ["int rate(void);"] ∧
      ∀ function ∈ code.publicFunctions, function.IsComplete := by
  have hrecover : recover "Pump" ["Start"]
      (publicModule ["int rate(void)", r"{", "    return 3;", r"}"]) =
        .ok (publicCode ["int rate(void)", r"{"] ["    return 3;", r"}"]) := by
    rw [recover, publicModule, Text.lines_unlines (by decide)]
    decide +kernel
  refine ⟨_, hrecover, by decide +kernel, fun function hfunction => ?_⟩
  refine (isComplete_prototype_iff hrecover hfunction).2.2.mpr ?_
  obtain rfl := List.mem_singleton.mp hfunction
  decide +kernel

/-- Data with an initialiser is recovered as a function, and a comment behind the parameters of a
function takes the semicolon of its prototype. -/
theorem incomplete_prototypes_pump :
    (∃ code, recover "Pump" ["Start"] (publicModule [r"int table[2] = {1, 2};"]) = .ok code ∧
      ∃ function ∈ code.publicFunctions, function.prototype = "int table[2] =;" ∧
        ¬function.IsComplete) ∧
    ∃ code, recover "Pump" ["Start"]
        (publicModule ["int rate(void) // in Hz", r"{", "    return 3;", r"}"]) = .ok code ∧
      ∃ function ∈ code.publicFunctions, function.prototype = "int rate(void) // in Hz;" ∧
        ¬function.IsComplete := by
  constructor
  · refine ⟨publicCode [r"int table[2] = {1, 2};"] [], ?_, _, List.mem_cons_self,
      by decide +kernel, ?_⟩
    · rw [recover, publicModule, Text.lines_unlines (by decide)]
      decide +kernel
    · rw [PublicFunction.isComplete_iff]
      decide +kernel
  · refine ⟨publicCode ["int rate(void) // in Hz", r"{"] ["    return 3;", r"}"], ?_, _,
      List.mem_cons_self, by decide +kernel, ?_⟩
    · rw [recover, publicModule, Text.lines_unlines (by decide)]
      decide +kernel
    · rw [PublicFunction.isComplete_iff]
      decide +kernel

end CommandSet
