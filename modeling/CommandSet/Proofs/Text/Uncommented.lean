import CommandSet.Proofs.Text.Search
import CommandSet.Proofs.Text.Words
import CommandSet.Text.Blank
import CommandSet.Text.Lines

/-!
# Code without its comments

Two slashes comment a line out up to its end, and in C a slash and a star open a comment
that a star and a slash close.  Code is read character by character here; what is left of it
besides comments and white space is its ink.

Main definitions:

- {lit}`CommentMode`, {lit}`CommentMode.feed`: where a reader stands, and one step.
- {lit}`ink`: what a text holds besides comments and white space.
- {lit}`Alike`: lines that leave the reader in one mode and have the same ink.

Main results:

- Theorems {lit}`Alike.append`, {lit}`alike_flatMap`: lines are compared part by part.
- Theorem {lit}`scan_remark`: a comment up to the end of its line.
- Theorem {lit}`scan_commentBlock`: a comment over several lines.
-/

namespace CommandSet

open Text (isBlank unlines)

/-! ## Reading -/

/-- Where a reader of code stands. -/
inductive CommentMode where
  | code
  /-- Behind a slash that may open a comment. -/
  | slash
  | line
  | block
  /-- Behind a star that may close a comment. -/
  | star
deriving Repr, DecidableEq

namespace CommentMode

/-- The mode behind a character, and the code that is complete with it; {lit}`blocks` says
whether there are comments over several lines. -/
def feed (blocks : Bool) : CommentMode → Char → CommentMode × List Char
  | code, c => if c = '/' then (slash, []) else (code, [c])
  | slash, c =>
      if c = '/' then (line, [])
      else if c = '*' && blocks then (block, [])
      else (code, ['/', c])
  | line, c => if c = '\n' then (code, [c]) else (line, [])
  | block, c => if c = '*' then (star, []) else (block, [])
  | star, c => if c = '/' then (code, []) else if c = '*' then (star, []) else (block, [])

/-- The mode behind a text, and the code that is complete by then. -/
def scan (blocks : Bool) (mode : CommentMode) : List Char → CommentMode × List Char
  | [] => (mode, [])
  | c :: rest =>
      let step := feed blocks mode c
      let behind := scan blocks step.1 rest
      (behind.1, step.2 ++ behind.2)

/-- The code that is left open: a slash that opens no comment. -/
def pending : CommentMode → List Char
  | slash => ['/']
  | _ => []

end CommentMode

open CommentMode

/-- What a text holds besides comments and white space. -/
def ink (blocks : Bool) (text : String) : List Char :=
  let read := scan blocks code text.toList
  (read.2 ++ read.1.pending).filter (!isBlank ·)

/-! ## Parts of a text -/

variable {blocks : Bool} {mode : CommentMode}

theorem scan_append (blocks : Bool) (mode : CommentMode) (front rest : List Char) :
    scan blocks mode (front ++ rest) =
      ((scan blocks (scan blocks mode front).1 rest).1,
        (scan blocks mode front).2 ++ (scan blocks (scan blocks mode front).1 rest).2) := by
  induction front generalizing mode with
  | nil => rfl
  | cons c front ih =>
      rw [List.cons_append, scan, ih, scan, List.append_assoc]

/-- Code without slashes is all code. -/
theorem scan_code {chars : List Char} (h : '/' ∉ chars) :
    scan blocks code chars = (code, chars) := by
  induction chars with
  | nil => rfl
  | cons c chars ih =>
      rw [List.mem_cons, not_or] at h
      rw [scan, feed, if_neg (Ne.symm h.1), ih h.2]
      rfl

/-- A comment up to the end of its line goes on to that end. -/
theorem scan_line {chars : List Char} (h : '\n' ∉ chars) :
    scan blocks line chars = (line, []) := by
  induction chars with
  | nil => rfl
  | cons c chars ih =>
      rw [List.mem_cons, not_or] at h
      rw [scan, feed, if_neg (Ne.symm h.1), ih h.2]
      rfl

/-- Code with a comment behind it, up to the end of the line. -/
theorem scan_remark {front comment : List Char} (hfront : '/' ∉ front)
    (hcomment : '\n' ∉ comment) :
    scan blocks code (front ++ '/' :: '/' :: comment ++ ['\n']) = (code, front ++ ['\n']) := by
  rw [List.append_assoc, scan_append, scan_code hfront, List.cons_append, List.cons_append, scan]
  simp only [feed, if_true]
  rw [scan]
  simp only [feed, if_true]
  rw [scan_append, scan_line hcomment]
  rfl

/-! ## Comments over several lines -/

/-- The modes inside of a comment over several lines. -/
def Inside (mode : CommentMode) : Prop :=
  mode = block ∨ mode = star

/-- A text that does not close a comment stays inside of it. -/
theorem scan_inside {chars : List Char} (hopen : ¬['*', '/'] <:+: chars)
    (hmode : mode = block ∨ mode = star ∧ chars.head? ≠ some '/') :
    Inside (scan blocks mode chars).1 ∧ (scan blocks mode chars).2 = [] := by
  -- Behind a star, what keeps the comment open is that the next character is no slash.
  induction chars generalizing mode with
  | nil => exact ⟨hmode.imp_right And.left, rfl⟩
  | cons c chars ih =>
      have hrest : ¬['*', '/'] <:+: chars := fun h => hopen (List.infix_cons_iff.mpr (Or.inr h))
      have hstar : c = '*' → chars.head? ≠ some '/' := by
        rintro rfl hhead
        obtain ⟨tail, rfl⟩ := List.head?_eq_some_iff.mp hhead
        exact hopen ⟨[], tail, rfl⟩
      have hstep : (feed blocks mode c).2 = [] ∧
          ((feed blocks mode c).1 = block ∨
            (feed blocks mode c).1 = star ∧ chars.head? ≠ some '/') := by
        by_cases hc : c = '*'
        · rcases hmode with rfl | ⟨rfl, -⟩ <;> simp [feed, hc, hstar hc]
        · rcases hmode with rfl | ⟨rfl, hhead⟩
          · simp [feed, hc]
          · have hslash : c ≠ '/' := fun heq => hhead (by rw [heq]; rfl)
            simp [feed, hc, hslash]
      rw [scan, hstep.1]
      exact ih hrest hstep.2

/-- Lines that do not close the comment they stand in. -/
def Hidden (blocks : Bool) (line : String) : Prop :=
  scan blocks block (line.toList ++ ['\n']) = (block, [])

theorem hidden_of_not_infix {line : String} (h : ¬['*', '/'] <:+: line.toList) :
    Hidden blocks line := by
  obtain ⟨hinside, hnone⟩ := @scan_inside blocks block _ h (Or.inl rfl)
  rw [Hidden, scan_append, hnone]
  rcases hinside with hmode | hmode <;> rw [hmode] <;> rfl

theorem hidden_of_avoids {line : String} (h : Avoids ['/'] line) : Hidden blocks line :=
  hidden_of_not_infix fun hpart =>
    h _ (List.mem_singleton_self _) (hpart.subset (List.mem_cons_of_mem _ List.mem_cons_self))

/-- A text in brackets closes no comment that it does not close itself. -/
theorem not_infix_bracketed {front text : List Char} (hfront : '/' ∉ front)
    (htext : ¬['*', '/'] <:+: text) : ¬['*', '/'] <:+: front ++ '(' :: (text ++ [')']) := by
  intro hpart
  rcases Text.isInfix_append_cons (by decide) hpart with hpart | hpart
  · exact hfront (hpart.subset (List.mem_cons_of_mem _ List.mem_cons_self))
  · rcases Text.isInfix_append_cons (by decide) hpart with hpart | hpart
    · exact htext hpart
    · exact absurd hpart (by decide)

/-! ## Lines -/

/-- What a reader makes of some lines. -/
def scanLines (blocks : Bool) (mode : CommentMode) (lines : List String) :
    CommentMode × List Char :=
  scan blocks mode (unlines lines).toList

theorem scanLines_append (blocks : Bool) (mode : CommentMode) (front rest : List String) :
    scanLines blocks mode (front ++ rest) =
      ((scanLines blocks (scanLines blocks mode front).1 rest).1,
        (scanLines blocks mode front).2 ++
          (scanLines blocks (scanLines blocks mode front).1 rest).2) := by
  simp only [scanLines, Text.toList_unlines, List.flatMap_append, scan_append]

theorem fst_scanLines_append (blocks : Bool) (mode : CommentMode) (front rest : List String) :
    (scanLines blocks mode (front ++ rest)).1 =
      (scanLines blocks (scanLines blocks mode front).1 rest).1 := by
  rw [scanLines_append]

theorem scanLines_singleton (blocks : Bool) (mode : CommentMode) (line : String) :
    scanLines blocks mode [line] = scan blocks mode (line.toList ++ ['\n']) := by
  simp [scanLines, Text.toList_unlines]

theorem scanLines_cons (blocks : Bool) (mode : CommentMode) (line : String) (rest : List String) :
    scanLines blocks mode (line :: rest) =
      ((scanLines blocks (scan blocks mode (line.toList ++ ['\n'])).1 rest).1,
        (scan blocks mode (line.toList ++ ['\n'])).2 ++
          (scanLines blocks (scan blocks mode (line.toList ++ ['\n'])).1 rest).2) := by
  rw [← List.singleton_append, scanLines_append, scanLines_singleton]

/-- The modes in which a line can start. -/
def AtLineStart (mode : CommentMode) : Prop :=
  mode = code ∨ mode = block

/-- A line ends in code or in a comment that goes on. -/
theorem atLineStart_scanLines (h : AtLineStart mode) (lines : List String) :
    AtLineStart (scanLines blocks mode lines).1 := by
  have hnewline (mode : CommentMode) : AtLineStart (feed blocks mode '\n').1 := by
    cases mode <;> simp [feed, AtLineStart]
  induction lines generalizing mode with
  | nil => exact h
  | cons line lines ih =>
      rw [scanLines_cons]
      refine ih ?_
      rw [scan_append]
      exact hnewline _

/-- Where no comment goes over several lines, a reader is in code or on the way through a
line. -/
theorem scan_false (h : ¬Inside mode) (chars : List Char) : ¬Inside (scan false mode chars).1 := by
  have hstep (c : Char) {mode : CommentMode} (h : ¬Inside mode) :
      ¬Inside (feed false mode c).1 := by
    cases mode with
    | code =>
        rw [feed]
        split <;> simp [Inside]
    | slash =>
        rw [feed, Bool.and_false]
        split <;> simp [Inside]
    | line =>
        rw [feed]
        split <;> simp [Inside]
    | block => exact absurd (Or.inl rfl) h
    | star => exact absurd (Or.inr rfl) h
  induction chars generalizing mode with
  | nil => exact h
  | cons c chars ih => exact ih (hstep c h)

/-- Where no comment goes over several lines, every line starts in code. -/
theorem scanLines_false (lines : List String) : (scanLines false code lines).1 = code := by
  have hcode : ¬Inside code := by simp [Inside]
  rcases @atLineStart_scanLines false code (Or.inl rfl) lines with hmode | hmode
  · exact hmode
  · exact absurd (Or.inl hmode) (scan_false hcode _)

/-- Lines behind which a reader is in code again. -/
def EndsInCode (blocks : Bool) (line : String) : Prop :=
  (scan blocks code (line.toList ++ ['\n'])).1 = code

instance (blocks : Bool) (line : String) : Decidable (EndsInCode blocks line) :=
  inferInstanceAs (Decidable (_ = _))

theorem endsInCode_of_avoids {line : String} (h : Avoids ['/'] line) : EndsInCode blocks line := by
  rw [EndsInCode, scan_append, scan_code (h _ (List.mem_singleton_self _))]
  rfl

/-- Lines that end in code lead from code to code. -/
theorem scanLines_of_endsInCode {lines : List String} (h : ∀ line ∈ lines, EndsInCode blocks line) :
    (scanLines blocks code lines).1 = code := by
  induction lines with
  | nil => rfl
  | cons line lines ih =>
      rw [List.forall_mem_cons] at h
      rw [scanLines_cons, h.1]
      exact ih h.2

/-- A comment over several lines leaves no code. -/
theorem scan_commentBlock (h : AtLineStart mode) {lines : List String}
    (hlines : ∀ line ∈ lines, Hidden true line) :
    scanLines true mode ("/**" :: (lines ++ [" */"])) = (code, ['\n']) := by
  have hopening : scan true mode ("/**".toList ++ ['\n']) = (block, []) := by
    rcases h with rfl | rfl <;> rfl
  have hinside : scanLines true block lines = (block, []) := by
    induction lines with
    | nil => rfl
    | cons line lines ih =>
        rw [List.forall_mem_cons] at hlines
        rw [scanLines_cons, hlines.1, ih hlines.2]
        rfl
  rw [scanLines_cons, hopening, scanLines_append, hinside, scanLines_singleton]
  rfl

/-! ## Comparison -/

/-- Lines that leave a reader in one mode and have the same ink. -/
def Alike (blocks : Bool) (mode : CommentMode) (first second : List String) : Prop :=
  (scanLines blocks mode first).1 = (scanLines blocks mode second).1 ∧
    (scanLines blocks mode first).2.filter (!isBlank ·) =
      (scanLines blocks mode second).2.filter (!isBlank ·)

theorem Alike.refl (blocks : Bool) (mode : CommentMode) (lines : List String) :
    Alike blocks mode lines lines :=
  ⟨rfl, rfl⟩

/-- Lines are compared part by part. -/
theorem Alike.append {first second third fourth : List String}
    (hfront : Alike blocks mode first second)
    (hrest : Alike blocks (scanLines blocks mode first).1 third fourth) :
    Alike blocks mode (first ++ third) (second ++ fourth) := by
  obtain ⟨hmode, hink⟩ := hrest
  rw [Alike, scanLines_append, scanLines_append, ← hfront.1]
  refine ⟨hmode, ?_⟩
  rw [List.filter_append, List.filter_append, hfront.2, hink]

/-- Parts that are alike from every mode in which they can start are alike one after the
other. -/
theorem alike_flatMap {α : Type} (start : CommentMode → Prop) {entries : List α}
    {first second : α → List String}
    (hstart : ∀ entry ∈ entries, ∀ mode, start mode → start (scanLines blocks mode (first entry)).1)
    (h : ∀ entry ∈ entries, ∀ mode, start mode → Alike blocks mode (first entry) (second entry))
    (hmode : start mode) : Alike blocks mode (entries.flatMap first) (entries.flatMap second) := by
  induction entries generalizing mode with
  | nil => exact Alike.refl _ _ _
  | cons entry entries ih =>
      rw [List.forall_mem_cons] at hstart h
      rw [List.flatMap_cons, List.flatMap_cons]
      exact (h.1 mode hmode).append (ih hstart.2 h.2 (hstart.1 mode hmode))

/-- Lines that are alike from code have the same ink. -/
theorem Alike.ink_eq {first second : List String} (h : Alike blocks code first second) :
    ink blocks (unlines first) = ink blocks (unlines second) := by
  obtain ⟨hmode, hink⟩ := h
  rw [scanLines, scanLines] at hmode hink
  rw [ink, ink, List.filter_append, List.filter_append, hink, hmode]

/-- Between the same lines, lines that lead to one mode are alike exactly if the whole has the
same ink. -/
theorem ink_eq_iff_alike {front first second rest : List String}
    (hmode : (scanLines blocks (scanLines blocks code front).1 first).1 =
      (scanLines blocks (scanLines blocks code front).1 second).1) :
    ink blocks (unlines (front ++ first ++ rest)) = ink blocks (unlines (front ++ second ++ rest)) ↔
      Alike blocks (scanLines blocks code front).1 first second := by
  constructor
  · intro hink
    refine ⟨hmode, ?_⟩
    rw [ink, ink, ← scanLines, ← scanLines] at hink
    simpa only [scanLines_append, hmode, List.filter_append, List.append_assoc,
      List.append_cancel_left_eq, List.append_cancel_right_eq] using hink
  · intro halike
    exact (((Alike.refl _ _ front).append halike).append (.refl _ _ rest)).ink_eq

end CommandSet
