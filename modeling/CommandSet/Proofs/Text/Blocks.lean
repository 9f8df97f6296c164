import CommandSet.Proofs.Schema.Numbers
import CommandSet.Proofs.Text.Lines
import CommandSet.Proofs.Text.Words
import CommandSet.Text.Hexadecimal
import Mathlib.Data.List.Basic

/-!
# Blocks and words of generated code

Generated code is read without the definitions that wrote it: a block by the lines that
open and close it at their nesting level, a line by the words between its blanks, and a
number by its hexadecimal digits.

Main definitions:

- {lit}`blockOf`: the lines of the first block with a given head.
- {lit}`topBlocks`: all blocks that start in a given way.
- {lit}`words`: the words of a line.
- {lit}`literalValue?`: the value of a hexadecimal literal.

Main results:

- Theorem {lit}`blockOf_append`: a block is read off the lines that contain it.
- Theorems {lit}`words_indent`, {lit}`words_append`: a line of words is read word by word.
- Theorem {lit}`literalValue_hexWord`: literals have the value they are written for.
-/

namespace CommandSet

/-! ## Blocks -/

/-- Lines that close a block at a nesting level. -/
def closesAt (level : Nat) (line : String) : Bool :=
  (indent level closing).toList.isPrefixOf line.toList

/-- The lines between the first one that opens a block with the given head and the one that
closes it at the same level. -/
def blockOf (level : Nat) (head : String) (lines : List String) : List String :=
  ((lines.dropWhile (· != indent level (opening head))).drop 1).takeWhile (!closesAt level ·)

theorem closesAt_closing (level : Nat) (rest : String) :
    closesAt level (indent level (closing ++ rest)) = true := by
  simp [closesAt, toList_indent]

theorem closesAt_indent_closing (level : Nat) : closesAt level (indent level closing) = true := by
  simp [closesAt]

/-- Deeper lines close nothing. -/
theorem closesAt_indent {level deeper : Nat} (h : level < deeper) (text : String) :
    closesAt level (indent deeper text) = false := by
  have hlength : 4 * deeper = 4 * level + (4 * (deeper - level) - 1 + 1) := by omega
  rw [closesAt, toList_indent, toList_indent, hlength, ← List.replicate_append_replicate,
    List.append_assoc, List.replicate_succ, Bool.eq_false_iff, ne_eq, List.isPrefixOf_iff_prefix,
    List.prefix_append_right_inj]
  exact fun hclosing => absurd (List.cons_prefix_cons.mp hclosing).1 (by decide)

/-- Only what starts with a blank starts an indented line. -/
theorem isPrefixOf_indent {c : Char} (hc : c ≠ ' ') (start : List Char) (level : Nat)
    (text : String) : (c :: start).isPrefixOf (indent (level + 1) text).toList = false := by
  simp [toList_indent, Nat.mul_succ, List.replicate_succ, List.isPrefixOf, hc]

/-- Lines at different levels differ. -/
theorem indent_ne {level deeper : Nat} (h : level < deeper) {text : String}
    (htext : text.toList.head? ≠ some ' ') (other : String) :
    indent deeper other ≠ indent level text := by
  intro heq
  have hlength : 4 * deeper = 4 * level + (4 * (deeper - level) - 1 + 1) := by omega
  rw [← String.toList_inj, toList_indent, toList_indent, hlength, ← List.replicate_append_replicate,
    List.append_assoc, List.append_cancel_left_eq, List.replicate_succ] at heq
  exact htext (heq ▸ rfl)

/-- A block is read off the lines that contain it. -/
theorem blockOf_append {level : Nat} {head last : String} {front body : List String}
    (hfront : ∀ line ∈ front, line ≠ indent level (opening head))
    (hbody : ∀ line ∈ body, closesAt level line = false) (hlast : closesAt level last = true)
    (rest : List String) :
    blockOf level head (front ++ indent level (opening head) :: (body ++ last :: rest)) = body := by
  have hfront' : ∀ line ∈ front, (line != indent level (opening head)) = true := fun line hline =>
    bne_iff_ne.mpr (hfront line hline)
  have hbody' : ∀ line ∈ body, (!closesAt level line) = true := fun line hline => by
    rw [hbody line hline, Bool.not_false]
  rw [blockOf, List.dropWhile_append_of_pos hfront', List.dropWhile_cons_of_neg (by simp),
    List.drop_succ_cons, List.drop_zero, List.takeWhile_append_of_pos hbody',
    List.takeWhile_cons_of_neg (by simp [hlast]), List.append_nil]

/-- A block at the outermost level is found where no earlier line starts as its head does. -/
theorem blockOf_top {start head ending : String} {front body lines : List String}
    (hlines : front ++ opening head :: (body ++ [closing ++ ending]) <+: lines)
    (hhead : start.toList.isPrefixOf (opening head).toList = true)
    (hfront : ∀ line ∈ front, start.toList.isPrefixOf line.toList = false)
    (hbody : ∀ line ∈ body, closesAt 0 line = false) : blockOf 0 head lines = body := by
  obtain ⟨rest, rfl⟩ := hlines
  have hfront' : ∀ line ∈ front, line ≠ indent 0 (opening head) := by
    rintro line hline rfl
    have hnot := hfront _ hline
    rw [indent_zero, hhead] at hnot
    cases hnot
  have hclosing := closesAt_closing 0 ending
  rw [indent_zero] at hclosing
  have hblock := blockOf_append hfront' hbody hclosing rest
  simpa [indent_zero] using hblock

/-- Lines that are read one by one. -/
theorem filterMap_lines {α β : Type} {entries : List α} {line : α → String}
    {read? : String → Option β} {value : α → β}
    (hread : ∀ entry ∈ entries, read? (line entry) = some (value entry)) :
    (entries.map line).filterMap read? = entries.map value := by
  rw [List.filterMap_map, ← List.filterMap_eq_map]
  exact List.filterMap_congr hread

/-- A table at the outermost level, with one line for each entry, is read entry by entry. -/
theorem filterMap_block {α β : Type} {start head ending : String} {front lines : List String}
    {entries : List α} {text : α → String} {read? : String → Option β} {value : α → β}
    (hlines : front ++ opening head ::
      (entries.map (fun entry => indent 1 (text entry)) ++ [closing ++ ending]) <+: lines)
    (hhead : start.toList.isPrefixOf (opening head).toList = true)
    (hfront : ∀ line ∈ front, start.toList.isPrefixOf line.toList = false)
    (hread : ∀ entry ∈ entries, read? (indent 1 (text entry)) = some (value entry)) :
    (blockOf 0 head lines).filterMap read? = entries.map value := by
  have hbody : ∀ line ∈ entries.map fun entry => indent 1 (text entry),
      closesAt 0 line = false :=
    List.forall_mem_map.mpr fun entry _ => closesAt_indent (by decide) _
  rw [blockOf_top hlines hhead hfront hbody, filterMap_lines hread]

/-! ## All blocks -/

/-- A block at the outermost level: the line that opens it, and the lines inside. -/
structure TopBlock where
  head : String
  body : List String
deriving Repr, DecidableEq

/-- The blocks whose first line starts in a given way. -/
def topBlocks (start : String) : List String → List TopBlock
  | [] => []
  | line :: rest =>
      if start.toList.isPrefixOf line.toList then
        ⟨line, rest.takeWhile (!closesAt 0 ·)⟩ :: topBlocks start rest
      else topBlocks start rest

section TopBlocks

variable {start : String}

/-- Lines that open no block. -/
theorem topBlocks_append {front : List String}
    (h : ∀ line ∈ front, start.toList.isPrefixOf line.toList = false) (rest : List String) :
    topBlocks start (front ++ rest) = topBlocks start rest := by
  induction front with
  | nil => rfl
  | cons line front ih =>
      rw [List.forall_mem_cons] at h
      rw [List.cons_append, topBlocks, if_neg (by simp [h.1]), ih h.2]

theorem topBlocks_eq_nil {lines : List String}
    (h : ∀ line ∈ lines, start.toList.isPrefixOf line.toList = false) :
    topBlocks start lines = [] := by
  have happend := topBlocks_append h []
  rwa [List.append_nil] at happend

/-- Every line that starts so opens a block. -/
theorem map_head_topBlocks (start : String) (lines : List String) :
    (topBlocks start lines).map (·.head) = lines.filter (start.toList.isPrefixOf ·.toList) := by
  induction lines with
  | nil => rfl
  | cons line rest ih =>
      rw [topBlocks, List.filter_cons]
      split
      next => rw [List.map_cons, ih]
      next => exact ih

/-- Carriage returns at the ends of lines make no difference to blocks. -/
theorem topBlocks_withoutReturn (h : start.toList.getLast? ≠ some '\r') (lines : List String) :
    topBlocks start (lines.map Text.withoutReturn) = (topBlocks start lines).map fun block =>
      ⟨Text.withoutReturn block.head, block.body.map Text.withoutReturn⟩ := by
  have hcloses (line : String) : closesAt 0 (Text.withoutReturn line) = closesAt 0 line :=
    Text.isPrefixOf_withoutReturn (by decide) line
  induction lines with
  | nil => rfl
  | cons line rest ih =>
      rw [List.map_cons, topBlocks, topBlocks, Text.isPrefixOf_withoutReturn h, ih]
      split
      next =>
        rw [List.map_cons, List.takeWhile_map]
        simp only [Function.comp_def, hcloses]
      next => rfl

/-- A block is read up to the line that closes it. -/
theorem topBlocks_block {head last : String} {body : List String}
    (hhead : start.toList.isPrefixOf head.toList = true)
    (hstart : ∀ line ∈ body, start.toList.isPrefixOf line.toList = false)
    (hbody : ∀ line ∈ body, closesAt 0 line = false) (hlast : closesAt 0 last = true)
    (rest : List String) : topBlocks start (head :: (body ++ last :: rest)) =
      ⟨head, body⟩ :: topBlocks start (last :: rest) := by
  have hinside : ∀ line ∈ body, (!closesAt 0 line) = true := fun line hline => by
    rw [hbody line hline, Bool.not_false]
  rw [topBlocks, if_pos hhead, topBlocks_append hstart, List.takeWhile_append_of_pos hinside,
    List.takeWhile_cons_of_neg (by simp [hlast]), List.append_nil]

/-- Blocks one after the other. -/
theorem topBlocks_flatMap {α : Type} {items : List α} {lines : α → List String}
    {block : α → TopBlock}
    (h : ∀ item ∈ items, ∀ rest,
      topBlocks start (lines item ++ rest) = block item :: topBlocks start rest)
    (rest : List String) : topBlocks start (items.flatMap lines ++ rest) =
      items.map block ++ topBlocks start rest := by
  induction items with
  | nil => rfl
  | cons item items ih =>
      rw [List.forall_mem_cons] at h
      rw [List.flatMap_cons, List.append_assoc, h.1, ih h.2]
      rfl

end TopBlocks

/-! ## Words -/

/-- The words of a text; {lit}`word` holds the characters since the last blank, in reverse. -/
def wordsFrom (word : List Char) : List Char → List (List Char)
  | [] => if word.isEmpty then [] else [word.reverse]
  | c :: rest =>
      if c == ' ' then
        if word.isEmpty then wordsFrom [] rest else word.reverse :: wordsFrom [] rest
      else wordsFrom (c :: word) rest

/-- The words of a line, between blanks. -/
def words (line : String) : List (List Char) :=
  wordsFrom [] line.toList

/-- Texts that are one word. -/
def Unbroken (text : String) : Prop :=
  text.toList ≠ [] ∧ ' ' ∉ text.toList

instance (text : String) : Decidable (Unbroken text) :=
  inferInstanceAs (Decidable (text.toList ≠ [] ∧ ' ' ∉ text.toList))

theorem Unbroken.append {first second : String} (hfirst : Unbroken first)
    (hsecond : ' ' ∉ second.toList) : Unbroken (first ++ second) := by
  rw [Unbroken, String.toList_append, List.mem_append, not_or]
  exact ⟨List.append_ne_nil_of_left_ne_nil hfirst.1 _, hfirst.2, hsecond⟩

theorem IsWord.unbroken {text : String} (h : IsWord text) (hne : text.toList ≠ []) :
    Unbroken text :=
  ⟨hne, h.blank_not_mem⟩

theorem words_indent (level : Nat) (text : String) : words (indent level text) = words text := by
  rw [words, toList_indent]
  induction 4 * level with
  | zero => rfl
  | succ n ih =>
      rw [List.replicate_succ, List.cons_append, ← ih]
      rfl

private theorem wordsFrom_append {word : List Char} (h : ' ' ∉ word) (seen rest : List Char) :
    wordsFrom seen (word ++ rest) = wordsFrom (word.reverse ++ seen) rest := by
  induction word generalizing seen with
  | nil => rfl
  | cons c word ih =>
      rw [List.mem_cons, not_or] at h
      have hc : (c == ' ') = false := beq_eq_false_iff_ne.mpr (Ne.symm h.1)
      rw [List.cons_append, wordsFrom, hc, if_neg Bool.false_ne_true, ih h.2, List.reverse_cons,
        List.append_assoc]
      rfl

theorem words_unbroken {text : String} (h : Unbroken text) : words text = [text.toList] := by
  have happend := wordsFrom_append h.2 [] []
  simp only [List.append_nil] at happend
  simp [words, happend, wordsFrom, h.1]

/-- The first word of a line. -/
theorem words_append {text : String} (h : Unbroken text) (rest : String) :
    words (text ++ " " ++ rest) = text.toList :: words rest := by
  have hlist : (text ++ " " ++ rest).toList = text.toList ++ ' ' :: rest.toList := by
    simp [String.toList_append]
  rw [words, hlist, wordsFrom_append h.2, wordsFrom]
  simp [h.1, words]

theorem words_three {first second third : String} (hfirst : Unbroken first)
    (hsecond : Unbroken second) (hthird : Unbroken third) :
    words (first ++ " " ++ (second ++ " " ++ third)) =
      [first.toList, second.toList, third.toList] := by
  rw [words_append hfirst, words_append hsecond, words_unbroken hthird]

/-! ## Literals -/

/-- The value of a hexadecimal literal. -/
def literalValue? : List Char → Option Int
  | '0' :: 'x' :: digits =>
      if digits.isEmpty || !digits.all Schema.isHexDigit then none
      else some (Schema.digitsValue 16 digits)
  | _ => none

theorem isWord_hexWord (word : UInt16) : IsWord (Text.hexWord word) := by
  have hdigits : IsWord (String.ofList (Text.hexCapitals word.toNat)) := by
    rw [IsWord, String.toList_ofList, Text.hexCapitals, List.forall_mem_map]
    exact Schema.forall_mem_toDigits (by decide) word.toNat
  exact (IsWord.fixed rfl : IsWord "0x").append hdigits

theorem unbroken_hexWord (word : UInt16) : Unbroken (Text.hexWord word) :=
  (isWord_hexWord word).unbroken (by simp [Text.hexWord])

/-- Literals have the value they are written for. -/
theorem literalValue_hexWord (word : UInt16) :
    literalValue? (Text.hexWord word).toList = some (word.toNat : Int) := by
  have hlist : (Text.hexWord word).toList = '0' :: 'x' :: Text.hexCapitals word.toNat := by
    simp [Text.hexWord, String.toList_append]
  have hdigits : (Text.hexCapitals word.toNat).all Schema.isHexDigit = true := by
    rw [List.all_eq_true, Text.hexCapitals, List.forall_mem_map]
    exact Schema.forall_mem_toDigits (by decide) word.toNat
  have hvalue : Schema.digitsValue 16 (Text.hexCapitals word.toNat) = word.toNat :=
    Schema.digitsValue_map_toDigits (by decide) (by decide) word.toNat
  have hne : Text.hexCapitals word.toNat ≠ [] := by
    simp [Text.hexCapitals, Text.hexDigits]
  simp [hlist, literalValue?, hdigits, hvalue, hne]

end CommandSet
