import CommandSet.Proofs.Firmware.Code
import CommandSet.Proofs.Text.Blocks

/-!
# Nesting of lines

A line of generated code opens a block with a brace at its end, closes one with a brace of its
own, or holds no brace.  Read from the top, the lines therefore stand inside the blocks that are
open, and each of these is known by its head.

Main definitions:

- {lit}`NestedLine`: a line with its nesting level and the blocks around it.
- {lit}`nest`: the nested lines of code whose braces are balanced.
- {lit}`Reads`: lines that are read alike whatever follows them.

Main results:

- Theorems {lit}`Reads.line`, {lit}`Reads.block`, {lit}`Reads.append`: how lines are read that are
  put together of lines and blocks.
- Theorem {lit}`Reads.nest_eq`: code that is read as a whole has balanced braces.
-/

namespace CommandSet
namespace Firmware

/-! ## Lines -/

/-- A line that opens and closes nothing: its indentation in steps, the heads of the blocks around
it, the outermost first, and its text. -/
structure NestedLine where
  level : Nat
  heads : List String
  text : String
deriving Repr, DecidableEq

/-- The number of blanks in front of a line. -/
def blanks (line : String) : Nat :=
  (line.toList.takeWhile (· == ' ')).length

/-- The indentation of a line in steps of four blanks; none if it lies between two steps. -/
def levelOf? (line : String) : Option Nat :=
  if blanks line % 4 = 0 then some (blanks line / 4) else none

/-- The text of a line behind its indentation. -/
def unindented (line : String) : String :=
  String.ofList (line.toList.dropWhile (· == ' '))

/-- Texts that start with something to be seen. -/
def Flush (text : String) : Prop :=
  text.toList.head?.any (· != ' ') = true

instance (text : String) : Decidable (Flush text) :=
  inferInstanceAs (Decidable (text.toList.head?.any (· != ' ') = true))

theorem Flush.exists_cons {text : String} (h : Flush text) :
    ∃ c rest, text.toList = c :: rest ∧ (c == ' ') = false := by
  rw [Flush] at h
  cases htext : text.toList with
  | nil => simp [htext] at h
  | cons c rest => exact ⟨c, rest, rfl, by simpa [htext] using h⟩

theorem Flush.append {first : String} (h : Flush first) (second : String) :
    Flush (first ++ second) := by
  obtain ⟨c, rest, htext, hc⟩ := h.exists_cons
  simpa [Flush, htext] using hc

theorem flush_of_unbroken {text : String} (h : Unbroken text) : Flush text := by
  obtain ⟨c, rest, htext⟩ := List.exists_cons_of_ne_nil h.1
  have hc : c ≠ ' ' := fun heq => h.2 (htext ▸ heq ▸ List.mem_cons_self)
  simpa [Flush, htext] using hc

private theorem blank_of_mem_replicate (n : Nat) :
    ∀ c ∈ List.replicate n ' ', (c == ' ') = true :=
  fun _ h => beq_iff_eq.mpr (List.eq_of_mem_replicate h)

theorem levelOf_indent {text : String} (h : Flush text) (level : Nat) :
    levelOf? (indent level text) = some level := by
  obtain ⟨c, rest, htext, hc⟩ := h.exists_cons
  have hblanks : blanks (indent level text) = 4 * level := by
    rw [blanks, toList_indent, htext, List.takeWhile_append_of_pos (blank_of_mem_replicate _),
      List.takeWhile_cons_of_neg (by simp [hc]), List.append_nil, List.length_replicate]
  rw [levelOf?, hblanks, if_pos (Nat.mul_mod_right 4 level),
    Nat.mul_div_cancel_left level (by decide)]

/-- The indentation makes no difference to the text behind it. -/
theorem unindented_of_indent (level : Nat) (text : String) :
    unindented (indent level text) = unindented text := by
  rw [unindented, toList_indent, List.dropWhile_append_of_pos (blank_of_mem_replicate _),
    unindented]

theorem Flush.unindented_eq {text : String} (h : Flush text) : unindented text = text := by
  obtain ⟨c, rest, htext, hc⟩ := h.exists_cons
  rw [unindented, htext, List.dropWhile_cons_of_neg (by simp [hc]), ← htext, String.ofList_toList]

theorem unindented_indent {text : String} (h : Flush text) (level : Nat) :
    unindented (indent level text) = text := by
  rw [unindented_of_indent, h.unindented_eq]

/-! ## Blocks -/

/-- The head of the block that a text opens. -/
def openedHead? (text : String) : Option String :=
  match text.toList.reverse with
  | '{' :: ' ' :: head => some (String.ofList head.reverse)
  | _ => none

/-- Texts without braces. -/
def braceless (text : String) : Bool :=
  text.toList.all fun c => c != '{' && c != '}'

/-- The nested lines of code inside blocks with the given heads, the innermost first; none if a
brace is out of place or a line is not indented in steps. -/
def nest (heads : List String) : List String → Option (List NestedLine)
  | [] => if heads.isEmpty then some [] else none
  | line :: rest =>
      if unindented line = closing then
        if heads.isEmpty then none else nest heads.tail rest
      else
        match openedHead? (unindented line) with
        | some head => if braceless head then nest (head :: heads) rest else none
        | none =>
            if braceless (unindented line) then
              (levelOf? line).bind fun level =>
                (nest heads rest).map (⟨level, heads.reverse, unindented line⟩ :: ·)
            else none

theorem openedHead_opening (head : String) : openedHead? (opening head) = some head := by
  simp [openedHead?, opening]

theorem braceless_iff {text : String} :
    braceless text = true ↔ '{' ∉ text.toList ∧ '}' ∉ text.toList := by
  simp only [braceless, List.all_eq_true, Bool.and_eq_true, bne_iff_ne]
  exact ⟨fun h => ⟨fun hmem => (h _ hmem).1 rfl, fun hmem => (h _ hmem).2 rfl⟩,
    fun h c hc => ⟨fun heq => h.1 (heq ▸ hc), fun heq => h.2 (heq ▸ hc)⟩⟩

theorem openedHead_of_braceless {text : String} (h : braceless text = true) :
    openedHead? text = none := by
  rw [openedHead?]
  split
  next head hreverse =>
    have hmem : '{' ∈ text.toList.reverse := hreverse ▸ List.mem_cons_self
    exact absurd (List.mem_reverse.mp hmem) (braceless_iff.mp h).1
  next => rfl

theorem braceless_of_avoids {text : String} (h : Avoids lineBreaks text) :
    braceless text = true :=
  braceless_iff.mpr ⟨h _ (by decide), h _ (by decide)⟩

/-! ## Reading -/

/-- Inside the blocks with the given heads, lines are read as nested lines, whatever follows. -/
def Reads (heads : List String) (lines : List String) (nested : List NestedLine) : Prop :=
  ∀ rest, nest heads (lines ++ rest) = (nest heads rest).map (nested ++ ·)

variable {heads : List String}

theorem Reads.nil : Reads heads [] [] := by
  intro rest
  simp

theorem Reads.append {first second : List String} {nested nested' : List NestedLine}
    (hfirst : Reads heads first nested) (hsecond : Reads heads second nested') :
    Reads heads (first ++ second) (nested ++ nested') := by
  intro rest
  rw [List.append_assoc, hfirst, hsecond, Option.map_map]
  exact congrArg (Option.map · _) (funext fun _ => (List.append_assoc _ _ _).symm)

/-- A line without braces stands in the blocks that are open. -/
theorem Reads.line {text : String} (hflush : Flush text) (hbraces : Avoids lineBreaks text)
    (level : Nat) :
    Reads heads [indent level text] [⟨level, heads.reverse, text⟩] := by
  intro rest
  have hplain := braceless_of_avoids hbraces
  have hclosing : text ≠ closing := fun heq => by
    rw [heq] at hplain
    exact absurd hplain (by decide)
  rw [List.cons_append, List.nil_append, nest, unindented_indent hflush, if_neg hclosing,
    openedHead_of_braceless hplain, if_pos hplain, levelOf_indent hflush]
  rfl

/-- The lines of a block stand in it as well. -/
theorem Reads.block {head : String} {body : List String} {nested : List NestedLine}
    (hflush : Flush head) (hbraces : Avoids lineBreaks head) (level : Nat)
    (hbody : Reads (head :: heads) body nested) :
    Reads heads (indent level (opening head) :: (body ++ [indent level closing])) nested := by
  intro rest
  have hopening : opening head ≠ closing := fun heq => by
    have hnone : openedHead? closing = none := by decide
    rw [← heq, openedHead_opening] at hnone
    cases hnone
  have hhead : unindented (indent level (opening head)) = opening head :=
    unindented_indent (hflush.append _) level
  have hclosing : unindented (indent level closing) = closing := unindented_indent (by decide) level
  rw [List.cons_append, nest, hhead, if_neg hopening, openedHead_opening]
  dsimp only
  rw [if_pos (braceless_of_avoids hbraces), List.append_assoc, hbody, List.cons_append,
    List.nil_append, nest, if_pos hclosing]
  rfl

/-- Code that is read outside of all blocks closes those it opens. -/
theorem Reads.nest_eq {lines : List String} {nested : List NestedLine} (h : Reads [] lines nested) :
    nest [] lines = some nested := by
  have hall := h []
  rw [List.append_nil] at hall
  simpa [nest] using hall

end Firmware
end CommandSet
