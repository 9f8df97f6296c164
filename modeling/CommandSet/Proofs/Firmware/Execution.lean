import CommandSet.Proofs.Firmware.Nesting
import CommandSet.Proofs.Text.Between

/-!
# Runs of generated functions

A generated function branches where a block is opened under a condition and ends where it
returns.  Which lines run is found out from the text of the function alone, given which
conditions hold.

Main definitions:

- {lit}`entered`: the lines in blocks that are entered.
- {lit}`run`: the lines that run, up to the first return.
- {lit}`Enters`: lines of which some are entered, whatever follows them.

Main results:

- Theorems {lit}`Enters.lines`, {lit}`Enters.block`, {lit}`Enters.branch`: how lines are entered
  that are put together of lines and blocks.
-/

namespace CommandSet
namespace Firmware

/-! ## Lines that run -/

/-- Whether a block is entered: one that stands under a condition if the condition holds. -/
def enters (holds : String → Bool) (head : String) : Bool :=
  (between? "if " "" head.toList).all holds

/-- The lines in blocks that are entered; {lit}`blocks` says which of the open blocks are, the
innermost first. -/
def entered (holds : String → Bool) (blocks : List Bool) : List String → List String
  | [] => []
  | line :: rest =>
      if unindented line = closing then entered holds blocks.tail rest
      else if unindented line = opening (closing ++ " else") then
        entered holds ((!blocks.headD true) :: blocks.tail) rest
      else
        match openedHead? (unindented line) with
        | some head => entered holds (enters holds head :: blocks) rest
        | none => (if blocks.all id then [line] else []) ++ entered holds blocks rest

/-- Lines that end a function. -/
def returns (line : String) : Bool :=
  "return ".toList.isPrefixOf (unindented line).toList

/-- The lines of a function that run, up to the first return, given which conditions hold. -/
def run (holds : String → Bool) (lines : List String) : List String :=
  (entered holds [] lines).takeWhile (!returns ·)

/-- What runs is entered. -/
theorem run_isPrefix (holds : String → Bool) (lines : List String) :
    run holds lines <+: entered holds [] lines :=
  List.takeWhile_prefix _

/-- What is entered up to the first return runs. -/
theorem run_eq {holds : String → Bool} {lines front rest : List String} {last : String}
    (h : entered holds [] lines = front ++ last :: rest)
    (hfront : ∀ line ∈ front, returns line = false) (hlast : returns last = true) :
    run holds lines = front := by
  have hkept : ∀ line ∈ front, (!returns line) = true := fun line hline => by
    rw [hfront line hline, Bool.not_false]
  rw [run, h, List.takeWhile_append_of_pos hkept, List.takeWhile_cons_of_neg (by simp [hlast]),
    List.append_nil]

/-! ## Lines and blocks -/

/-- Inside blocks of which some are entered, some of the lines are, whatever follows. -/
def Enters (holds : String → Bool) (blocks : List Bool) (lines reached : List String) : Prop :=
  ∀ rest, entered holds blocks (lines ++ rest) = reached ++ entered holds blocks rest

variable {holds : String → Bool} {blocks : List Bool}

theorem Enters.nil : Enters holds blocks [] [] :=
  fun _ => rfl

theorem Enters.append {first second reached reached' : List String}
    (hfirst : Enters holds blocks first reached) (hsecond : Enters holds blocks second reached') :
    Enters holds blocks (first ++ second) (reached ++ reached') := by
  intro rest
  rw [List.append_assoc, hfirst, hsecond, List.append_assoc]

/-- Texts of lines without braces. -/
structure FlatText (text : String) : Prop where
  flush : Flush text
  braces : Avoids lineBreaks text

/-- A line that opens and closes nothing is entered if all blocks around it are. -/
theorem Enters.line {text : String} (h : FlatText text) (level : Nat) :
    Enters holds blocks [indent level text]
      (if blocks.all id then [indent level text] else []) := by
  intro rest
  have hplain := braceless_of_avoids h.braces
  have hclosing : text ≠ closing := fun heq => by
    rw [heq] at hplain
    exact absurd hplain (by decide)
  have helse : text ≠ opening (closing ++ " else") := fun heq => by
    rw [heq] at hplain
    exact absurd hplain (by decide)
  rw [List.cons_append, List.nil_append, entered, unindented_indent h.flush, if_neg hclosing,
    if_neg helse, openedHead_of_braceless hplain]

/-- So are lines one after the other. -/
theorem Enters.lines {texts : List String} (h : ∀ text ∈ texts, FlatText text) (level : Nat) :
    Enters holds blocks (texts.map (indent level))
      (if blocks.all id then texts.map (indent level) else []) := by
  induction texts with
  | nil => simpa using Enters.nil
  | cons text texts ih =>
      rw [List.forall_mem_cons] at h
      have hall := (Enters.line h.1 level).append (ih h.2)
      cases hentered : blocks.all id <;> simpa [hentered] using hall

/-- The line that opens a block changes nothing but the blocks around what follows. -/
theorem entered_opening {head : String} (h : FlatText head) (level : Nat) (rest : List String) :
    entered holds blocks (indent level (opening head) :: rest) =
      entered holds (enters holds head :: blocks) rest := by
  have hopening : opening head ≠ closing := fun heq => by
    have hnone : openedHead? closing = none := by decide
    rw [← heq, openedHead_opening] at hnone
    cases hnone
  have helse : opening head ≠ opening (closing ++ " else") := fun heq => by
    rw [opening, opening, String.append_left_inj] at heq
    exact h.braces '}' (by decide) (by rw [heq]; decide)
  have htext : unindented (indent level (opening head)) = opening head :=
    unindented_indent (h.flush.append _) level
  rw [entered, htext, if_neg hopening, if_neg helse,
    openedHead_opening]

theorem entered_closing (level : Nat) (rest : List String) :
    entered holds blocks (indent level closing :: rest) = entered holds blocks.tail rest := by
  rw [entered, unindented_indent (by decide), if_pos rfl]

theorem entered_else (level : Nat) (rest : List String) :
    entered holds blocks (indent level (opening (closing ++ " else")) :: rest) =
      entered holds ((!blocks.headD true) :: blocks.tail) rest := by
  rw [entered, unindented_indent (by decide), if_neg (by decide), if_pos rfl]

/-- A block is entered if its condition holds. -/
theorem Enters.block {head : String} {body reached : List String} (h : FlatText head) (level : Nat)
    (hbody : Enters holds (enters holds head :: blocks) body reached) :
    Enters holds blocks (indent level (opening head) :: (body ++ [indent level closing]))
      reached := by
  intro rest
  rw [List.cons_append, entered_opening h, List.append_assoc, hbody, List.cons_append,
    entered_closing, List.tail_cons, List.nil_append]

/-- Of two branches the first one is entered if the condition holds, else the second one. -/
theorem Enters.branch {head : String} {body other reached reached' : List String}
    (h : FlatText head) (level : Nat)
    (hbody : Enters holds (enters holds head :: blocks) body reached)
    (hother : Enters holds ((!enters holds head) :: blocks) other reached') :
    Enters holds blocks (indent level (opening head) ::
      (body ++ indent level (opening (closing ++ " else")) :: (other ++ [indent level closing])))
      (reached ++ reached') := by
  intro rest
  rw [List.cons_append, entered_opening h, List.append_assoc, hbody, List.cons_append,
    entered_else, List.headD_cons, List.tail_cons, List.append_assoc, hother, List.cons_append,
    entered_closing, List.tail_cons, List.nil_append, List.append_assoc]

end Firmware
end CommandSet
