import CommandSet.Proofs.Recovery.Braces
import CommandSet.Proofs.Text.Lines
import CommandSet.Proofs.Text.Search
import CommandSet.Proofs.Text.Words

/-!
# Generated code

Generated code is made of lines without braces and of blocks, so its braces are balanced
and every one of its lines is one line of the text.

Main definitions:

- {lit}`lineBreaks`, {lit}`codeBreaks`: what fixed texts and names do not hold.
- {lit}`Code`: lines and blocks.

Main results:

- Theorem {lit}`Code.balanced`: generated code is balanced.
- Theorem {lit}`Code.isLine`: generated code is made of lines.
-/

namespace CommandSet
namespace Firmware

open Recovery (codePart depthAfter Balanced)
open Text (IsLine)

/-! ## Texts of lines -/

/-- Characters that no text of a line without braces holds. -/
def lineBreaks : List Char :=
  ['{', '}', '\n', '\r']

/-- Characters that no text in front of a brace holds. -/
def codeBreaks : List Char :=
  '/' :: lineBreaks

theorem not_isNameRest_of_mem_codeBreaks : ∀ c ∈ codeBreaks, ¬IsNameRest c := by
  simp [codeBreaks, lineBreaks, IsNameRest, IsNameStart]

theorem avoids_lineBreaks {text : String} (h : Avoids codeBreaks text) : Avoids lineBreaks text :=
  h.mono (List.subset_cons_self _ _)

theorem isLine_of_avoids {text : String} (h : Avoids lineBreaks text) : IsLine text where
  newline := h '\n' (by decide)
  carriage := fun hlast => h '\r' (by decide) (List.mem_of_getLast? hlast)

/-- A text with a last character that is no carriage return is a line as soon as it holds
no newline. -/
theorem isLine_append {first second : String} (hfirst : '\n' ∉ first.toList)
    (hsecond : IsLine second) (hne : second.toList ≠ []) : IsLine (first ++ second) where
  newline := by
    rw [String.toList_append, List.mem_append, not_or]
    exact ⟨hfirst, hsecond.newline⟩
  carriage := by
    rw [String.toList_append, List.getLast?_append_of_ne_nil _ hne]
    exact hsecond.carriage

/-! ## Braces of lines -/

theorem mem_of_mem_codePart {line : String} {c : Char} (h : c ∈ codePart line) : c ∈ line.toList :=
  (Text.before_isPrefix _ _).subset h

/-- A line without a slash holds no comment. -/
theorem codePart_eq {line : String} (h : '/' ∉ line.toList) : codePart line = line.toList := by
  refine Text.before_eq_self fun hmatch => h ?_
  exact hmatch.subset List.mem_cons_self

theorem depthAfter_line {line : String} (h : Avoids lineBreaks line) (depth : Nat) :
    depthAfter depth (codePart line) = some depth :=
  Recovery.depthAfter_of_braceless (fun hmem => h _ (by decide) (mem_of_mem_codePart hmem))
    (fun hmem => h _ (by decide) (mem_of_mem_codePart hmem)) depth

theorem codePart_opening {level : Nat} {head : String} (h : Avoids codeBreaks head) :
    codePart (indent level (opening head)) = (indent level head).toList ++ [' ', '{'] := by
  have hlist : (indent level (opening head)).toList = (indent level head).toList ++ [' ', '{'] := by
    simp [toList_indent, opening]
  have hslash : Avoids codeBreaks (indent level head) := (avoids_indent (by decide)).mpr h
  rw [codePart_eq, hlist]
  rw [hlist, List.mem_append, not_or]
  exact ⟨hslash _ List.mem_cons_self, by decide⟩

/-- A line that opens a block. -/
theorem depthAfter_opening {level : Nat} {head : String} (h : Avoids codeBreaks head)
    (depth : Nat) :
    depthAfter depth (codePart (indent level (opening head))) = some (depth + 1) := by
  have hhead : Avoids codeBreaks (indent level head) := (avoids_indent (by decide)).mpr h
  rw [codePart_opening h, Recovery.depthAfter_append, Recovery.depthAfter_of_braceless
    (hhead _ (by decide)) (hhead _ (by decide))]
  rfl

theorem mem_codePart_opening {level : Nat} {head : String} (h : Avoids codeBreaks head) :
    '{' ∈ codePart (indent level (opening head)) := by
  rw [codePart_opening h]
  simp

theorem isLine_opening {level : Nat} {head : String} (h : Avoids codeBreaks head) :
    IsLine (indent level (opening head)) := by
  have hhead : Avoids lineBreaks (indent level head) :=
    (avoids_indent (by decide)).mpr (avoids_lineBreaks h)
  have hlist : indent level (opening head) = indent level head ++ r" {" := by
    rw [indent, indent, opening, String.append_assoc]
  rw [hlist]
  exact isLine_append (hhead _ (by decide)) ⟨by decide, by decide⟩ (by decide)

theorem toList_closing (level : Nat) :
    (indent level closing).toList = List.replicate (4 * level) ' ' ++ ['}'] := by
  rw [toList_indent]
  rfl

/-- The line that closes it. -/
theorem depthAfter_closing (level depth : Nat) :
    depthAfter (depth + 1) (codePart (indent level closing)) = some depth := by
  have hslash : '/' ∉ (indent level closing).toList := by
    rw [toList_closing]
    simp
  rw [codePart_eq hslash, toList_closing, Recovery.depthAfter_append,
    Recovery.depthAfter_of_braceless (by simp) (by simp)]
  rfl

theorem isLine_closing (level : Nat) : IsLine (indent level closing) where
  newline := by
    rw [toList_closing]
    simp
  carriage := by
    rw [toList_closing]
    simp

/-! ## Lines and blocks -/

/-- Lines without braces, and blocks between the lines that open and close them. -/
inductive Code : List String → Prop where
  | nil : Code []
  | line {text : String} {rest : List String} (htext : Avoids lineBreaks text) (hrest : Code rest) :
      Code (text :: rest)
  | block (level : Nat) {head : String} {body rest : List String} (hhead : Avoids codeBreaks head)
      (hbody : Code body) (hrest : Code rest) :
      Code (indent level (opening head) :: (body ++ indent level closing :: rest))

theorem Code.append {first second : List String} (hfirst : Code first) (hsecond : Code second) :
    Code (first ++ second) := by
  induction hfirst with
  | nil => exact hsecond
  | line htext _ ih => exact .line htext ih
  | block level hhead hbody _ _ ih =>
      rw [List.cons_append, List.append_assoc]
      exact .block level hhead hbody ih

/-- Generated code is balanced. -/
theorem Code.balanced {lines : List String} (h : Code lines) : Balanced lines := by
  induction h with
  | nil => exact .nil
  | line htext _ ih => exact .cons (depthAfter_line htext 0) ih
  | @block level head body rest hhead _ _ ihbody ihrest =>
      have hblock : Balanced (indent level (opening head) :: (body ++ [indent level closing])) :=
        .block (depthAfter_opening hhead 0) ihbody (depthAfter_closing level 0)
      have happend := hblock.append ihrest
      simpa using happend

/-- Every line of generated code is one line. -/
theorem Code.isLine {lines : List String} (h : Code lines) : ∀ line ∈ lines, IsLine line := by
  induction h with
  | nil => exact fun _ hline => absurd hline List.not_mem_nil
  | line htext _ ih => exact List.forall_mem_cons.mpr ⟨isLine_of_avoids htext, ih⟩
  | @block level head body rest hhead _ _ ihbody ihrest =>
      rw [List.forall_mem_cons, List.forall_mem_append, List.forall_mem_cons]
      exact ⟨isLine_opening hhead, ihbody, isLine_closing level, ihrest⟩

end Firmware
end CommandSet
