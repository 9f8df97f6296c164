import CommandSet.Firmware.Statement
import CommandSet.Proofs.Text.Between
import CommandSet.Proofs.Text.Blocks
import Mathlib.Data.Nat.Bitwise

/-!
# Presence bits

The generated C code on a presence bitfield is read and run here: the declaration of the member,
the constants of the flags, and the statements that clear the bitfield, set a flag and test one.
Whatever the number of attributes of a group, each of them has a bit of its own.

Main definitions:

- {lit}`BitMember`, {lit}`BitMember.read?`: the member that a declaration declares.
- {lit}`maskValue?`: the value of a flag.
- {lit}`runClear?`, {lit}`runSet?`, {lit}`runTest?`: what statements and conditions do with the
  numbers of a member.
- {lit}`BitsApart`: bits that never alias.

Main results:

- Theorem {lit}`place_inj`: two attributes of a group have different bits.
- Theorem {lit}`runSets_place`: what a run of statements that set flags leaves behind.
- Theorem {lit}`bitsApart_ofCount`: the bits of a group never alias.
-/

namespace CommandSet
namespace Firmware

/-! ## Members -/

/-- A struct member of one number, or of an array of numbers, with the bits of each number. -/
structure BitMember where
  bits : Nat
  /-- The length of the array; none for a single number. -/
  length : Option Nat
deriving Repr, DecidableEq

/-- An index between brackets at the head of a text, if there is one, and what follows. -/
def subscript (text : List Char) : Option Nat × List Char :=
  match text with
  | '[' :: rest =>
      match rest.dropWhile Char.isDigit with
      | ']' :: behind => (some (Schema.digitsValue 10 (rest.takeWhile Char.isDigit)), behind)
      | _ => (none, text)
  | _ => (none, text)

namespace BitMember

/-- How many numbers a member holds. -/
def cells (member : BitMember) : Nat :=
  member.length.getD 1

/-- The number that an expression with the given index denotes: an element of an array, or
without an index the whole of a single number. -/
def cell? (member : BitMember) (index : Option Nat) : Option Nat :=
  match member.length, index with
  | none, none => some 0
  | some length, some index => if index < length then some index else none
  | _, _ => none

/-- The bits of a type of numbers. -/
def typeBits? (typeName : List Char) : Option Nat :=
  if typeName = "uint8_t".toList then some 8
  else if typeName = "uint16_t".toList then some 16
  else if typeName = "uint32_t".toList then some 32
  else none

/-- The member that a declaration declares under the name of the presence bitfield. -/
def read? (declaration : String) : Option BitMember :=
  match words declaration with
  | [typeName, declarator] => do
      let bits ← typeBits? typeName
      let shape ← declarator.dropPrefix? presenceMember.toList
      match subscript shape with
      | (length, [';']) => some ⟨bits, length⟩
      | _ => none
  | _ => none

end BitMember

/-! ## Code on a member -/

/-- The value of a flag: a one of 32 bits with its sign, or of 32 bits without one, shifted to a
bit it has. -/
def maskValue? (text : String) : Option Nat :=
  match words text with
  | [one, ['<', '<'], shift] => do
      let bits ← if one = "(1".toList then some 31
        else if one = "(1UL".toList then some 32 else none
      let digits ← shift.dropSuffix? [')']
      let bit := Schema.digitsValue 10 digits
      if bit < bits then some (2 ^ bit) else none
  | _ => none

/-- The index and the flag in a condition that a flag of a field is set. -/
def readTest? (field text : String) : Option (Option Nat × String) := do
  let rest ← text.toList.dropPrefix? ("((" ++ field).toList
  let (index, rest) := subscript rest
  let rest ← rest.dropPrefix? " & ".toList
  let flag ← rest.dropSuffix? ") != 0)".toList
  some (index, String.ofList flag)

/-- The index and the flag in a statement that sets a flag of a field. -/
def readSet? (field text : String) : Option (Option Nat × String) := do
  let rest ← text.toList.dropPrefix? field.toList
  let (index, rest) := subscript rest
  let rest ← rest.dropPrefix? " |= ".toList
  let flag ← rest.dropSuffix? [';']
  some (index, String.ofList flag)

section Code

variable (member : BitMember) (value? : String → Option String) (field : String)

/-- The number of the member that an access with a flag touches, and the mask of the flag;
{lit}`value?` gives the definitions of the flags. -/
def place? (access : Option (Option Nat × String)) : Option (Nat × Nat) := do
  let (index, flag) ← access
  let cell ← member.cell? index
  let mask ← (value? flag).bind maskValue?
  some (cell, mask)

/-- What a statement that sets a flag makes of the numbers of a member. -/
def runSet? (text : String) (numbers : List Nat) : Option (List Nat) := do
  let (cell, mask) ← place? member value? (readSet? field text)
  let number ← numbers[cell]?
  some (numbers.set cell ((number ||| mask) % 2 ^ member.bits))

/-- Whether a condition on a flag holds of the numbers of a member. -/
def runTest? (text : String) (numbers : List Nat) : Option Bool := do
  let (cell, mask) ← place? member value? (readTest? field text)
  let number ← numbers[cell]?
  some ((number &&& mask) != 0)

/-- What a statement that clears a field makes of the numbers of a member: a single number is
assigned, and of an array some bytes are filled. -/
def runClear? (text : String) (numbers : List Nat) : Option (List Nat) :=
  if text = field ++ " = 0;" then
    match member.length with
    | none => some [0]
    | some _ => none
  else do
    let rest ← text.toList.dropPrefix? ("memset(" ++ field ++ ", 0, ").toList
    let digits ← rest.dropSuffix? ");".toList
    let count := Schema.digitsValue 10 digits
    if member.bits = 8 ∧ count ≤ numbers.length then
      some (List.replicate count 0 ++ numbers.drop count)
    else none

end Code

/-! ## Reading generated code -/

theorem isDigit_of_mem_toString {n : Nat} {c : Char} (h : c ∈ (toString n).toList) :
    c.isDigit = true := by
  rw [Nat.toString_eq_repr, Nat.toList_repr] at h
  exact Nat.isDigit_of_mem_toDigits (by decide) (by decide) h

/-- An index is read off its brackets. -/
theorem subscript_index (k : Nat) (rest : List Char) :
    subscript ('[' :: ((toString k).toList ++ ']' :: rest)) = (some k, rest) := by
  have hdigits : ∀ c ∈ (toString k).toList, c.isDigit = true := fun c hc =>
    isDigit_of_mem_toString hc
  have hbracket : ¬Char.isDigit ']' = true := by decide
  have htake : ((toString k).toList ++ ']' :: rest).takeWhile Char.isDigit =
      (toString k).toList := by
    rw [List.takeWhile_append_of_pos hdigits, List.takeWhile_cons_of_neg hbracket, List.append_nil]
  have hdrop : ((toString k).toList ++ ']' :: rest).dropWhile Char.isDigit = ']' :: rest := by
    rw [List.dropWhile_append_of_pos hdigits, List.dropWhile_cons_of_neg hbracket]
  unfold subscript
  simp only [hdrop, htake, Schema.digitsValue_toString]

theorem subscript_of_ne {c : Char} (hc : c ≠ '[') (rest : List Char) :
    subscript (c :: rest) = (none, c :: rest) := by
  unfold subscript
  split
  next heq => exact absurd (List.cons.inj heq).1 hc
  next => rfl

end Firmware

namespace PresenceWidth

open Firmware

variable (width : PresenceWidth)

/-- The member that holds a bitfield. -/
def member : PresenceWidth → BitMember
  | u8 => ⟨8, none⟩
  | u16 => ⟨16, none⟩
  | u32 => ⟨32, none⟩
  | bytes n => ⟨8, some n⟩

/-- The number that holds the bit of the attribute at {lit}`index`, and its mask. -/
def place (index : Nat) : Nat × Nat :=
  ((width.cell? index).getD 0, 2 ^ width.bit index)

theorem read_declaration : BitMember.read? width.declaration = some width.member := by
  cases width with
  | bytes n =>
      have hwords : words (bytes n).declaration = ["uint8_t".toList,
          presenceMember.toList ++ '[' :: ((toString n).toList ++ ']' :: [';'])] := by
        have hline : (bytes n).declaration =
            "uint8_t" ++ " " ++ (presenceMember ++ ("[" ++ toString n ++ "];")) := by
          simp [declaration, ← String.toList_inj]
        have hunbroken : Unbroken (presenceMember ++ ("[" ++ toString n ++ "];")) := by
          apply Unbroken.append (by decide)
          simpa using (isWord_toString n).blank_not_mem
        rw [hline, words_append (by decide), words_unbroken hunbroken]
        simp
      have hshape := subscript_index n [';']
      unfold BitMember.read?
      rw [hwords]
      simp only [dropPrefix_append, Option.bind_eq_bind, Option.bind_some, hshape]
      rfl
  | u8 => decide
  | u16 => decide
  | u32 => decide

theorem maskValue_flagValue {index : Nat} (h : width.bit index < width.member.bits) :
    maskValue? (width.flagValue index) = some (2 ^ width.bit index) := by
  have hread (one : String) (bits : Nat)
      (hone : one = "(1" ∧ bits = 31 ∨ one = "(1UL" ∧ bits = 32) (hbit : width.bit index < bits) :
      maskValue? (one ++ " << " ++ toString (width.bit index) ++ ")") =
        some (2 ^ width.bit index) := by
    have hwords : words (one ++ " << " ++ toString (width.bit index) ++ ")") =
        [one.toList, ['<', '<'], (toString (width.bit index)).toList ++ [')']] := by
      have hline : one ++ " << " ++ toString (width.bit index) ++ ")" =
          one ++ " " ++ ("<<" ++ " " ++ (toString (width.bit index) ++ ")")) := by
        simp [← String.toList_inj]
      have hunbroken : Unbroken (toString (width.bit index) ++ ")") := by
        refine ⟨by simp, ?_⟩
        simpa using (isWord_toString (width.bit index)).blank_not_mem
      have hfirst : Unbroken one := by
        rcases hone with ⟨rfl, -⟩ | ⟨rfl, -⟩ <;> decide
      rw [hline, words_three hfirst (by decide) hunbroken]
      simp
    unfold maskValue?
    rw [hwords]
    rcases hone with ⟨rfl, rfl⟩ | ⟨rfl, rfl⟩ <;>
      simp only [dropSuffix_append, Schema.digitsValue_toString, Option.bind_eq_bind,
        Option.bind_some] <;>
      exact if_pos hbit
  cases width with
  | u32 => exact hread "(1UL" 32 (.inr ⟨rfl, rfl⟩) h
  | _ => exact hread "(1" 31 (.inl ⟨rfl, rfl⟩) (Nat.lt_of_lt_of_le h (by simp [member]))

/-- The access to a bit is read behind the field. -/
theorem subscript_cellOf (field : String) (index : Nat) {c : Char} (hc : c ≠ '[')
    (rest : List Char) : ∃ shape, (width.cellOf field index).toList = field.toList ++ shape ∧
      subscript (shape ++ c :: rest) = (width.cell? index, c :: rest) := by
  cases width with
  | bytes n =>
      refine ⟨'[' :: ((toString (index / 8)).toList ++ [']']), ?_, ?_⟩
      · simp [cellOf, cell?]
      · simpa [cell?] using subscript_index (index / 8) (c :: rest)
  | _ => exact ⟨[], by simp [cellOf, cell?], subscript_of_ne hc rest⟩

theorem readTest_testExpr (field flag : String) (index : Nat) :
    readTest? field (width.testExpr field flag index) = some (width.cell? index, flag) := by
  obtain ⟨shape, hcell, hshape⟩ := width.subscript_cellOf field index (by decide : ' ' ≠ '[')
    ("& ".toList ++ (flag.toList ++ ") != 0)".toList))
  have htext : (width.testExpr field flag index).toList = ("((" ++ field).toList ++
      (shape ++ ' ' :: ("& ".toList ++ (flag.toList ++ ") != 0)".toList))) := by
    simp [testExpr, hcell]
  have hflag : (' ' :: ("& ".toList ++ (flag.toList ++ ") != 0)".toList))).dropPrefix?
      " & ".toList = some (flag.toList ++ ") != 0)".toList) := dropPrefix_append " & ".toList _
  simp only [readTest?, htext, dropPrefix_append, hshape, hflag, dropSuffix_append,
    Option.bind_eq_bind, Option.bind_some, String.ofList_toList]

theorem readSet_setStatement (field flag : String) (index : Nat) :
    readSet? field (width.setStatement field flag index) = some (width.cell? index, flag) := by
  obtain ⟨shape, hcell, hshape⟩ := width.subscript_cellOf field index (by decide : ' ' ≠ '[')
    ("|= ".toList ++ (flag.toList ++ [';']))
  have htext : (width.setStatement field flag index).toList = field.toList ++
      (shape ++ ' ' :: ("|= ".toList ++ (flag.toList ++ [';']))) := by
    simp [setStatement, hcell]
  have hflag : (' ' :: ("|= ".toList ++ (flag.toList ++ [';']))).dropPrefix? " |= ".toList =
      some (flag.toList ++ [';']) := dropPrefix_append " |= ".toList _
  simp only [readSet?, htext, dropPrefix_append, hshape, hflag, dropSuffix_append,
    Option.bind_eq_bind, Option.bind_some, String.ofList_toList]

/-- Clearing a field clears all numbers of its member. -/
theorem runClear_clearStatement (field : String) {numbers : List Nat}
    (h : numbers.length = width.member.cells) :
    runClear? width.member field (width.clearStatement field) numbers =
      some (List.replicate width.member.cells 0) := by
  cases width with
  | bytes n =>
      have htext : ((bytes n).clearStatement field).toList =
          ("memset(" ++ field ++ ", 0, ").toList ++
          ((toString n).toList ++ ");".toList) := by
        simp [clearStatement]
      have hne : (bytes n).clearStatement field ≠ field ++ " = 0;" := by
        intro heq
        -- the texts differ in front of their semicolons
        have hends := congrArg (fun text => text.toList.reverse[1]?) heq
        simp [clearStatement] at hends
      have hlength : numbers.length = n := h
      unfold runClear?
      rw [if_neg hne, htext]
      simp only [dropPrefix_append, dropSuffix_append, Option.bind_eq_bind, Option.bind_some,
        Schema.digitsValue_toString]
      rw [if_pos ⟨rfl, hlength.ge⟩, List.drop_of_length_le hlength.le, List.append_nil]
      rfl
  | _ => exact if_pos rfl

end PresenceWidth

/-! ## Places of bits -/

namespace PresenceWidth

open Firmware

/-- The bits of a group lie in the member that is declared for it. -/
theorem place_lt {n index : Nat} (h : index < n) :
    ((ofCount n).place index).1 < (ofCount n).member.cells ∧
      (ofCount n).bit index < (ofCount n).member.bits := by
  unfold ofCount
  split
  · simp [place, cell?, bit, member, BitMember.cells]
    omega
  · split
    · simp [place, cell?, bit, member, BitMember.cells]
      omega
    · split
      · simp [place, cell?, bit, member, BitMember.cells]
        omega
      · simp [place, cell?, bit, member, BitMember.cells]
        omega

/-- Two attributes of a group have different bits. -/
theorem place_inj {n i j : Nat} : (ofCount n).place i = (ofCount n).place j ↔ i = j := by
  refine ⟨fun h => ?_, congrArg _⟩
  obtain ⟨hcell, hmask⟩ := Prod.mk.inj h
  have hbit : (ofCount n).bit i = (ofCount n).bit j := Nat.pow_right_injective (le_refl 2) hmask
  cases hwidth : ofCount n with
  | bytes m =>
      rw [hwidth] at hcell hbit
      simp only [cell?, bit, Option.getD_some] at hcell hbit
      omega
  | _ =>
      rw [hwidth] at hbit
      exact hbit

/-- A bitfield takes the bytes of its member. -/
theorem byteLength_member (width : PresenceWidth) :
    8 * width.byteLength = width.member.bits * width.member.cells := by
  cases width <;> rfl

/-- The bit of an attribute in the numbers of a member. -/
def holds (width : PresenceWidth) (numbers : List Nat) (index : Nat) : Bool :=
  (numbers[(width.place index).1]?.getD 0).testBit (width.bit index)

end PresenceWidth

/-! ## Runs -/

namespace Firmware

open PresenceWidth

section Runs

variable {n : Nat} {value? : String → Option String} {flag : Nat → String}

/-- An access with the flag of an attribute touches its bit. -/
theorem place_of_flag (hvalue : ∀ i < n, value? (flag i) = some ((ofCount n).flagValue i)) {i : Nat}
    (hi : i < n) : place? (ofCount n).member value? (some ((ofCount n).cell? i, flag i)) =
      some ((ofCount n).place i) := by
  obtain ⟨hcell, hbit⟩ := place_lt hi
  have hnumber : (ofCount n).member.cell? ((ofCount n).cell? i) = some ((ofCount n).place i).1 := by
    cases hwidth : ofCount n with
    | bytes m =>
        rw [hwidth] at hcell
        exact if_pos hcell
    | _ => rfl
  unfold place?
  simp only [Option.bind_eq_bind, Option.bind_some, hnumber, hvalue i hi,
    maskValue_flagValue _ hbit]
  rfl

variable {field : String}

/-- A test tells whether the bit of its attribute is set. -/
theorem runTest_place (hvalue : ∀ i < n, value? (flag i) = some ((ofCount n).flagValue i)) {i : Nat}
    (hi : i < n) {numbers : List Nat} (hnumbers : numbers.length = (ofCount n).member.cells) :
    runTest? (ofCount n).member value? field ((ofCount n).testExpr field (flag i) i) numbers =
      some ((ofCount n).holds numbers i) := by
  have hcell : ((ofCount n).place i).1 < numbers.length := by
    rw [hnumbers]
    exact (place_lt hi).1
  unfold runTest?
  rw [readTest_testExpr, place_of_flag hvalue hi]
  have hmask : ((ofCount n).place i).2 = 2 ^ (ofCount n).bit i := rfl
  simp only [Option.bind_eq_bind, Option.bind_some, List.getElem?_eq_getElem hcell, holds,
    Option.getD_some]
  rw [hmask, Nat.and_two_pow]
  cases (numbers[((ofCount n).place i).1]).testBit ((ofCount n).bit i) <;> simp

variable (field) in
/-- Setting a flag sets the bit of its attribute and leaves those of the others alone. -/
theorem runSet_place (hvalue : ∀ i < n, value? (flag i) = some ((ofCount n).flagValue i)) {i : Nat}
    (hi : i < n) {numbers : List Nat} (hnumbers : numbers.length = (ofCount n).member.cells) :
    ∃ after,
      runSet? (ofCount n).member value? field ((ofCount n).setStatement field (flag i) i) numbers =
        some after ∧
      after.length = (ofCount n).member.cells ∧
      ∀ j < n, (ofCount n).holds after j = ((ofCount n).holds numbers j || decide (j = i)) := by
  have hcell : ((ofCount n).place i).1 < numbers.length := by
    rw [hnumbers]
    exact (place_lt hi).1
  refine ⟨numbers.set ((ofCount n).place i).1 ((numbers[((ofCount n).place i).1] |||
    2 ^ (ofCount n).bit i) % 2 ^ (ofCount n).member.bits), ?_, ?_, ?_⟩
  · unfold runSet?
    rw [readSet_setStatement, place_of_flag hvalue hi]
    simp only [Option.bind_eq_bind, Option.bind_some, List.getElem?_eq_getElem hcell]
    rfl
  · rw [List.length_set, hnumbers]
  · intro j hj
    have hbit := (place_lt hj).2
    unfold holds
    by_cases hsame : ((ofCount n).place i).1 = ((ofCount n).place j).1
    · rw [← hsame, List.getElem?_set_self hcell, List.getElem?_eq_getElem hcell, Option.getD_some,
        Option.getD_some, Nat.testBit_mod_two_pow, Nat.testBit_lor, Nat.testBit_two_pow,
        decide_eq_true hbit, Bool.true_and]
      congr 1
      rw [decide_eq_decide]
      constructor
      · intro heq
        exact place_inj.mp (Prod.ext hsame.symm (congrArg (2 ^ ·) heq.symm))
      · rintro rfl
        rfl
    · have hne : j ≠ i := fun heq => hsame (heq ▸ rfl)
      rw [List.getElem?_set_ne hsame, decide_eq_false hne, Bool.or_false]

/-- What the statements that set flags, one after the other, make of the numbers of a member. -/
def runSets? (n : Nat) (value? : String → Option String) (field : String) (flag : Nat → String)
    (sets : List Nat) (numbers : List Nat) : Option (List Nat) :=
  sets.foldlM (fun numbers i => runSet? (ofCount n).member value? field
    ((ofCount n).setStatement field (flag i) i) numbers) numbers

variable (field) in
/-- After a run, the bits that were set before or in the run are set. -/
theorem runSets_place (hvalue : ∀ i < n, value? (flag i) = some ((ofCount n).flagValue i))
    {sets : List Nat} (hsets : ∀ i ∈ sets, i < n) {numbers : List Nat}
    (hnumbers : numbers.length = (ofCount n).member.cells) :
    ∃ after, runSets? n value? field flag sets numbers = some after ∧
      after.length = (ofCount n).member.cells ∧
      ∀ j < n, (ofCount n).holds after j = ((ofCount n).holds numbers j || decide (j ∈ sets)) := by
  induction sets generalizing numbers with
  | nil =>
      refine ⟨numbers, rfl, hnumbers, fun j _ => ?_⟩
      simp
  | cons i sets ih =>
      rw [List.forall_mem_cons] at hsets
      obtain ⟨middle, hset, hmiddle, hbits⟩ := runSet_place field hvalue hsets.1 hnumbers
      obtain ⟨after, hrun, hafter, hall⟩ := ih hsets.2 hmiddle
      refine ⟨after, ?_, hafter, fun j hj => ?_⟩
      · rw [runSets?, List.foldlM_cons, hset]
        exact hrun
      · rw [hall j hj, hbits j hj, Bool.or_assoc]
        simp

end Runs

/-! ## All bits of a group -/

/-- In the member declared for a group of {lit}`n` attributes, the bits of the attributes never
alias, for code on {lit}`field` in which the flag of each attribute is defined as the header
does. -/
structure BitsApart (n : Nat) (value? : String → Option String) (field : String)
    (flag : Nat → String) (member : BitMember) : Prop where
  declared : BitMember.read? (ofCount n).declaration = some member
  bytes : 8 * (ofCount n).byteLength = member.bits * member.cells
  enough : n ≤ 8 * (ofCount n).byteLength
  /-- The bit of an attribute lies in the member. -/
  inside : ∀ i < n, ∃ cell bit, cell < member.cells ∧ bit < member.bits ∧
    place? member value? (readTest? field ((ofCount n).testExpr field (flag i) i)) =
      some (cell, 2 ^ bit)
  /-- It is set where it is tested. -/
  agree : ∀ i < n,
    place? member value? (readSet? field ((ofCount n).setStatement field (flag i) i)) =
      place? member value? (readTest? field ((ofCount n).testExpr field (flag i) i))
  /-- Different attributes have different bits. -/
  apart : ∀ i < n, ∀ j < n,
    place? member value? (readTest? field ((ofCount n).testExpr field (flag i) i)) =
      place? member value? (readTest? field ((ofCount n).testExpr field (flag j) j)) ↔ i = j
  cleared : ∀ numbers : List Nat, numbers.length = member.cells →
    runClear? member field ((ofCount n).clearStatement field) numbers =
      some (List.replicate member.cells 0)
  /-- After a clear and any run of statements that set flags, a test holds for those set. -/
  runs : ∀ numbers : List Nat, numbers.length = member.cells →
    ∀ sets : List Nat, (∀ i ∈ sets, i < n) →
      ∃ after, (runClear? member field ((ofCount n).clearStatement field) numbers).bind
          (runSets? n value? field flag sets) = some after ∧
        ∀ i < n, runTest? member value? field ((ofCount n).testExpr field (flag i) i) after =
          some (decide (i ∈ sets))

/-- The bits of a group never alias, whatever its size. -/
theorem bitsApart_ofCount (n : Nat) {value? : String → Option String} (field : String)
    {flag : Nat → String} (hvalue : ∀ i < n, value? (flag i) = some ((ofCount n).flagValue i)) :
    ∃ member, BitsApart n value? field flag member := by
  have htested : ∀ i < n, place? (ofCount n).member value?
      (readTest? field ((ofCount n).testExpr field (flag i) i)) = some ((ofCount n).place i) := by
    intro i hi
    rw [readTest_testExpr, place_of_flag hvalue hi]
  refine ⟨(ofCount n).member, ?_⟩
  constructor
  case declared => exact read_declaration _
  case bytes => exact byteLength_member _
  case enough => exact le_byteLength_ofCount n
  case inside => exact fun i hi => ⟨_, _, (place_lt hi).1, (place_lt hi).2, htested i hi⟩
  case agree =>
    intro i hi
    rw [readSet_setStatement, readTest_testExpr]
  case apart =>
    intro i hi j hj
    rw [htested i hi, htested j hj, Option.some_inj, place_inj]
  case cleared => exact fun numbers hnumbers => runClear_clearStatement _ field hnumbers
  case runs =>
    intro numbers hnumbers sets hsets
    have hzero : (List.replicate (ofCount n).member.cells 0).length = (ofCount n).member.cells :=
      List.length_replicate
    obtain ⟨after, hrun, hafter, hbits⟩ := runSets_place field hvalue hsets hzero
    refine ⟨after, ?_, fun i hi => ?_⟩
    · rw [runClear_clearStatement _ field hnumbers]
      exact hrun
    · have hclear : (ofCount n).holds (List.replicate (ofCount n).member.cells 0) i = false := by
        simp [holds, place_lt hi]
      rw [runTest_place hvalue hi hafter, hbits i hi, hclear, Bool.false_or]

/-- The flags of a group of the meter with more attributes than the widest number has bits. -/
def probeFlag (index : Nat) : String :=
  Naming.attributeFlag "Meter" "Probe" ("P" ++ toString index)

/-- The definitions of the flags. -/
def probeValue? (name : String) : Option String :=
  ((List.range 33).find? fun index => probeFlag index == name).map (ofCount 33).flagValue

theorem bitsApart_probe :
    (∀ i < 33, probeValue? (probeFlag i) = some ((ofCount 33).flagValue i)) ∧
      ∃ member, BitsApart 33 probeValue? (PresenceBit.field ["Probe"]).text probeFlag member :=
  have hvalue : ∀ i < 33, probeValue? (probeFlag i) = some ((ofCount 33).flagValue i) := by
    decide +kernel
  ⟨hvalue, bitsApart_ofCount 33 _ hvalue⟩

end Firmware
end CommandSet
