import CommandSet.Text.CaseTables

/-!
# Letter case

Upper and lower case of texts under the full Unicode mappings, in which one
letter may become several.  ASCII letters never reach the tables.

Main definitions:

- {lit}`upperChar`, {lit}`lowerChar`: the case counterparts of one character.
- {lit}`isUpper`, {lit}`isLower`: the two letter cases.
- {lit}`upper`, {lit}`lower`: whole texts.  In {lit}`lower` a capital sigma that
  ends a word becomes the final sigma.

Main results:

- Theorems {lit}`upperChar_ascii`, {lit}`lowerChar_ascii`: on ASCII each character
  has one counterpart, core's.
-/

namespace CommandSet
namespace Text

/-! ## Single characters -/

/-- ASCII characters have code points below 128. -/
def isAscii (c : Char) : Bool :=
  c.toNat < 128

/-- The upper-case counterpart of a character. -/
def upperChar (c : Char) : List Char :=
  if isAscii c then [c.toUpper]
  else
    match upperExpansions.find? (·.1 == c.toNat) with
    | some (_, image) => image.map Char.ofNat
    | none =>
        match firstImage? upperShifts c.toNat with
        | some image => [Char.ofNat image]
        | none => [c]

/-- The lower-case counterpart of a character.  The dotted capital I keeps its
dot as a combining mark. -/
def lowerChar (c : Char) : List Char :=
  if isAscii c then [c.toLower]
  else if c.toNat == 0x130 then ['i', Char.ofNat 0x307]
  else
    match firstImage? lowerShifts c.toNat with
    | some image => [Char.ofNat image]
    | none => [c]

/-- Upper-case characters. -/
def isUpper (c : Char) : Bool :=
  if isAscii c then c.isUpper else anyContains uppercaseRuns c.toNat

/-- Lower-case characters. -/
def isLower (c : Char) : Bool :=
  if isAscii c then c.isLower else anyContains lowercaseRuns c.toNat

/-- Characters that have a case. -/
def isCased (c : Char) : Bool :=
  isUpper c || isLower c || anyContains titlecaseRuns c.toNat

/-- Characters that the search for a neighbouring letter passes over. -/
def isCaseIgnorable (c : Char) : Bool :=
  if isAscii c then
    c == '\'' || c == '.' || c == ':' || c == '^' || c.toNat == 0x60
  else
    anyContains caseIgnorableRuns c.toNat

/-! ## Texts -/

/-- Whether the first character that is not passed over is a letter with case. -/
def meetsCased (text : List Char) : Bool :=
  match text.dropWhile isCaseIgnorable with
  | [] => false
  | c :: _ => isCased c

/-- The lower-case sigma between two contexts, the one before it reversed:
final when a letter comes before it and none after it. -/
def sigmaBetween (before after : List Char) : Char :=
  if meetsCased before && !meetsCased after then Char.ofNat 0x3C2 else Char.ofNat 0x3C3

/-- Lower case of a text whose reversed beginning is {lit}`before`. -/
def lowerFrom (before : List Char) : List Char → List Char
  | [] => []
  | c :: text =>
      if c.toNat == 0x3A3 then sigmaBetween before text :: lowerFrom (c :: before) text
      else lowerChar c ++ lowerFrom (c :: before) text

/-- Upper case of a text. -/
def upper (text : String) : String :=
  String.ofList (text.toList.flatMap upperChar)

/-- Lower case of a text. -/
def lower (text : String) : String :=
  String.ofList (lowerFrom [] text.toList)

/-! ## The ASCII letters -/

/-- An ASCII character has one upper-case counterpart. -/
theorem upperChar_ascii {c : Char} (h : isAscii c = true) : upperChar c = [c.toUpper] := by
  simp [upperChar, h]

/-- An ASCII character has one lower-case counterpart. -/
theorem lowerChar_ascii {c : Char} (h : isAscii c = true) : lowerChar c = [c.toLower] := by
  simp [lowerChar, h]

/-- On ASCII texts lower case works character by character. -/
theorem lowerFrom_ascii (before : List Char) {text : List Char}
    (h : ∀ c ∈ text, isAscii c = true) : lowerFrom before text = text.map Char.toLower := by
  induction text generalizing before with
  | nil => rfl
  | cons c text ih =>
      have hc : isAscii c = true := h c (by simp)
      have hs : (c.toNat == 0x3A3) = false := by
        simp [isAscii] at hc
        simp
        omega
      simp [lowerFrom, hs, lowerChar_ascii hc, ih _ fun x hx => h x (by simp [hx])]

end Text
end CommandSet
