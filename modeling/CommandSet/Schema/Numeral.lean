import CommandSet.Text.Quoted

/-!
# Numerals of a schema

A number is written in decimal, possibly with a minus sign, or in hexadecimal
behind {lit}`0x` or {lit}`0X`.  Its value has to fit a signed 64-bit word before
any narrower range is looked at.

Main definitions:

- {lit}`Numeral`: a number as written.
- {lit}`Numeral.value`: its value without a bound.
- {lit}`Numeral.word?`: its value as a 64-bit word.
-/

namespace CommandSet
namespace Schema

/-- A number as a schema writes it, leading zeros included. -/
inductive Numeral where
  /-- Hexadecimal digits behind {lit}`0X` or, in lower case, {lit}`0x`. -/
  | hex (capital : Bool) (digits : List Char)
  /-- Decimal digits, behind a minus sign if {lit}`negative`. -/
  | dec (negative : Bool) (digits : List Char)
deriving Repr, DecidableEq

/-- Digits of a hexadecimal number. -/
def isHexDigit (c : Char) : Bool :=
  c.isDigit || ('a' ≤ c && c ≤ 'f') || ('A' ≤ c && c ≤ 'F')

/-- Value of a hexadecimal digit. -/
def digitValue (c : Char) : Nat :=
  if c.isDigit then c.toNat - '0'.toNat
  else if 'a' ≤ c then c.toNat - 'a'.toNat + 10
  else c.toNat - 'A'.toNat + 10

/-- Value of a list of digits, most significant first. -/
def digitsValue (base : Nat) (digits : List Char) : Nat :=
  digits.foldl (fun n c => base * n + digitValue c) 0

namespace Numeral

/-- The characters of a numeral. -/
def chars : Numeral → List Char
  | hex capital digits => ['0', if capital then 'X' else 'x'] ++ digits
  | dec negative digits => (if negative then ['-'] else []) ++ digits

/-- The value of a numeral. -/
def value : Numeral → Int
  | hex _ digits => digitsValue 16 digits
  | dec negative digits =>
      if negative then -(digitsValue 10 digits : Int) else digitsValue 10 digits

/-- The ways a numeral misses the signed 64-bit range. -/
inductive Overflow where
  | tooLarge
  | tooSmall
deriving Repr, DecidableEq

/-- The wording of an overflow. -/
def Overflow.message : Overflow → String
  | .tooLarge => "number too large to fit in target type"
  | .tooSmall => "number too small to fit in target type"

/-- The value of a numeral, refused outside the signed 64-bit range. -/
def word? (n : Numeral) : Except Overflow Int :=
  if n.value < -0x8000000000000000 then .error .tooSmall
  else if 0x8000000000000000 ≤ n.value then .error .tooLarge
  else .ok n.value

end Numeral
end Schema
end CommandSet
