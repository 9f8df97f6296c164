/-!
# Hexadecimal numbers

Numbers in base sixteen without leading zeros.  Identifiers are written in
capitals, a negative one as the 16-bit word that represents it.

Main definitions:

- {lit}`hexDigits`, {lit}`hexCapitals`: the digits of a number.
- {lit}`hexWord`: a 16-bit word behind {lit}`0x`.
-/

namespace CommandSet
namespace Text

/-- The hexadecimal digits of a number, in lower case. -/
def hexDigits (n : Nat) : List Char :=
  Nat.toDigits 16 n

/-- The hexadecimal digits of a number, in capitals. -/
def hexCapitals (n : Nat) : List Char :=
  (hexDigits n).map Char.toUpper

/-- A 16-bit word in hexadecimal. -/
def hexWord (n : UInt16) : String :=
  "0x" ++ String.ofList (hexCapitals n.toNat)

end Text
end CommandSet
