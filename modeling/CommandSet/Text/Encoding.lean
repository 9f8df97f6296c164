/-!
# Reading source bytes

A source file is read as UTF-8; bytes that are not valid UTF-8 are read as
Latin-1, in which every byte is a character.

Main definitions:

- {lit}`ofLatin1`: one character per byte.
- {lit}`decodeSource`: UTF-8 with Latin-1 as the fallback.
-/

namespace CommandSet
namespace Text

/-- The text whose characters are the bytes themselves. -/
def ofLatin1 (bytes : ByteArray) : String :=
  String.ofList (bytes.toList.map fun b => Char.ofNat b.toNat)

/-- The text of a source file: UTF-8 where the bytes allow it, else Latin-1. -/
def decodeSource (bytes : ByteArray) : String :=
  (String.fromUTF8? bytes).getD (ofLatin1 bytes)

end Text
end CommandSet
