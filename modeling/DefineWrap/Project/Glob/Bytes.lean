/-
Patterns and paths as bytes.

A class is a set of bytes: a character of several bytes adds each of its bytes, and
a range of such characters runs from the last byte of its first character to the
first byte of its last one.
-/

set_option autoImplicit false

namespace DefineWrap

namespace Glob

/-- The bytes of a character. -/
def charBytes (c : Char) : List UInt8 := String.utf8EncodeChar c

/-- The bytes of a text. -/
def textBytes (text : String) : List UInt8 := text.toList.flatMap charBytes

/-- The ranges of bytes that a range of characters stands for. -/
def byteRanges (range : Char × Char) : List (UInt8 × UInt8) :=
  let single (byte : UInt8) : UInt8 × UInt8 := (byte, byte)
  let first := charBytes range.1
  let last := charBytes range.2
  if range.1 = range.2 then first.map single
  else
    first.dropLast.map single ++ [(first.getLastD 0, last.headD 0)] ++ last.tail.map single

/-- Whether a byte is in a class. -/
def isInClass (negated : Bool) (ranges : List (Char × Char)) (byte : UInt8) : Bool :=
  let isListed := (ranges.flatMap byteRanges).any fun range =>
    range.1 ≤ byte && byte ≤ range.2
  isListed != negated

end Glob

end DefineWrap
