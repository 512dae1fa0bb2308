/-
The Unicode property White_Space.
-/
import DefineWrap.Text.Ranges

set_option autoImplicit false

namespace DefineWrap

namespace Text

/-- The code points of white space. -/
def blankRanges : Ranges :=
  [(0x9, 0xD), (0x20, 0x20), (0x85, 0x85), (0xA0, 0xA0), (0x1680, 0x1680), (0x2000, 0x200A),
   (0x2028, 0x2029), (0x202F, 0x202F), (0x205F, 0x205F), (0x3000, 0x3000)]

/-- Whether a text holds white space only, or nothing at all. -/
def isBlank (text : String) : Bool := text.toList.all blankRanges.contains

end Text

end DefineWrap
