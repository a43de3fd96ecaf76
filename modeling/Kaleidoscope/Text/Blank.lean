import Kaleidoscope.Text.CharSet

/-!
# White space

The characters with the Unicode property `White_Space`. Between tokens all of them are alike: a
program may be spaced with tabs, with no-break spaces or with ideographic ones.
-/

namespace Kaleidoscope

/-- The twenty-five characters with the property `White_Space`. -/
def blanks : CharSet :=
  ⟨[(0x09, 0x0D), (0x20, 0x20), (0x85, 0x85), (0xA0, 0xA0), (0x1680, 0x1680), (0x2000, 0x200A),
    (0x2028, 0x2029), (0x202F, 0x202F), (0x205F, 0x205F), (0x3000, 0x3000)]⟩

/-- Whether a character is white space. -/
def isBlank (c : Char) : Bool := blanks.contains c

end Kaleidoscope
