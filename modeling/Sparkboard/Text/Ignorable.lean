import Sparkboard.Text.CodeRange
/-!
# Characters that may be left out

Characters that a program draws only if it knows them: the property `Default_Ignorable_Code_Point`
of Unicode 17.  Most are format characters; the fillers of Hangul syllables count as letters.
-/

namespace Sparkboard.Text

def ignorableRanges : CodeRanges := [
  (0xAD, 0xAD), (0x34F, 0x34F), (0x61C, 0x61C), (0x115F, 0x1160), (0x17B4, 0x17B5),
  (0x180B, 0x180F), (0x200B, 0x200F), (0x202A, 0x202E), (0x2060, 0x206F), (0x3164, 0x3164),
  (0xFE00, 0xFE0F), (0xFEFF, 0xFEFF), (0xFFA0, 0xFFA0), (0xFFF0, 0xFFF8), (0x1BCA0, 0x1BCA3),
  (0x1D173, 0x1D17A), (0xE0000, 0xE0FFF)]

/-- May the character be left out where it is not known? -/
def isIgnorable (c : Char) : Bool :=
  ignorableRanges.contain c

end Sparkboard.Text
