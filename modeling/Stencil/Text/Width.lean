import Stencil.Text.Case
import Stencil.Text.WidthTable

/-!
# Width

How many columns of a terminal a character takes. Marks and other characters that join the one before
them take none, ideographs and emoji take two.
-/

namespace Stencil.Text

/-- The number of columns of a character. A control takes one, and the sign `U+17D8` of Khmer, which
is drawn as three letters, takes three. -/
def charWidth (c : Char) : Nat :=
  if c.toNat < 128 then 1
  else if c.toNat = 0x17D8 then 3
  else if inRanges zeroWidthRanges c then 0
  else if inRanges wideRanges c then 2
  else 1

end Stencil.Text
