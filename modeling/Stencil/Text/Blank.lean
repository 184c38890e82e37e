/-!
# Blank text

White space as Unicode's property `White_Space` has it, and texts made of nothing else.
-/

namespace Stencil.Text

/-- The characters of the property `White_Space`. The zero-width space, the byte order mark and the
separators `U+001C` to `U+001F` are not among them. -/
def isBlankChar (c : Char) : Bool :=
  let n := c.toNat
  (9 ≤ n && n ≤ 13) || n == 0x20 || n == 0x85 || n == 0xA0 || n == 0x1680 ||
    (0x2000 ≤ n && n ≤ 0x200A) || n == 0x2028 || n == 0x2029 || n == 0x202F || n == 0x205F ||
    n == 0x3000

/-- A text is blank when nothing is left of it after trimming. -/
def isBlank (s : String) : Bool := s.toList.all isBlankChar

/-- The characters without the blank ones at their end. -/
def trimEnd (cs : List Char) : List Char := (cs.reverse.dropWhile isBlankChar).reverse

end Stencil.Text
