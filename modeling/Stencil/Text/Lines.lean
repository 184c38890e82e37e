/-!
# Lines

A text falls into lines at each line feed, carriage return, pair of the two, vertical tab, form feed,
next line, line separator and paragraph separator. The break belongs to the line that it ends, and
nothing after the last break is no line.
-/

namespace Stencil.Text

/-- The characters that end a line. -/
def isBreak (c : Char) : Bool :=
  let n := c.toNat
  (10 ≤ n && n ≤ 13) || n == 0x85 || n == 0x2028 || n == 0x2029

/-- The character put in front of the first line. -/
def consLine (c : Char) : List (List Char) → List (List Char)
  | [] => [[c]]
  | line :: lines => (c :: line) :: lines

/-- The lines of a text, each with the break that ends it. -/
def lines : List Char → List (List Char)
  | [] => []
  | '\r' :: '\n' :: cs => ['\r', '\n'] :: lines cs
  | c :: cs => if isBreak c then [c] :: lines cs else consLine c (lines cs)

/-- The lines together are the text. -/
theorem flatten_lines (cs : List Char) : (lines cs).flatten = cs := by
  have consLine_flatten (c : Char) (ls : List (List Char)) :
      (consLine c ls).flatten = c :: ls.flatten := by
    cases ls <;> simp [consLine]
  fun_induction lines cs <;> simp_all

end Stencil.Text
