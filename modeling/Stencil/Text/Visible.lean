import Stencil.Text.Case
import Stencil.Text.InvisibleTable

/-!
# Visible quotes

A text between double quotes in which every character can be seen: those that show nothing are
written with their code points.
-/

namespace Stencil.Text

/-- A number in lower case hexadecimal digits. -/
def hexText (n : Nat) : List Char := Nat.toDigits 16 n

/-- A character as it stands between visible quotes. -/
def visibleChar (c : Char) : List Char :=
  if c.toNat = 0 then ['\\', '0']
  else if c = '\t' then ['\\', 't']
  else if c = '\n' then ['\\', 'n']
  else if c = '\r' then ['\\', 'r']
  else if c = '\\' then ['\\', '\\']
  else if c = '"' then ['\\', '"']
  else if inRanges invisibleRanges c then '\\' :: 'u' :: '{' :: hexText c.toNat ++ ['}']
  else [c]

/-- A text between visible quotes. -/
def visible (s : String) : String := String.ofList ('"' :: s.toList.flatMap visibleChar ++ ['"'])

end Stencil.Text
