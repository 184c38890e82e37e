import Stencil.Value.Json
import Stencil.Text.Percent
import Stencil.Text.Slashes

/-!
# Routes

A route is a named pattern of segments between slashes. A segment that begins with a colon stands for
the next parameter, and a URL needs exactly as many parameters as there are such segments.
-/

namespace Stencil

/-- Named patterns of URLs. -/
structure Routes where
  patterns : List (String × String) := []
  deriving DecidableEq, Inhabited, Repr

namespace Routes

/-- The table without routes. -/
def empty : Routes := {}

/-- The text of a parameter. -/
def paramText : Value → String
  | .str s => s
  | v => v.json

/-- The segment that a parameter fills. -/
def paramSegment (v : Value) : List Char := (Text.percentEncode (paramText v)).toList

/-- The segments with the parameters in their places, if there are as many as are needed. -/
def fill : List (List Char) → List Value → Option (List (List Char))
  | [], [] => some []
  | [], _ :: _ => none
  | (':' :: _) :: _, [] => none
  | (':' :: _) :: rest, v :: vs => (fill rest vs).map (paramSegment v :: ·)
  | s :: rest, vs => (fill rest vs).map (s :: ·)

/-- The URL of a route with the given parameters. -/
def urlFor (routes : Routes) (name : String) (params : List Value) : Option String := do
  let pattern ← routes.patterns.lookup name
  let filled ← fill (Text.slashParts pattern.toList) params
  return String.ofList (Text.joinSlashes filled)

end Routes

end Stencil
