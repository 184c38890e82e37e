import Stencil.Failure
import Stencil.Markup.Basic
import Stencil.Route
import Stencil.Template.Lexeme

/-!
# Scopes

What a template sees while it is rendered, and how a path leads to a value in it.
-/

namespace Stencil

/-- The component that is rendered, its attributes, what its block wrote, and the routes. -/
structure Scope where
  component : String
  attributes : Attributes
  content : Option Markup := none
  routes : Routes := .empty

/-- The position that a step into a list names: decimal digits, behind an optional plus sign, for a
number that fits in a word. -/
def position? (step : String) : Option Nat :=
  let digits := match step.toList with
    | '+' :: cs => cs
    | cs => cs
  if digits ≠ [] ∧ digits.all Char.isDigit then
    (some (Lexeme.natOfDigits digits)).filter Word.holdsNat
  else none

/-- One step into a value: a field of an object or an item of a list. What is not there is null. -/
def Value.step (v : Value) (name : String) : Value :=
  match v with
  | .obj fields => (fields.lookup name).getD .null
  | .arr items => ((position? name).bind (items[·]?)).getD .null
  | _ => .null

namespace Scope

/-- The value at the end of a path. Only the attribute itself has to exist; the empty path leads to
null. -/
def lookup (scope : Scope) : List String → Except Failure Value
  | [] => .ok .null
  | root :: steps =>
    match scope.attributes.find? root with
    | some v => .ok (steps.foldl Value.step v)
    | none => .error (.undefinedAttribute scope.component root)

end Scope

end Stencil
