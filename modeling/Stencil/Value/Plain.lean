import Stencil.Value.Json
import Stencil.Text.Blank

/-!
# Plain text, blankness and size

What a value is when it is printed, when it decides a condition, and when its length is bounded.
-/

namespace Stencil

/-- The non-empty ones of some texts with single spaces between them. -/
def joinWords (texts : List String) : String :=
  " ".intercalate (texts.filter (· ≠ ""))

mutual

/-- The text that is printed for a value: nothing for null, the items of a list with a space between
those that are not empty, and JSON for an object. -/
def Value.text : Value → String
  | .null => ""
  | .bool b => boolText b
  | .int n => intText n
  | .float x => floatText x
  | .str s => s
  | .arr items => joinWords (Value.itemTexts items)
  | .obj fields => (Value.obj fields).json

/-- The texts that are printed for the items of a list. -/
def Value.itemTexts : List Value → List String
  | [] => []
  | v :: vs => v.text :: Value.itemTexts vs

end

/-- A value is blank if it is null, false, a blank text, or an empty list or object. -/
def Value.isBlank : Value → Bool
  | .null => true
  | .bool b => !b
  | .str s => Text.isBlank s
  | .arr items => items.isEmpty
  | .obj fields => fields.isEmpty
  | .int _ | .float _ => false

/-- The number of characters of a text, of items of a list, of fields of an object, and of characters
in the text of a number or a truth value. Null has none. -/
def Value.size : Value → Nat
  | .null => 0
  | .str s => s.length
  | .arr items => items.length
  | .obj fields => fields.length
  | .bool b => (boolText b).length
  | .int n => (intText n).length
  | .float x => (floatText x).length

end Stencil
