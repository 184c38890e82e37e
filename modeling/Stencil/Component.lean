import Stencil.Rule
import Stencil.Settings

/-!
# Components

A type of component has a name, a template and rules; an instance of it brings the values of its
attributes.
-/

namespace Stencil

/-- A type of component. Two types are the same when their identities are, whatever their names. The
template stands in the type itself, or next to the file that defines the type. -/
structure Component where
  identity : Nat
  name : String
  sourceFile? : Option String := none
  template? : Option String := none
  rules : List Rule := []

/-- A component to be rendered: its type, and the value that it turns into or the text of the error
for which it has none. -/
structure Instance where
  component : Component
  value : Except String Value

/-- The attributes of an instance. Null stands for none, and other values than objects are refused. -/
def Instance.attributes (i : Instance) : Except Failure Attributes :=
  match i.value with
  | .ok (.obj fields) => .ok ⟨fields⟩
  | .ok .null => .ok {}
  | .ok v => .error (.attributes i.component.name (.notFields v.json))
  | .error text => .error (.attributes i.component.name (.refused text))

end Stencil
