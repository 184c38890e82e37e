/-!
# Values

What an attribute of a component can be: null, a truth value, an integer, a double, a text, a list or
an object. The fields of an object and the attributes of a component are kept in the order of their
names.
-/

namespace Stencil

/-- An attribute value. -/
inductive Value where
  | null
  | bool (b : Bool)
  | int (n : Int)
  | float (x : Float)
  | str (s : String)
  | arr (items : List Value)
  | obj (fields : List (String × Value))
  deriving Inhabited

/-- The list with `x` under `name`, which replaces what was there and else takes its place in the
order of names. -/
def insertByName {α : Type} (name : String) (x : α) : List (String × α) → List (String × α)
  | [] => [(name, x)]
  | (k, y) :: rest =>
    if name < k then (name, x) :: (k, y) :: rest
    else if name = k then (name, x) :: rest
    else (k, y) :: insertByName name x rest

/-- The pairs in the order of their names, a later one replacing an earlier one of the same name. -/
def sortByName {α : Type} (pairs : List (String × α)) : List (String × α) :=
  pairs.foldl (fun sorted p => insertByName p.1 p.2 sorted) []

/-- An object with the given fields. -/
def Value.ofFields (fields : List (String × Value)) : Value := .obj (sortByName fields)

mutual

/-- Whether two values are equal. An integer never equals a double, and doubles are compared as
numbers. -/
def Value.same : Value → Value → Bool
  | .null, .null => true
  | .bool a, .bool b => a == b
  | .int a, .int b => a == b
  | .float a, .float b => a == b
  | .str a, .str b => a == b
  | .arr as, .arr bs => Value.sameItems as bs
  | .obj as, .obj bs => Value.sameFields as bs
  | _, _ => false

/-- Whether two lists hold equal values in the same order. -/
def Value.sameItems : List Value → List Value → Bool
  | [], [] => true
  | a :: as, b :: bs => a.same b && Value.sameItems as bs
  | _, _ => false

/-- Whether two objects have the same names with equal values. -/
def Value.sameFields : List (String × Value) → List (String × Value) → Bool
  | [], [] => true
  | (k, a) :: as, (l, b) :: bs => k == l && a.same b && Value.sameFields as bs
  | _, _ => false

end

/-- The attributes of a component: values under distinct names, in the order of the names. -/
structure Attributes where
  fields : List (String × Value) := []
  deriving Inhabited

namespace Attributes

/-- The attributes with the given names and values. -/
def ofList (pairs : List (String × Value)) : Attributes := ⟨sortByName pairs⟩

/-- The value of an attribute. -/
def find? (attributes : Attributes) (name : String) : Option Value :=
  attributes.fields.lookup name

end Attributes

end Stencil
