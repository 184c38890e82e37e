import Stencil.Text.Slashes

/-!
# Paths

A path is its text. Slashes divide it into names; repeated slashes, and points that stand for the
directory they are in, are passed over, but a path that is cut keeps the text of what is left.
-/

namespace Stencil.Path

/-- A path as its start, which is a slash, a point or nothing, and the parts after that. -/
structure Parsed where
  start : List Char
  rest : List (List Char)

/-- Whether a part names nothing. -/
def isIdle (part : List Char) : Bool := part = [] || part = ['.']

/-- The parts without the idle ones at their end. -/
def trim (ps : List (List Char)) : List (List Char) := (ps.reverse.dropWhile isIdle).reverse

/-- The parts of a path, without the idle ones at its end. -/
def parse (path : String) : Parsed :=
  match path.toList with
  | '/' :: cs => ⟨['/'], trim (Text.slashParts cs)⟩
  | ['.'] => ⟨['.'], []⟩
  | '.' :: '/' :: cs => ⟨['.'], trim (Text.slashParts ('/' :: cs))⟩
  | cs => ⟨[], trim (Text.slashParts cs)⟩

/-- The text of a parsed path. -/
def Parsed.text (p : Parsed) : String := String.ofList (p.start ++ Text.joinSlashes p.rest)

/-- Whether a path begins at the current directory. -/
def isRelative (path : String) : Bool := path.toList.head? ≠ some '/'

/-- The path without its last part; the root has no parent, nor has the empty path. -/
def parent? (path : String) : Option String :=
  let p := parse path
  match p.rest with
  | [] => if p.start = ['.'] then some "" else none
  | ps => some (Parsed.text ⟨p.start, trim ps.dropLast⟩)

/-- The last name of a path, unless that leads to a parent directory. -/
def fileName? (path : String) : Option String :=
  (((parse path).rest.getLast?).filter (· ≠ ['.', '.'])).map String.ofList

/-- A name divided at its last point: what stands before and after it. A point that leads the name
divides nothing. -/
def divide (name : String) : String × Option String :=
  let reversed := name.toList.reverse
  let after := (reversed.takeWhile (· ≠ '.')).reverse
  match reversed.dropWhile (· ≠ '.') with
  | [] | [_] => (name, none)
  | _ :: before => (String.ofList before.reverse, some (String.ofList after))

/-- The last name of a path without its extension. -/
def stem? (path : String) : Option String := (fileName? path).map fun name => (divide name).1

/-- What follows the last point in the last name of a path. -/
def extension? (path : String) : Option String :=
  (fileName? path).bind fun name => (divide name).2

/-- A path taken from a directory. -/
def join (dir path : String) : String :=
  if !isRelative path then path
  else if dir = "" ∨ dir.toList.getLast? = some '/' then dir ++ path
  else dir ++ "/" ++ path

end Stencil.Path
