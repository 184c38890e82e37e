import Stencil.Files.Basic
import Stencil.Files.Path

/-!
# File trees

A file system in memory: the files below the current directory with their bytes, the names in each
directory, and symbolic links. The directories above the current one hold nothing else.
-/

namespace Stencil

/-- What stands under a name in a directory. -/
inductive Entry where
  | file (bytes : ByteArray)
  | dir
  | link (target : String)
  deriving Inhabited

/-- A tree: the entries by the names that lead to them. -/
structure FileTree where
  entries : List (List String × Entry) := []
  deriving Inhabited

namespace FileTree

/-- The place of a directory: the names that lead to it from the current directory, or nowhere in the
tree. -/
abbrev Spot := Option (List String)

/-- How many symbolic links can be followed on the way to a file. -/
def linkLimit : Nat := 40

/-- The names in the text of a path. -/
def names (path : String) : List String := (Text.slashParts path.toList).map String.ofList

/-- What stands at a place. -/
def entry? (tree : FileTree) : List String → Option Entry
  | [] => some .dir
  | names => tree.entries.lookup names

/-- Whether a place is a directory. -/
def isDir (tree : FileTree) : Spot → Bool
  | none => true
  | some spot =>
    match tree.entry? spot with
    | some .dir => true
    | _ => false

/-- One name from a place: the place that it leads to, or the target of a link. -/
inductive Step where
  | arrived (spot : Spot)
  | through (target : String)

/-- Whether a name stays at the directory that it is looked up in. -/
def isIdle (name : String) : Bool := name = "" || name = "."

/-- Follows one name. An empty name or a point stays at a directory. -/
def step (tree : FileTree) (spot : Spot) (name : String) : Except ReadError Step :=
  if !tree.isDir spot then .error .notDirectory
  else if isIdle name then .ok (.arrived spot)
  else if nameLimit < name.utf8ByteSize then .error .nameTooLong
  else
    match spot with
    | none => if name = ".." then .ok (.arrived none) else .error .notFound
    | some here =>
      if name = ".." then
        .ok (.arrived (if here = [] then none else some here.dropLast))
      else
        match tree.entry? (here ++ [name]) with
        | none => .error .notFound
        | some (.link target) => .ok (.through target)
        | some _ => .ok (.arrived (some (here ++ [name])))

/-- Follows names from a place, and at most `links` symbolic links on the way. -/
def walk (tree : FileTree) (links : Nat) (spot : Spot) : List String → Except ReadError Spot
  | [] => .ok spot
  | name :: rest =>
    match tree.step spot name with
    | .error e => .error e
    | .ok (.arrived next) => walk tree links next rest
    | .ok (.through target) =>
      match links with
      | 0 => .error .tooManyLinks
      | links + 1 =>
        walk tree links (if Path.isRelative target then spot else none) (names target ++ rest)
termination_by names => (links, names.length)

/-- The place that a path leads to. -/
def find (tree : FileTree) (path : String) : Except ReadError Spot :=
  match ReadError.ofPath? path with
  | some e => .error e
  | none =>
    if path = "" then .error .notFound
    else tree.walk linkLimit (if Path.isRelative path then some [] else none) (names path)

/-- The bytes of a file. -/
def read (tree : FileTree) (path : String) : Except ReadError ByteArray := do
  let spot ← tree.find path
  match spot.bind tree.entry? with
  | some (.file bytes) => .ok bytes
  | _ => .error .isDirectory

/-- Whether a path leads to a file. -/
def isFile (tree : FileTree) (path : String) : Bool :=
  match tree.find path with
  | .ok (some spot) =>
    match tree.entry? spot with
    | some (.file _) => true
    | _ => false
  | _ => false

/-- The listing of one entry in a directory, if it stands directly there. -/
def listed? (dir : List String) (entry : List String × Entry) : Option Listed :=
  if entry.1.dropLast = dir then
    entry.1.getLast?.map fun name => ⟨name, entry.2 matches .dir⟩
  else none

/-- The entries of a directory. -/
def list (tree : FileTree) (path : String) : Except ReadError (List Listed) := do
  let spot ← tree.find path
  if !tree.isDir spot then .error .notDirectory
  else
    match spot with
    | none => .ok []
    | some dir => .ok (tree.entries.filterMap (listed? dir))

/-- The tree as a file system. -/
def files (tree : FileTree) : Files := ⟨tree.read, tree.list, tree.isFile⟩

/-- The names in a path below the current directory, without the idle ones. -/
def busyNames (path : String) : List String := (names path).filter (!isIdle ·)

/-- The tree without a place and all that stands below it. -/
def remove (tree : FileTree) (spot : List String) : FileTree :=
  ⟨tree.entries.filter fun (other, _) => !spot.isPrefixOf other⟩

/-- The tree without the entry at a path. Links on the way to it are followed, but an entry that is a
link goes itself. -/
def delete (tree : FileTree) (path : String) : FileTree :=
  let names := busyNames path
  match names.getLast?, tree.walk linkLimit (some []) names.dropLast with
  | some name, .ok (some dir) => tree.remove (dir ++ [name])
  | _, _ => tree

/-- Follows names from a place and makes the directories that are not there. The result is the tree
with them and the place of the last, unless something else is in the way. -/
def makeDirs (tree : FileTree) (here : List String) :
    List String → Option (FileTree × List String)
  | [] => some (tree, here)
  | name :: rest =>
    if name = ".." then
      if here = [] then none else makeDirs tree here.dropLast rest
    else
      match tree.entry? (here ++ [name]) with
      | none => makeDirs ⟨tree.entries ++ [(here ++ [name], .dir)]⟩ (here ++ [name]) rest
      | some .dir => makeDirs tree (here ++ [name]) rest
      | some (.file _) => none
      | some (.link _) =>
        match tree.walk linkLimit (some here) [name] with
        | .ok (some spot) => if tree.isDir (some spot) then makeDirs tree spot rest else none
        | _ => none

/-- The tree with an entry at a path, and with the directories that lead there. A file or a link takes
the place of what stands there; a directory that stands there stays. -/
def put (tree : FileTree) (path : String) : Entry → FileTree
  | .dir =>
    match tree.makeDirs [] (busyNames path) with
    | some (tree, _) => tree
    | none => tree
  | e =>
    let names := busyNames path
    match names.getLast?, (tree.delete path).makeDirs [] names.dropLast with
    | some name, some (tree, dir) => ⟨tree.entries ++ [(dir ++ [name], e)]⟩
    | _, _ => tree

end FileTree

end Stencil
