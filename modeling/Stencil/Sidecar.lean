import Stencil.Component
import Stencil.Files.Path
import Stencil.Handler

/-!
# Templates and where they are found

A template stands in its component, or in the one file that has the name of the component's source
file up to the extension. There is no order of precedence among such files.
-/

namespace Stencil

/-- Where the text of a template comes from. -/
inductive Origin where
  | file (path : String)
  | component (name : String)
  deriving DecidableEq, Inhabited, Repr

/-- The name of an origin in messages. -/
def Origin.text : Origin → String
  | .file path => path
  | .component name => name ++ " (inline)"

/-- The text of a template with its kind and its origin. -/
structure Source where
  origin : Origin
  kind : String
  text : String
  deriving DecidableEq, Inhabited, Repr

namespace Source

/-- The template as handlers see it. -/
def adapter (s : Source) : Adapter := ⟨s.text, s.kind⟩

/-- Reads a template file, whose kind is its extension. -/
def read (files : Files) (path : String) : Except Failure Source :=
  match Path.extension? path with
  | none => .error (.template path .noExtension)
  | some kind =>
    match files.readText path with
    | .ok text => .ok ⟨.file path, kind, text⟩
    | .error e => .error (.template path (.unreadable e))

end Source

namespace Sidecar

/-- The directory in which the sidecar of a source file is looked for. -/
def directory (anchor : String) : String :=
  match Path.parent? anchor with
  | some dir => if dir = "" then "." else dir
  | none => "."

/-- The pattern that the sidecar of a source file matches. -/
def pattern (anchor : String) : String :=
  Path.join (directory anchor) ((Path.stem? anchor).getD "" ++ ".*")

/-- Whether a name is that of a sidecar: it begins with the stem and a point, and is not the source
file's own. -/
def isCandidate (stem own name : String) : Bool :=
  (stem.toList ++ ['.']).isPrefixOf name.toList && name != own

/-- The names of the sidecars among the entries of a directory, in order. Directories are none, but
links are, whatever they lead to. -/
def choose (stem own : String) (entries : List Listed) : List String :=
  ((entries.filter fun e => !e.isDir && isCandidate stem own e.name).map Listed.name).mergeSort

/-- The paths of the sidecars next to a source file, in order. -/
def candidates (files : Files) (anchor : String) : Except ReadError (List String) :=
  match Path.stem? anchor, Path.fileName? anchor with
  | some stem, some own =>
    (files.list (directory anchor)).map fun entries =>
      (choose stem own entries).map (Path.join (directory anchor))
  | _, _ => .ok []

/-- A path taken from the root of the templates. -/
def resolve (settings : Settings) (path : String) : String :=
  match settings.root? with
  | some root => Path.join root path
  | none => path

/-- Finds and reads the one sidecar next to a source file. -/
def locate (settings : Settings) (files : Files) (component anchor : String) :
    Except Failure Source :=
  let anchor := resolve settings anchor
  match candidates files anchor with
  | .error e => .error (.template (directory anchor) (.unreadable e))
  | .ok [] => .error (.missingTemplate component (pattern anchor))
  | .ok [path] => Source.read files path
  | .ok paths => .error (.ambiguousTemplate component paths)

/-- The template of a component. One that stands in the component itself is taken without a look at
the files. -/
def template (settings : Settings) (files : Files) (c : Component) : Except Failure Source :=
  match c.template?, c.sourceFile? with
  | some text, _ => .ok ⟨.component c.name, settings.defaultKind, text⟩
  | none, some anchor => locate settings files c.name anchor
  | none, none => .error (.unanchored c.name)

/-- A source file with more than one sidecar. -/
structure Conflict where
  anchor : String
  candidates : List String
  deriving DecidableEq, Repr

/-- The extension of source files. -/
def sourceExtension : String := "rs"

/-- The source files in a directory, in order. -/
def anchors (files : Files) (dir : String) : Except ReadError (List String) :=
  (files.list dir).map fun entries =>
    ((entries.map Listed.name).mergeSort.map (Path.join dir)).filter fun path =>
      files.isFile path && Path.extension? path = some sourceExtension

/-- The source files in a directory that have more than one sidecar. -/
def audit (files : Files) (dir : String) : Except ReadError (List Conflict) := do
  let paths ← anchors files dir
  let found ← paths.mapM fun path => (candidates files path).map fun cs => (⟨path, cs⟩ : Conflict)
  return found.filter fun c => 1 < c.candidates.length

end Sidecar

end Stencil
