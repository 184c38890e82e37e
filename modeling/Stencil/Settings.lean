import Stencil.Files.Basic
import Stencil.Files.Path
import Stencil.Toml.Document
import Stencil.Value.Basic

/-!
# Settings

Where templates are looked for, which kind a template within a component has, and which further kinds
stand for those that there are. Settings are made directly or read from a TOML document.
-/

namespace Stencil

/-- What a renderer is set up with. -/
structure Settings where
  root? : Option String := none
  defaultKind : String := "html"
  aliases : List (String × String) := []
  deriving DecidableEq, Inhabited, Repr

/-- Why settings could not be read. -/
inductive SettingsError where
  | unreadable (e : ReadError)
  | malformed
  deriving DecidableEq, Inhabited, Repr

/-- The words of a settings error. -/
def SettingsError.message : SettingsError → String
  | .unreadable e => "Failed to read config file: " ++ e.message
  | .malformed => "Failed to parse config TOML"

namespace Settings

/-- The text of an item that is a text. -/
def text? : Toml.Item → Option String
  | .str s => some s
  | _ => none

/-- Texts under names. A moment is taken for the table that stands for it. -/
def texts? : Toml.Item → Option (List (String × String))
  | .table entries => (entries.mapM fun p => (text? p.2).map fun s => (p.1, s)).map sortByName
  | .moment m => some [(Toml.Moment.key, m.text)]
  | _ => none

/-- Whether a table has no other keys than those of a section. -/
def isSection (keys : List String) (entries : List (String × Toml.Item)) : Bool :=
  entries.all fun (k, _) => keys.contains k

/-- The section on templates: a table, or a list of its two values in order. -/
def templates? : Toml.Item → Option (Option String × Option String)
  | .table entries => do
    if !isSection ["root", "default_kind"] entries then none
    let root ← (entries.lookup "root").mapM text?
    let kind ← (entries.lookup "default_kind").mapM text?
    some (root, kind)
  | .arr (root :: kind :: _) => do
    let root ← text? root
    let kind ← text? kind
    some (some root, some kind)
  | _ => none

/-- The section on handlers: a table, or a list that begins with its value. -/
def handlers? : Toml.Item → Option (List (String × String))
  | .table entries => do
    if !isSection ["aliases"] entries then none
    let aliases ← (entries.lookup "aliases").mapM texts?
    some (aliases.getD [])
  | .arr [] => some []
  | .arr (aliases :: _) => texts? aliases
  | _ => none

/-- The settings that a TOML document gives. It holds nothing that is not a setting. -/
def ofToml? (source : String) : Option Settings := do
  let entries ← Toml.read? source
  if !isSection ["templates", "handlers"] entries then none
  let templates ← (entries.lookup "templates").mapM templates?
  let handlers ← (entries.lookup "handlers").mapM handlers?
  let (root, kind) := templates.getD (none, none)
  some ⟨root, kind.getD "html", handlers.getD []⟩

/-- The settings in a file. A relative root is taken from the directory of the file. -/
def ofFile (files : Files) (path : String) : Except SettingsError Settings :=
  match files.readText path with
  | .error e => .error (.unreadable e)
  | .ok source =>
    match ofToml? source with
    | none => .error .malformed
    | some s =>
      let anchored (root : String) : String :=
        match Path.parent? path with
        | some dir => if Path.isRelative root then Path.join dir root else root
        | none => root
      .ok { s with root? := s.root?.map anchored }

end Settings

end Stencil
