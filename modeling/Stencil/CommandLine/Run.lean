import Stencil.CommandLine.Help
import Stencil.Diagnostic.Report
import Stencil.Renderer

/-!
# The program

Checks a directory for source files with more than one template, or renders a template file with
attributes from a TOML document.
-/

namespace Stencil

mutual

/-- A value of a document as an attribute. Numbers that are not finite become null, and a moment the
object that stands for it. A table that begins with the key of moments has to be such an object;
further entries of it are passed over. -/
def Toml.Item.toValue? : Toml.Item → Option Value
  | .str s => some (.str s)
  | .int n => some (.int n)
  | .float x => some (if x.isFinite then .float x else .null)
  | .bool b => some (.bool b)
  | .moment m => some (.obj [(Toml.Moment.key, .str m.text)])
  | .arr items => (Toml.Item.toValues? items).map .arr
  | .table [] => some (.obj [])
  | .table ((name, v) :: rest) =>
    if name = Toml.Moment.key then
      match v with
      | .str s => (Toml.Moment.ofText? s).map fun m => .obj [(Toml.Moment.key, .str m.text)]
      | _ => none
    else do
      let first ← v.toValue?
      let more ← Toml.Item.toFields? rest
      some (.ofFields ((name, first) :: more))

/-- The values of an array as attributes. -/
def Toml.Item.toValues? : List Toml.Item → Option (List Value)
  | [] => some []
  | v :: vs => do
    let first ← v.toValue?
    let more ← Toml.Item.toValues? vs
    some (first :: more)

/-- The entries of a table as attributes. -/
def Toml.Item.toFields? : List (String × Toml.Item) → Option (List (String × Value))
  | [] => some []
  | (name, v) :: rest => do
    let first ← v.toValue?
    let more ← Toml.Item.toFields? rest
    some ((name, first) :: more)

end

namespace CommandLine

/-- What a run of the program leaves behind. -/
structure Outcome where
  code : Nat
  stdout : String := ""
  stderr : String := ""
  deriving DecidableEq, Repr

/-- The outcome of a run that failed. -/
def Outcome.failed (message : String) : Outcome := { code := 1, stderr := message ++ "\n" }

/-- A path between quotes, and what is wrong with it. -/
def complaint (what path why : String) : String := what ++ " '" ++ path ++ "': " ++ why

/-- Lists the source files of a directory that have more than one sidecar. -/
def check (files : Files) (dir : String) : Outcome :=
  match Sidecar.audit files dir with
  | .error e => .failed (complaint "Error reading directory" dir e.message)
  | .ok [] => { code := 0, stdout := "No ambiguous templates in " ++ dir ++ "\n" }
  | .ok conflicts =>
    let lines := conflicts.flatMap fun c => (c.anchor ++ ":\n") :: c.candidates.map ("  " ++ · ++ "\n")
    { code := 1, stdout := String.join lines }

/-- The attributes in a TOML file, or what is wrong with it. -/
def readAttributes (files : Files) (path : String) : Except String Attributes :=
  match files.readText path with
  | .error e => .error e.message
  | .ok source =>
    match (Toml.read? source).bind Toml.Item.toFields? with
    | some fields => .ok (.ofList fields)
    | none => .error "malformed TOML"

/-- Renders a template file. -/
def render (files : Files) (settings : Settings) (file : String) (attrs? content? : Option String) :
    Outcome :=
  match Renderer.ofSettings settings with
  | .error f => .failed ("Error: " ++ f.message)
  | .ok r =>
    match Source.read files file with
    | .error f => .failed ("Error: " ++ f.message)
    | .ok s =>
      match attrs?.mapM fun path => (readAttributes files path).mapError (path, ·) with
      | .error (path, why) => .failed (complaint "Error loading attributes" path why)
      | .ok attributes =>
        match r.renderSource s (attributes.getD {}) (content?.map .ofText) with
        | .ok m => { code := 0, stdout := m.html ++ "\n" }
        | .error f => .failed f.report

/-- Runs the program on the words after its name. The settings are read first, whatever the command. -/
def run (files : Files) (args : List String) : Outcome :=
  match request {} args with
  | .misuse => { code := 2 }
  | .help topic => { code := 0, stdout := helpText topic }
  | .run config? command =>
    match config?.mapM fun path => (Settings.ofFile files path).mapError (path, ·) with
    | .error (path, e) => .failed (complaint "Error loading config" path e.message)
    | .ok settings =>
      match command with
      | .check dir => check files dir
      | .render file attrs? content? => render files (settings.getD {}) file attrs? content?

end CommandLine

end Stencil
