import Stencil.CommandLine.Run

/-!
# The executable

Answers a request from the files of the system. Whatever the request may look at is looked at first,
and the answers of the system are handed to `CommandLine.run` as a file system of their own.
-/

namespace Stencil.CommandLine

/-- The reading error that has a number with the system, which may come with its sign changed. -/
def numbered (number : UInt32) (text : String) : ReadError :=
  match number.toInt32.toInt.natAbs with
  | 2 => .notFound
  | 13 => .denied
  | 20 => .notDirectory
  | 21 => .isDirectory
  | 36 => .nameTooLong
  | 40 => .tooManyLinks
  | n => .other (text ++ " (os error " ++ toString n ++ ")")

/-- An error of the system as a reading error. -/
def readError : IO.Error → ReadError
  | .alreadyExists _ n text | .interrupted _ n text | .noFileOrDirectory _ n text
  | .invalidArgument _ n text | .permissionDenied _ n text | .resourceExhausted _ n text
  | .inappropriateType _ n text | .noSuchThing _ n text | .otherError n text
  | .resourceBusy n text | .resourceVanished n text | .unsupportedOperation n text
  | .hardwareFault n text | .unsatisfiedConstraints n text | .illegalOperation n text
  | .protocolError n text | .timeExpired n text => numbered n text
  | .unexpectedEof => .other "unexpected end of file"
  | .userError text => .other text

/-- Asks the system about a path, and gives its answer or its error. -/
def ask {α : Type} (path : String) (question : String → IO α) : IO (Except ReadError α) := do
  match ReadError.ofPath? path with
  | some e => return .error e
  | none =>
    match ← (question path).toBaseIO with
    | .ok answer => return .ok answer
    | .error e => return .error (readError e)

/-- The entries of a directory. -/
def listing (path : String) : IO (List Listed) := do
  let entries ← ((← IO.currentDir) / path).readDir
  entries.toList.mapM fun e => do
    let data ← e.path.symlinkMetadata
    return ⟨e.fileName, data.type == .dir⟩

/-- Whether a path leads to a file. -/
def leadsToFile (path : String) : IO Bool := do
  let data ← ((← IO.currentDir) / path).metadata
  return data.type == .file

/-- The answers of the system to the questions about some paths. -/
structure Answers where
  read : List (String × Except ReadError ByteArray) := []
  list : List (String × Except ReadError (List Listed)) := []
  isFile : List (String × Bool) := []

/-- The answers as a file system that has nothing else. -/
def Answers.files (a : Answers) : Files where
  read path := (a.read.lookup path).getD (.error .notFound)
  list path := (a.list.lookup path).getD (.error .notFound)
  isFile path := (a.isFile.lookup path).getD false

/-- Reads a file. -/
def Answers.askRead (a : Answers) (path : String) : IO Answers := do
  let bytes ← ask path fun path => IO.FS.readBinFile path
  return { a with read := (path, bytes) :: a.read }

/-- Lists a directory. -/
def Answers.askList (a : Answers) (path : String) : IO Answers := do
  let entries ← ask path listing
  return { a with list := (path, entries) :: a.list }

/-- Asks about an entry of a directory what is asked about a source file there. -/
def Answers.askAnchor (a : Answers) (path : String) : IO Answers := do
  match ← ask path leadsToFile with
  | .ok true =>
    let a := { a with isFile := (path, true) :: a.isFile }
    a.askList (Sidecar.directory path)
  | _ => return a

/-- Asks all that a command may need to know. -/
def Answers.askFor (a : Answers) : Command → IO Answers
  | .render file attrs? _ => (file :: attrs?.toList).foldlM Answers.askRead a
  | .check dir => do
    let a ← a.askList dir
    match a.files.list dir with
    | .ok entries => (entries.map fun e => Path.join dir e.name).foldlM Answers.askAnchor a
    | .error _ => return a

/-- The file system as far as a request is concerned. -/
def filesFor : Request → IO Files
  | .run config? command => do
    let a ← config?.toList.foldlM Answers.askRead {}
    let a ← a.askFor command
    return a.files
  | _ => return ({} : Answers).files

end Stencil.CommandLine

open Stencil.CommandLine in
/-- Runs the program on the words after its name. -/
def main (args : List String) : IO UInt32 := do
  let outcome := run (← filesFor (request {} args)) args
  IO.print outcome.stdout
  IO.eprint outcome.stderr
  return outcome.code.toUInt32
