/-!
# Files

What the library asks of a file system: to read a file, to list a directory, and to tell whether a
path leads to a file. Nothing is assumed of the answers.
-/

namespace Stencil

/-- Why a file or a directory could not be read. -/
inductive ReadError where
  | notFound
  | denied
  | notDirectory
  | isDirectory
  | nameTooLong
  | tooManyLinks
  | nulByte
  | notUtf8
  | other (text : String)
  deriving DecidableEq, Inhabited, Repr

/-- The words of a reading error. Those of the system go with their numbers. -/
def ReadError.message : ReadError → String
  | .notFound => "No such file or directory (os error 2)"
  | .denied => "Permission denied (os error 13)"
  | .notDirectory => "Not a directory (os error 20)"
  | .isDirectory => "Is a directory (os error 21)"
  | .nameTooLong => "File name too long (os error 36)"
  | .tooManyLinks => "Too many levels of symbolic links (os error 40)"
  | .nulByte => "file name contained an unexpected NUL byte"
  | .notUtf8 => "stream did not contain valid UTF-8"
  | .other text => text

/-- The number of bytes from which on the text of a path is too long. -/
def pathLimit : Nat := 4096

/-- The number of bytes that a name in a directory can have. -/
def nameLimit : Nat := 255

/-- What is wrong with the text of a path, whatever there is in the file system. -/
def ReadError.ofPath? (path : String) : Option ReadError :=
  if path.toList.contains '\x00' then some .nulByte
  else if pathLimit ≤ path.utf8ByteSize then some .nameTooLong
  else none

/-- A name in a directory, and whether a directory stands under it. A link is not followed. Names are
texts: an entry whose name is not UTF-8 has no counterpart here. -/
structure Listed where
  name : String
  isDir : Bool
  deriving DecidableEq, Inhabited, Repr

/-- A file system, by the answers that it gives. A listing is in no particular order. -/
structure Files where
  read : String → Except ReadError ByteArray
  list : String → Except ReadError (List Listed)
  isFile : String → Bool

namespace Files

/-- The text of a file, which has to be UTF-8. -/
def readText (files : Files) (path : String) : Except ReadError String := do
  let bytes ← files.read path
  match String.fromUTF8? bytes with
  | some text => .ok text
  | none => .error .notUtf8

end Files

end Stencil
