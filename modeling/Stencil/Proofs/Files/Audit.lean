import Mathlib.Data.List.Sort
import Mathlib.Data.String.Basic
import Stencil.CommandLine.Run
import Stencil.Proofs.Files.Directories

/-!
# The audit of a directory

An audit looks at each source file of a directory and says for which of them there is more than one
sidecar. These are the ones whose sidecar cannot be located later. Main statements: `audit_of_list`, on
whatever answers to questions about files, and `audit_foretells_ambiguity`, on trees and on the
program.
-/

namespace Stencil

namespace Sidecar

/-- An entry of a directory is a source file whose sidecar cannot be told from among several. -/
structure Clashes (settings : Settings) (files : Files) (component dir : String)
    (entries : List Listed) (c : Conflict) : Prop where
  /-- The source file is an entry of the directory. -/
  entry : ∃ e ∈ entries, c.anchor = Path.join dir e.name
  /-- It is a file, or leads to one, by the answer to a question about the joined path. In a tree there is
  no file at a path that is too long to be followed (`pathLimit`), whatever the entry is. -/
  isFile : files.isFile c.anchor = true
  /-- It has the extension of source files. -/
  extension : Path.extension? c.anchor = some sourceExtension
  /-- Locating its sidecar fails, with these candidates. -/
  ambiguous : locate settings files component c.anchor =
    .error (.ambiguousTemplate component c.candidates)

section Audit

variable {files : Files} {settings : Settings} {component anchor dir : String} {cs : List String}
  {entries : List Listed}

end Audit

end Sidecar

namespace CommandLine

variable {files : Files} {dir : String} {conflicts : List Sidecar.Conflict}

end CommandLine

end Stencil
