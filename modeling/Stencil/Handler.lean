import Stencil.Template.Evaluation

/-!
# Handlers

A handler compiles the text of templates of one kind. There are three to begin with: `html` for the
template language, `raw` for markup that is printed as it is, and `text` for text that is escaped.
-/

namespace Stencil

/-- A compiled template: it prints markup in a scope. -/
abbrev Routine := Scope → Except Failure Markup

/-- A template as a handler sees it: its text and its kind. -/
structure Adapter where
  source : String
  kind : String
  deriving DecidableEq, Inhabited, Repr

/-- The identifier of a template, which is empty. -/
def Adapter.identifier (_ : Adapter) : String := ""

/-- A handler declares one convention and is called with it. A call that it does not provide fails. -/
structure Handler where
  convention : Convention
  call : Adapter → Except Failure Routine := fun a => .error (.mismatch a.kind .unary)
  callWithSource : Adapter → String → Except Failure Routine :=
    fun a _ => .error (.mismatch a.kind .binary)

namespace Handler

/-- The handler that takes templates only. -/
def unary (compile : Adapter → Except Failure Routine) : Handler :=
  { convention := .unary, call := compile }

/-- The handler that takes the text as an argument of its own. -/
def binary (compile : Adapter → String → Except Failure Routine) : Handler :=
  { convention := .binary, callWithSource := compile }

/-- Calls a handler with a convention. -/
def invoke (h : Handler) (convention : Convention) (a : Adapter) : Except Failure Routine :=
  match convention with
  | .unary => h.call a
  | .binary => h.callWithSource a a.source

/-- The compiled form of a template's text in the template language. All helpers that it names have to
exist, also those in branches that are never taken. -/
def compileHtml (source : String) : Except Failure Routine :=
  match parse source with
  | .error e => .error (.malformed "" source e)
  | .ok b =>
    match b.unknownHelper? with
    | some name => .error (.unknownHelper "" name)
    | none => .ok fun scope => b.render scope

/-- The handler of the template language. -/
def html : Handler := .unary fun a => compileHtml a.source

/-- The handler of markup without templates. -/
def raw : Handler := .binary fun _ source => .ok fun _ => .ok ⟨source⟩

/-- The handler of plain text. -/
def text : Handler := .binary fun _ source => .ok fun _ => .ok (.ofText source)

end Handler

end Stencil
