import Stencil.Files.Basic
import Stencil.Template.Parse

/-!
# Failures

Everything that can keep a component from being rendered, and the words in which it is told.
-/

namespace Stencil

/-- How a handler takes the text of a template: with the template alone, or as a separate argument
too. -/
inductive Convention where
  | unary
  | binary
  deriving DecidableEq, Inhabited, Repr

/-- The name of a convention. -/
def Convention.name : Convention → String
  | .unary => "unary"
  | .binary => "binary"

/-- Why an attribute does not satisfy a rule. -/
inductive FailureKind where
  | blank
  | present
  | inclusion
  | tooShort (least : Nat)
  | tooLong (most : Nat)
  deriving DecidableEq, Inhabited, Repr

/-- An attribute and the reason for which it failed a rule. -/
structure RuleFailure where
  name : String
  kind : FailureKind
  deriving DecidableEq, Inhabited, Repr

/-- Why the template at a path could not be used. -/
inductive TemplateProblem where
  | noExtension
  | unreadable (e : ReadError)
  deriving DecidableEq, Inhabited, Repr

/-- The words of a template's problem. -/
def TemplateProblem.message : TemplateProblem → String
  | .noExtension => "file has no extension to select a template handler"
  | .unreadable e => e.message

/-- Why an instance has no attributes. -/
inductive AttributeProblem where
  | notFields (text : String)
  | refused (text : String)
  deriving DecidableEq, Inhabited, Repr

/-- The words of an attribute problem. -/
def AttributeProblem.message : AttributeProblem → String
  | .notFields text => "expected named fields, got " ++ text
  | .refused text => text

/-- What kept a component from being rendered. -/
inductive Failure where
  | missingTemplate (component : String) (pattern : String)
  | ambiguousTemplate (component : String) (candidates : List String)
  | unanchored (component : String)
  | template (path : String) (problem : TemplateProblem)
  | unknownHandler (kind : String)
  | duplicateHandler (kind : String)
  | mismatch (kind : String) (convention : Convention)
  | malformed (origin source : String) (error : SyntaxError)
  | unknownHelper (origin name : String)
  | undefinedAttribute (component name : String)
  | unknownRoute (name : String)
  | attributes (component : String) (problem : AttributeProblem)
  | invalid (failures : List RuleFailure)
  deriving DecidableEq, Inhabited, Repr

namespace Failure

/-- Names the template in a failure that was found before its origin was known. -/
def withOrigin (origin : String) : Failure → Failure
  | .malformed o source e => .malformed (if o = "" then origin else o) source e
  | .unknownHelper o name => .unknownHelper (if o = "" then origin else o) name
  | f => f

end Failure

end Stencil
