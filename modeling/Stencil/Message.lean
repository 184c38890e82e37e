import Stencil.Failure
import Stencil.Text.Case

/-!
# Messages

The words in which failures are told.
-/

namespace Stencil

/-- The words of a failed demand. -/
def FailureKind.message : FailureKind → String
  | .blank => "can't be blank"
  | .present => "must be blank"
  | .inclusion => "is not included in the list"
  | .tooShort least => "is too short (minimum is " ++ toString least ++ " characters)"
  | .tooLong most => "is too long (maximum is " ++ toString most ++ " characters)"

/-- The name of an attribute as a sentence begins with it. -/
def humanize (name : String) : String :=
  match name.toList.map fun c => if c = '_' then ' ' else c with
  | [] => ""
  | c :: cs => String.ofList (Text.upperChar c ++ cs)

/-- The sentence that tells of a failed rule. -/
def RuleFailure.message (f : RuleFailure) : String := humanize f.name ++ " " ++ f.kind.message

/-- The sentence that tells of a failure. -/
def Failure.message : Failure → String
  | .missingTemplate component pattern =>
    "no template found for " ++ component ++ ": expected one file matching " ++ pattern
  | .ambiguousTemplate component candidates =>
    "ambiguous template for " ++ component ++ ": found " ++ ", ".intercalate candidates
  | .unanchored component =>
    component ++ " does not declare its source file, so its template cannot be located"
  | .template path problem => "error reading template " ++ path ++ ": " ++ problem.message
  | .unknownHandler kind => "no template handler registered for kind '" ++ kind ++ "'"
  | .duplicateHandler kind =>
    "a template handler is already registered for kind '" ++ kind ++ "'"
  | .mismatch kind c =>
    "template handler for '" ++ kind ++ "' cannot be called with the " ++ c.name ++
      " convention"
  | .malformed origin _ e => "syntax errors in template " ++ origin ++ ": " ++ e.text
  | .unknownHelper origin name => "unknown helper '" ++ name ++ "' in template " ++ origin
  | .undefinedAttribute component name =>
    "undefined attribute '" ++ name ++ "' for " ++ component
  | .unknownRoute name => "no route named '" ++ name ++ "'"
  | .attributes component problem =>
    "invalid attributes for " ++ component ++ ": " ++ problem.message
  | .invalid failures =>
    "Validation failed: " ++ ", ".intercalate (failures.map RuleFailure.message)

end Stencil
