import Stencil.Rule

/-!
# Evaluation

What a template prints in a scope: one piece for each text and each printed expression that is
reached, in the order of the template.
-/

namespace Stencil

/-- What an expression evaluates to: markup, which is printed as it is, or a value, whose text is
escaped. -/
inductive Result where
  | markup (m : Markup)
  | value (v : Value)

namespace Result

/-- Whether a condition holds: the result is not blank. -/
def isTruthy : Result → Bool
  | .markup m => !m.isBlank
  | .value v => !v.isBlank

/-- The text of a result, without escaping. -/
def text : Result → String
  | .markup m => m.html
  | .value v => v.text

/-- What is printed for a result within double braces. -/
def escaped : Result → Markup
  | .markup m => m
  | .value v => .ofText v.text

/-- A result as a parameter of a route. -/
def param : Result → Value
  | .markup m => .str m.html
  | .value v => v

/-- The result with its text changed. Markup is left alone, since a change of case would spoil its
entities. -/
def mapText (f : String → String) : Result → Result
  | .markup m => .markup m
  | .value v => .value (.str (f v.text))

end Result

/-- The helpers that a template can call. -/
inductive Helper where
  | url
  | upcase
  | downcase
  | default
  deriving DecidableEq, Repr

namespace Helper

/-- The helper of a name. -/
def ofName? (name : String) : Option Helper :=
  if name = "url" then some .url
  else if name = "upcase" then some .upcase
  else if name = "downcase" then some .downcase
  else if name = "default" then some .default
  else none

/-- The result of a helper: the first argument stands in front, null if there is none. -/
def apply (scope : Scope) (first : Result) (others : List Result) : Helper → Except Failure Result
  | .url =>
    match scope.routes.urlFor first.text (others.map Result.param) with
    | some address => .ok (.value (.str address))
    | none => .error (.unknownRoute first.text)
  | .upcase => .ok (first.mapText Text.upper)
  | .downcase => .ok (first.mapText Text.lower)
  | .default =>
    .ok (if first.isTruthy then first else others.head?.getD (.value .null))

end Helper

/-- The result of an operand. The path `content` alone stands for the captured content. -/
def Operand.eval (scope : Scope) : Operand → Except Failure Result
  | .str s => .ok (.value (.str s))
  | .int n => .ok (.value (.int n))
  | .path root steps =>
    if root = contentName ∧ steps = [] then .ok (.markup (scope.content.getD {}))
    else (scope.lookup (root :: steps)).map .value

/-- The results of operands, evaluated from the left. -/
def Operand.evalAll (scope : Scope) : List Operand → Except Failure (List Result)
  | [] => .ok []
  | o :: os => do
    let r ← o.eval scope
    let rs ← evalAll scope os
    return r :: rs

/-- The result of an expression. -/
def Expr.eval (scope : Scope) : Expr → Except Failure Result
  | .operand o => o.eval scope
  | .call name args => do
    let results ← Operand.evalAll scope args
    match Helper.ofName? name with
    | some h => h.apply scope (results.head?.getD (.value .null)) results.tail
    | none => .error (.unknownHelper "" name)

namespace Body

/-- The pieces that a body prints. -/
def pieces (scope : Scope) : Body → Except Failure (List Markup)
  | .nil => .ok []
  | .text _ s rest => do
    let more ← rest.pieces scope
    return ⟨s⟩ :: more
  | .output _ e rest => do
    let r ← e.item.eval scope
    let more ← rest.pieces scope
    return r.escaped :: more
  | .raw _ e rest => do
    let r ← e.item.eval scope
    let more ← rest.pieces scope
    return ⟨r.text⟩ :: more
  | .conditional _ negated e thenBranch elseBranch rest => do
    let r ← e.item.eval scope
    let branch ←
      if r.isTruthy != negated then thenBranch.pieces scope else elseBranch.pieces scope
    let more ← rest.pieces scope
    return branch ++ more

/-- What a body prints. -/
def render (scope : Scope) (b : Body) : Except Failure Markup :=
  (b.pieces scope).map Markup.join

/-- The first helper that a body calls and that does not exist. -/
def unknownHelper? (b : Body) : Option String :=
  b.helpers.find? fun name => (Helper.ofName? name).isNone

end Body

end Stencil
