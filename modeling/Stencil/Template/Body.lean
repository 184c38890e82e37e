import Stencil.Template.Token

/-!
# Templates as trees

What a template says once it has been read: a sequence of nodes, each of which is text, an expression
to print, or a conditional with two branches.
-/

namespace Stencil

/-- What an expression can take as an argument: the value of an attribute, reached by the name of the
attribute and further steps into it, or a literal. -/
inductive Operand where
  | path (root : String) (steps : List String)
  | str (s : String)
  | int (n : Int)
  deriving DecidableEq, Inhabited, Repr

/-- An expression: an operand, or a call of a helper. Calls do not nest. -/
inductive Expr where
  | operand (o : Operand)
  | call (helper : String) (args : List Operand)
  deriving DecidableEq, Inhabited, Repr

/-- The body of a template or of a branch: its first node, with the place of the node, and the body
after it. A negated conditional takes its first branch when the condition does not hold. -/
inductive Body where
  | nil
  | text (span : Span) (s : String) (rest : Body)
  | output (span : Span) (expr : Located Expr) (rest : Body)
  | raw (span : Span) (expr : Located Expr) (rest : Body)
  | conditional (span : Span) (negated : Bool) (condition : Located Expr)
      (thenBranch elseBranch rest : Body)
  deriving DecidableEq, Inhabited, Repr

/-- The helper that an expression calls. -/
def Expr.helper? : Expr → Option String
  | .operand _ => none
  | .call helper _ => some helper

namespace Body

/-- The expressions of a body in the order of the source, those of both branches included. -/
def expressions : Body → List (Located Expr)
  | .nil => []
  | .text _ _ rest => rest.expressions
  | .output _ e rest | .raw _ e rest => e :: rest.expressions
  | .conditional _ _ e thenBranch elseBranch rest =>
    e :: thenBranch.expressions ++ elseBranch.expressions ++ rest.expressions

/-- The helpers that a body calls, in the order of the source. -/
def helpers (b : Body) : List String := b.expressions.filterMap fun e => e.item.helper?

/-- The nodes of one body and then those of another. -/
def append : Body → Body → Body
  | .nil, b => b
  | .text span s rest, b => .text span s (rest.append b)
  | .output span e rest, b => .output span e (rest.append b)
  | .raw span e rest, b => .raw span e (rest.append b)
  | .conditional span negated e thenBranch elseBranch rest, b =>
    .conditional span negated e thenBranch elseBranch (rest.append b)

/-- The body with its places changed, those of expressions included. -/
def mapSpans (f : Span → Span) : Body → Body
  | .nil => .nil
  | .text span s rest => .text (f span) s (rest.mapSpans f)
  | .output span e rest => .output (f span) ⟨e.item, f e.span⟩ (rest.mapSpans f)
  | .raw span e rest => .raw (f span) ⟨e.item, f e.span⟩ (rest.mapSpans f)
  | .conditional span negated e thenBranch elseBranch rest =>
    .conditional (f span) negated ⟨e.item, f e.span⟩ (thenBranch.mapSpans f)
      (elseBranch.mapSpans f) (rest.mapSpans f)

/-- What a body says, without its places. -/
def unplaced (b : Body) : Body := b.mapSpans fun _ => ⟨0, 0⟩

end Body

end Stencil
