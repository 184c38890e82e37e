import Stencil.Template.Body

/-!
# The grammar of templates

Which sequences of tokens are templates, and the trees that they describe:

    template   = node*
    node       = text | output expression close | raw expression close
               | block ("if" | "unless") expression close node*
                 [block "else" close node*] block "end" close
    expression = identifier "(" [argument ("," argument)* [","]] ")" | argument
    argument   = string | integer | identifier ("." identifier)*

A node takes its place from its first and its last token. Main statement: the tokens of two
templates, one after the other, are those of a template with the nodes of both.
-/

namespace Stencil.Grammar

/-- Steps into a value, each behind a point. -/
inductive Steps : List (Located Token) → List String → Prop
  | nil : Steps [] []
  | cons {p q : Span} {name : String} {ts : List (Located Token)} {names : List String} :
      Steps ts names → Steps (⟨.dot, p⟩ :: ⟨.ident name, q⟩ :: ts) (name :: names)

/-- Literals and paths. -/
inductive Argument : List (Located Token) → Operand → Prop
  | str {p : Span} {s : String} : Argument [⟨.str s, p⟩] (.str s)
  | int {p : Span} {n : Int} : Argument [⟨.int n, p⟩] (.int n)
  | path {p : Span} {root : String} {ts : List (Located Token)} {names : List String} :
      Steps ts names → Argument (⟨.ident root, p⟩ :: ts) (.path root names)

/-- What stands between the parentheses of a call. -/
inductive Arguments : List (Located Token) → List Operand → Prop
  | nil : Arguments [] []
  | last {ts : List (Located Token)} {a : Operand} : Argument ts a → Arguments ts [a]
  | cons {p : Span} {ts us : List (Located Token)} {a : Operand} {as : List Operand} :
      Argument ts a → Arguments us as → Arguments (ts ++ ⟨.comma, p⟩ :: us) (a :: as)

/-- Expressions. -/
inductive Expression : List (Located Token) → Expr → Prop
  | operand {ts : List (Located Token)} {o : Operand} :
      Argument ts o → Expression ts (.operand o)
  | call {p q r : Span} {helper : String} {ts : List (Located Token)} {args : List Operand} :
      Arguments ts args →
      Expression (⟨.ident helper, p⟩ :: ⟨.parenOpen, q⟩ :: ts ++ [⟨.parenClose, r⟩])
        (.call helper args)

/-- The part of a source from the first to the last of some tokens. -/
def extent (ts : List (Located Token)) : Span :=
  ⟨(ts.head?.map (·.span.start)).getD 0, (ts.getLast?.map (·.span.stop)).getD 0⟩

/-- The keyword that a conditional begins with. -/
def opening (negated : Bool) : Token := if negated then .kwUnless else .kwIf

/-- A block with nothing but a keyword. -/
def mark (keyword : Token) (p q r : Span) : List (Located Token) :=
  [⟨.blockOpen, p⟩, ⟨keyword, q⟩, ⟨.tagClose, r⟩]

/-- The tokens of a template, or of a branch of a conditional, and what they describe. -/
inductive Nodes : List (Located Token) → Body → Prop
  | nil : Nodes [] .nil
  | text {p : Span} {s : String} {ts : List (Located Token)} {rest : Body} :
      Nodes ts rest → Nodes (⟨.text s, p⟩ :: ts) (.text p s rest)
  | output {p q : Span} {es ts : List (Located Token)} {e : Expr} {rest : Body} :
      Expression es e → Nodes ts rest →
      Nodes (⟨.outputOpen, p⟩ :: es ++ ⟨.tagClose, q⟩ :: ts)
        (.output ⟨p.start, q.stop⟩ ⟨e, extent es⟩ rest)
  | raw {p q : Span} {es ts : List (Located Token)} {e : Expr} {rest : Body} :
      Expression es e → Nodes ts rest →
      Nodes (⟨.rawOpen, p⟩ :: es ++ ⟨.tagClose, q⟩ :: ts)
        (.raw ⟨p.start, q.stop⟩ ⟨e, extent es⟩ rest)
  | conditional {p q r x y z : Span} {negated : Bool} {es xs ts : List (Located Token)} {e : Expr}
      {thenBranch rest : Body} :
      Expression es e → Nodes xs thenBranch → Nodes ts rest →
      Nodes (⟨.blockOpen, p⟩ :: ⟨opening negated, q⟩ :: es ++ ⟨.tagClose, r⟩ :: xs ++
          mark .kwEnd x y z ++ ts)
        (.conditional ⟨p.start, z.stop⟩ negated ⟨e, extent es⟩ thenBranch .nil rest)
  | alternative {p q r u v w x y z : Span} {negated : Bool} {es xs ys ts : List (Located Token)}
      {e : Expr} {thenBranch elseBranch rest : Body} :
      Expression es e → Nodes xs thenBranch → Nodes ys elseBranch → Nodes ts rest →
      Nodes (⟨.blockOpen, p⟩ :: ⟨opening negated, q⟩ :: es ++ ⟨.tagClose, r⟩ :: xs ++
          mark .kwElse u v w ++ ys ++ mark .kwEnd x y z ++ ts)
        (.conditional ⟨p.start, z.stop⟩ negated ⟨e, extent es⟩ thenBranch elseBranch rest)

/-- Templates can be put after one another. -/
theorem Nodes.append {ts us : List (Located Token)} {a b : Body} (ha : Nodes ts a)
    (hb : Nodes us b) : Nodes (ts ++ us) (a.append b) := by
  induction ha with
  | nil => exact hb
  | text _ ih => exact .text ih
  | output he _ ih =>
    rw [List.append_assoc, List.cons_append]
    exact .output he ih
  | raw he _ ih =>
    rw [List.append_assoc, List.cons_append]
    exact .raw he ih
  | conditional he hx _ _ ih =>
    rw [List.append_assoc]
    exact .conditional he hx ih
  | alternative he hx hy _ _ _ ih =>
    rw [List.append_assoc]
    exact .alternative he hx hy ih

end Stencil.Grammar
