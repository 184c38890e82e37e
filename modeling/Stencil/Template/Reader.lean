import Stencil.Template.Body

/-!
# Reading templates

Templates are read from tokens with one token of lookahead; a word before a parenthesis takes two.
Reading stops at the first token that cannot go on, and tells what could have stood there instead.
-/

namespace Stencil

/-- What could stand at a place where reading stopped. Text, identifiers and literals are never
named. -/
inductive Expectation where
  | token (t : Token)
  | endOfInput
  deriving DecidableEq, Inhabited, Repr

/-- How an expectation is called in an error message. -/
def Expectation.describe : Expectation → String
  | .token t => t.describe
  | .endOfInput => "end of input"

namespace Reader

/-- The tokens that are yet to be read. -/
abbrev Tokens := List (Located Token)

/-- A failure: the tokens from the first that cannot go on, and what could have stood there. -/
structure Stuck where
  rest : Tokens
  expected : List Expectation
  deriving DecidableEq, Repr

/-- Something read, and the tokens after it, of which there are fewer than `bound`. -/
structure Taken (α : Type) (bound : Nat) where
  item : α
  rest : Tokens
  shorter : rest.length < bound

/-- What can follow an operand for it to go on. -/
def operandContinues : Operand → List Expectation
  | .path _ _ => [.token .dot]
  | .str _ | .int _ => []

/-- What can follow an expression for it to go on. -/
def exprContinues : Expr → List Expectation
  | .operand (.path _ []) => [.token .parenOpen, .token .dot]
  | .operand o => operandContinues o
  | .call _ _ => []

/-- Reads the steps of a path whose name ended at `stop`, and tells where the path ends. -/
def steps (stop : Nat) :
    (toks : Tokens) → Except Stuck (Taken (List String × Nat) (toks.length + 1))
  | ⟨.dot, _⟩ :: ⟨.ident name, span⟩ :: rest => do
    let more ← steps span.stop rest
    return ⟨(name :: more.item.1, more.item.2), more.rest, by
      have := more.shorter
      simp only [List.length_cons]
      omega⟩
  | ⟨.dot, _⟩ :: rest => .error ⟨rest, []⟩
  | toks => .ok ⟨([], stop), toks, Nat.lt_succ_self _⟩

/-- Reads an operand and tells where it ends; `expected` is what else could stand there. -/
def operand (expected : List Expectation) :
    (toks : Tokens) → Except Stuck (Taken (Operand × Nat) toks.length)
  | ⟨.str s, span⟩ :: rest => .ok ⟨(.str s, span.stop), rest, Nat.lt_succ_self _⟩
  | ⟨.int n, span⟩ :: rest => .ok ⟨(.int n, span.stop), rest, Nat.lt_succ_self _⟩
  | ⟨.ident root, span⟩ :: rest => do
    let path ← steps span.stop rest
    return ⟨(.path root path.item.1, path.item.2), path.rest, path.shorter⟩
  | toks => .error ⟨toks, expected⟩

/-- Reads arguments up to the closing parenthesis and tells where that ends. A comma may stand after
the last argument. -/
def arguments (toks : Tokens) : Except Stuck (Taken (List Operand × Nat) toks.length) :=
  match toks with
  | ⟨.parenClose, span⟩ :: rest => .ok ⟨([], span.stop), rest, Nat.lt_succ_self _⟩
  | toks => do
    let arg ← operand [.token .parenClose] toks
    have hlt := arg.shorter
    match h : arg.rest with
    | ⟨.parenClose, span⟩ :: rest =>
      return ⟨([arg.item.1], span.stop), rest, by simp [h] at hlt; omega⟩
    | ⟨.comma, _⟩ :: rest =>
      have : rest.length < toks.length := by simp [h] at hlt; omega
      let more ← arguments rest
      return ⟨(arg.item.1 :: more.item.1, more.item.2), more.rest, Nat.lt_trans more.shorter this⟩
    | rest =>
      .error ⟨rest, operandContinues arg.item.1 ++ [.token .comma, .token .parenClose]⟩
termination_by toks.length

/-- Reads an expression. -/
def expression : (toks : Tokens) → Except Stuck (Taken (Located Expr) toks.length)
  | ⟨.ident helper, span⟩ :: ⟨.parenOpen, _⟩ :: rest => do
    let args ← arguments rest
    return ⟨⟨.call helper args.item.1, ⟨span.start, args.item.2⟩⟩, args.rest, by
      have := args.shorter
      simp only [List.length_cons]
      omega⟩
  | ⟨t, span⟩ :: rest => do
    let o ← operand [] (⟨t, span⟩ :: rest)
    return ⟨⟨.operand o.item.1, ⟨span.start, o.item.2⟩⟩, o.rest, o.shorter⟩
  | [] => .error ⟨[], []⟩

/-- Reads the end of a tag and tells where that is; `continues` is what else could stand there. -/
def closing (continues : List Expectation) :
    (toks : Tokens) → Except Stuck (Taken Nat toks.length)
  | ⟨.tagClose, span⟩ :: rest => .ok ⟨span.stop, rest, Nat.lt_succ_self _⟩
  | toks => .error ⟨toks, continues ++ [.token .tagClose]⟩

/-- Reads an expression with the end of its tag, and tells where the tag ends. -/
def tag (toks : Tokens) : Except Stuck (Taken (Located Expr × Nat) toks.length) := do
  let e ← expression toks
  let close ← closing (exprContinues e.item.item) e.rest
  return ⟨(e.item, close.item), close.rest, Nat.lt_trans close.shorter e.shorter⟩

/-- Where a body stands: in the template itself, or in a branch of a conditional. -/
inductive Place where
  | top
  | thenBranch
  | elseBranch
  deriving DecidableEq, Repr

/-- What a node can begin with, or else what ends the body. -/
def Place.starts : Place → List Expectation
  | .top => [.token .outputOpen, .token .rawOpen, .token .blockOpen, .endOfInput]
  | _ => [.token .outputOpen, .token .rawOpen, .token .blockOpen]

/-- The keywords that can open a block. -/
def Place.keywords : Place → List Expectation
  | .top => [.token .kwIf, .token .kwUnless]
  | .thenBranch => [.token .kwIf, .token .kwUnless, .token .kwElse, .token .kwEnd]
  | .elseBranch => [.token .kwIf, .token .kwUnless, .token .kwEnd]

/-- Reads the block that ends a conditional, and tells where it ends. -/
def endBlock : (toks : Tokens) → Except Stuck (Taken Nat toks.length)
  | ⟨.blockOpen, _⟩ :: ⟨.kwEnd, _⟩ :: rest => do
    let close ← closing [] rest
    return ⟨close.item, close.rest, by
      have := close.shorter
      simp only [List.length_cons]
      omega⟩
  | toks => .error ⟨toks, [.token .blockOpen]⟩

/-- What a conditional says after its keyword, and where it ends. -/
structure Branches where
  condition : Located Expr
  thenBranch : Body
  elseBranch : Body
  stop : Nat

mutual

/-- Reads a body up to the block that ends it, or to the end of the tokens. -/
def body (place : Place) (toks : Tokens) : Except Stuck (Taken Body (toks.length + 1)) :=
  match toks with
  | [] =>
    if place = .top then .ok ⟨.nil, [], Nat.lt_succ_self _⟩ else .error ⟨[], place.starts⟩
  | ⟨.text s, span⟩ :: rest => do
    let more ← body place rest
    return ⟨.text span s more.item, more.rest, by
      have := more.shorter
      simp only [List.length_cons]
      omega⟩
  | ⟨.outputOpen, span⟩ :: rest => do
    let t ← tag rest
    have := t.shorter
    let more ← body place t.rest
    return ⟨.output ⟨span.start, t.item.2⟩ t.item.1 more.item, more.rest, by
      have := more.shorter
      simp only [List.length_cons]
      omega⟩
  | ⟨.rawOpen, span⟩ :: rest => do
    let t ← tag rest
    have := t.shorter
    let more ← body place t.rest
    return ⟨.raw ⟨span.start, t.item.2⟩ t.item.1 more.item, more.rest, by
      have := more.shorter
      simp only [List.length_cons]
      omega⟩
  | ⟨.blockOpen, span⟩ :: ⟨.kwIf, _⟩ :: rest => do
    let c ← branches rest
    have := c.shorter
    let more ← body place c.rest
    return ⟨.conditional ⟨span.start, c.item.stop⟩ false c.item.condition c.item.thenBranch
        c.item.elseBranch more.item, more.rest, by
      have := more.shorter
      simp only [List.length_cons]
      omega⟩
  | ⟨.blockOpen, span⟩ :: ⟨.kwUnless, _⟩ :: rest => do
    let c ← branches rest
    have := c.shorter
    let more ← body place c.rest
    return ⟨.conditional ⟨span.start, c.item.stop⟩ true c.item.condition c.item.thenBranch
        c.item.elseBranch more.item, more.rest, by
      have := more.shorter
      simp only [List.length_cons]
      omega⟩
  | ⟨.blockOpen, span⟩ :: ⟨.kwElse, s⟩ :: rest =>
    if place = .thenBranch then
      .ok ⟨.nil, ⟨.blockOpen, span⟩ :: ⟨.kwElse, s⟩ :: rest, Nat.lt_succ_self _⟩
    else .error ⟨⟨.kwElse, s⟩ :: rest, place.keywords⟩
  | ⟨.blockOpen, span⟩ :: ⟨.kwEnd, s⟩ :: rest =>
    if place = .top then .error ⟨⟨.kwEnd, s⟩ :: rest, place.keywords⟩
    else .ok ⟨.nil, ⟨.blockOpen, span⟩ :: ⟨.kwEnd, s⟩ :: rest, Nat.lt_succ_self _⟩
  | ⟨.blockOpen, _⟩ :: rest => .error ⟨rest, place.keywords⟩
  | toks => .error ⟨toks, place.starts⟩
termination_by toks.length

/-- Reads a conditional from its condition to its end. -/
def branches (toks : Tokens) : Except Stuck (Taken Branches toks.length) := do
  let t ← tag toks
  have := t.shorter
  let first ← body .thenBranch t.rest
  have := first.shorter
  match h : first.rest with
  | ⟨.blockOpen, _⟩ :: ⟨.kwElse, _⟩ :: rest =>
    have : rest.length + 2 = first.rest.length := by simp [h]
    let mark ← closing [] rest
    have := mark.shorter
    let second ← body .elseBranch mark.rest
    have := second.shorter
    let close ← endBlock second.rest
    have := close.shorter
    return ⟨⟨t.item.1, first.item, second.item, close.item⟩, close.rest, by omega⟩
  | _ =>
    let close ← endBlock first.rest
    have := close.shorter
    return ⟨⟨t.item.1, first.item, .nil, close.item⟩, close.rest, by omega⟩
termination_by toks.length

end

end Reader

end Stencil
