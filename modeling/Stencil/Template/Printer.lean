import Stencil.Template.Body
import Stencil.Template.Lexeme

/-!
# Printing templates

The source of a template from its tree. An empty comment keeps adjacent texts apart, and the second
branch of a conditional is left out if it is empty. A well-formed tree is one that its source
describes.
-/

namespace Stencil

/-- The source of an operand. -/
def Operand.source : Operand → List Char
  | .path root steps => root.toList ++ steps.flatMap fun name => '.' :: name.toList
  | .str s => '"' :: Quoted.encode s.toList ++ ['"']
  | .int n => (toString n).toList

/-- The source of operands, with a comma and a blank between them. -/
def Operand.sources : List Operand → List Char
  | [] => []
  | [o] => o.source
  | o :: os => o.source ++ ',' :: ' ' :: sources os

/-- The source of an expression. -/
def Expr.source : Expr → List Char
  | .operand o => o.source
  | .call helper args => helper.toList ++ '(' :: Operand.sources args ++ [')']

/-- A tag, with a blank on either side of its body. -/
def TagForm.around (form : TagForm) (body : List Char) : List Char :=
  form.opener ++ ' ' :: body ++ ' ' :: form.closer

/-- The comment that keeps texts apart. -/
def emptyComment : List Char := ['{', '#', '#', '}']

namespace Body

/-- Whether the first node is a text. -/
def startsWithText : Body → Bool
  | .text .. => true
  | _ => false

/-- The source of a body. -/
def source : Body → List Char
  | .nil => []
  | .text _ s rest =>
    s.toList ++ (if rest.startsWithText then emptyComment else []) ++ rest.source
  | .output _ e rest => TagForm.output.around e.item.source ++ rest.source
  | .raw _ e rest => TagForm.raw.around e.item.source ++ rest.source
  | .conditional _ negated e thenBranch elseBranch rest =>
    let keyword := if negated then "unless " else "if "
    let alternative := match elseBranch with
      | .nil => []
      | b => TagForm.block.around "else".toList ++ b.source
    TagForm.block.around (keyword.toList ++ e.item.source) ++ thenBranch.source ++ alternative ++
      TagForm.block.around "end".toList ++ rest.source

end Body

/-- Whether a text is an identifier. The keywords are none. -/
def isIdentifier (name : String) : Bool :=
  match name.toList with
  | [] => false
  | c :: cs =>
    Lexeme.isIdentStart c && cs.all Lexeme.isIdentPart && Lexeme.word (c :: cs) == .ident name

/-- Whether a tag or a comment is opened somewhere in the characters. -/
def hasOpener : List Char → Bool
  | '{' :: c :: cs => c = '{' || c = '%' || c = '#' || hasOpener (c :: cs)
  | _ :: cs => hasOpener cs
  | [] => false

/-- An operand that its source describes. -/
def Operand.WellFormed : Operand → Prop
  | .path root steps => isIdentifier root ∧ ∀ name ∈ steps, isIdentifier name
  | .str _ => True
  | .int n => Word.holdsInt n

/-- An expression that its source describes. -/
def Expr.WellFormed : Expr → Prop
  | .operand o => o.WellFormed
  | .call helper args => isIdentifier helper ∧ ∀ o ∈ args, o.WellFormed

/-- A text that its source describes: it opens no tag, and a brace may end it only if nothing follows
that would make an opening with it. -/
structure PlainText (isLast : Bool) (s : String) : Prop where
  nonempty : s ≠ ""
  opens_nothing : hasOpener s.toList = false
  no_brace : isLast = false → s.toList.getLast? ≠ some '{'

/-- A body that its source describes; `isLast` tells whether the template ends with it. -/
def Body.WellFormed (isLast : Bool) : Body → Prop
  | .nil => True
  | .text _ s rest => PlainText (isLast && rest == .nil) s ∧ rest.WellFormed isLast
  | .output _ e rest | .raw _ e rest => e.item.WellFormed ∧ rest.WellFormed isLast
  | .conditional _ _ e thenBranch elseBranch rest =>
    e.item.WellFormed ∧ thenBranch.WellFormed false ∧ elseBranch.WellFormed false ∧
      rest.WellFormed isLast

end Stencil
