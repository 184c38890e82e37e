/-!
# Tokens

The vocabulary of templates, and the places of its words in a source. An offset counts the bytes
before it.
-/

namespace Stencil

/-- The part of a source from the offset `start` up to the offset `stop`. -/
structure Span where
  start : Nat
  stop : Nat
  deriving DecidableEq, Inhabited, Repr

/-- Something found in a source, with its place. -/
structure Located (α : Type) where
  item : α
  span : Span
  deriving DecidableEq, Inhabited, Repr

/-- A token of a template. The keywords and signs occur only within tags, and text only outside. -/
inductive Token where
  | text (s : String)
  | outputOpen
  | rawOpen
  | blockOpen
  | tagClose
  | kwIf
  | kwUnless
  | kwElse
  | kwEnd
  | dot
  | comma
  | parenOpen
  | parenClose
  | ident (name : String)
  | str (s : String)
  | int (n : Int)
  | unknown (s : String)
  | unclosed (opener : String)
  deriving DecidableEq, Inhabited, Repr

/-- How a token is called in an error message. -/
def Token.describe : Token → String
  | .text _ => "template text"
  | .outputOpen => "'\x7b\x7b'"
  | .rawOpen => "'\x7b\x7b\x7b'"
  | .blockOpen => "'\x7b%'"
  | .tagClose => "end of tag"
  | .kwIf => "keyword 'if'"
  | .kwUnless => "keyword 'unless'"
  | .kwElse => "keyword 'else'"
  | .kwEnd => "keyword 'end'"
  | .dot => "'.'"
  | .comma => "','"
  | .parenOpen => "'('"
  | .parenClose => "')'"
  | .ident name => "identifier '" ++ name ++ "'"
  | .str s => "string \"" ++ s ++ "\""
  | .int n => "number " ++ toString n
  | .unknown s => "'" ++ s ++ "'"
  | .unclosed opener => "unclosed tag '" ++ opener ++ "'"

end Stencil
