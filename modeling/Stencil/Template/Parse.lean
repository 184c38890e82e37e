import Stencil.Template.Lexeme
import Stencil.Template.Reader

/-!
# Parsing templates

From the source of a template to its body, or to the one error that the source has first.
-/

namespace Stencil

/-- The first place at which a source is no template: the token found there, or none at the end of the
input, and what could have stood there. -/
structure SyntaxError where
  span : Span
  found : Option Token
  expected : List Expectation
  deriving DecidableEq, Inhabited, Repr

namespace SyntaxError

/-- What is wrong. -/
def message (e : SyntaxError) : String :=
  "Unexpected " ++ ((e.found.map Token.describe).getD "end of input")

/-- What could have stood there, in words. -/
def expectations (e : SyntaxError) : List String := e.expected.map Expectation.describe

/-- What is wrong, with its place. -/
def text (e : SyntaxError) : String :=
  "Parse error at " ++ toString e.span.start ++ ".." ++ toString e.span.stop ++ ": " ++ e.message

/-- The error for reading that stopped. At the end of the input it lies between the end of a source of
`size` bytes and the end of the last token. -/
def ofStuck (size : Nat) (toks : Reader.Tokens) (s : Reader.Stuck) : SyntaxError :=
  match s.rest with
  | ⟨t, span⟩ :: _ => ⟨span, some t, s.expected⟩
  | [] => ⟨⟨size, (toks.getLast?.map (·.span.stop)).getD size⟩, none, s.expected⟩

end SyntaxError

/-- The body that a source describes. -/
def parse (source : String) : Except SyntaxError Body :=
  let toks := tokenize source
  match Reader.body .top toks with
  | .ok taken => .ok taken.item
  | .error s => .error (.ofStuck (Text.byteLength source.toList) toks s)

end Stencil
