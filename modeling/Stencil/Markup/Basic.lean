import Stencil.Markup.Escape
import Stencil.Text.Blank

/-!
# Markup and output

Markup is text that is printed as it stands. A text becomes markup by being escaped or by being
trusted, and an output collects markup, escaped text and raw text in the order of writing.
-/

namespace Stencil

/-- Text that is printed without being escaped. -/
structure Markup where
  html : String := ""
  deriving DecidableEq, Inhabited, Repr

namespace Markup

/-- The markup that shows a text. -/
def ofText (text : String) : Markup := ⟨escape text⟩

/-- The text that markup shows. -/
def toText (m : Markup) : String := unescape m.html

/-- Whether the markup is empty. -/
def isEmpty (m : Markup) : Bool := m.html.isEmpty

/-- Whether nothing but white space is in the markup. -/
def isBlank (m : Markup) : Bool := Text.isBlank m.html

/-- Pieces of markup after one another. -/
def join (pieces : List Markup) : Markup := ⟨String.join (pieces.map Markup.html)⟩

end Markup

/-- What has been written so far. -/
structure Output where
  html : String := ""
  deriving DecidableEq, Inhabited, Repr

namespace Output

/-- Writes a text, escaped. -/
def text (out : Output) (s : String) : Output := ⟨out.html ++ escape s⟩

/-- Writes markup. -/
def markup (out : Output) (m : Markup) : Output := ⟨out.html ++ m.html⟩

/-- Writes a text as it stands. -/
def raw (out : Output) (s : String) : Output := ⟨out.html ++ s⟩

/-- Whether nothing has been written. -/
def isEmpty (out : Output) : Bool := out.html.isEmpty

/-- The markup that has been written. -/
def toMarkup (out : Output) : Markup := ⟨out.html⟩

end Output

end Stencil
