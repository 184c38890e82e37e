/-!
# Coloured text

A piece of a report is drawn in a colour by the control sequences of a terminal.
-/

namespace Stencil.Style

/-- The colours of a report: of the error, of the frame, of the gutter below the source line, and of
the source itself. -/
inductive Colour where
  | error
  | frame
  | gutter
  | source
  deriving DecidableEq, Repr

/-- The parameters of the sequence that selects a colour. -/
def Colour.code : Colour → String
  | .error => "31"
  | .frame => "38;5;246"
  | .gutter => "38;5;240"
  | .source => "38;5;249"

/-- A text drawn in a colour. -/
def paint (c : Colour) (s : String) : String := "\x1b[" ++ c.code ++ "m" ++ s ++ "\x1b[0m"

/-- The same text several times. -/
def repeated (n : Nat) (s : String) : String := String.join (List.replicate n s)

end Stencil.Style
