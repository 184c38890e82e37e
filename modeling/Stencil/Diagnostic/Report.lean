import Stencil.Diagnostic.Style
import Stencil.Message
import Stencil.Text.Blank
import Stencil.Text.Lines
import Stencil.Text.Width

/-!
# Reports

An error of a template, shown with the line in which it lies: the place is marked under the line and
an arrow leads from it to the message. Offsets count characters here, and each character has a column
of cells below it: two for a wide one, and none for a mark on the character before it.
-/

namespace Stencil.Report

open Style

/-- What is marked in a source: the characters from `start` up to `stop`. -/
structure Label where
  start : Nat
  stop : Nat
  message : String
  expected : List String

/-- A line of a source: its number, the offset of its first character, and its characters with the
break that ends it. -/
structure Line where
  number : Nat
  start : Nat
  chars : List Char

/-- The offset behind a line. -/
def Line.stop (l : Line) : Nat := l.start + l.chars.length

/-- The characters of a line that are drawn: those before the blanks at its end. -/
def Line.shown (l : Line) : List Char := Text.trimEnd l.chars

/-- The last line that begins at or before an offset. -/
def lineAt? (offset : Nat) : Nat → Nat → List (List Char) → Option Line
  | _, _, [] => none
  | number, start, cs :: rest =>
    if start ≤ offset then
      (lineAt? offset (number + 1) (start + cs.length) rest).or (some ⟨number, start, cs⟩)
    else none

/-- Whether an offset is marked. -/
def Label.holds (l : Label) (offset : Nat) : Bool := l.start ≤ offset && offset < l.stop

/-- The offset from which the arrow leads. -/
def Label.middle (l : Label) : Nat := max ((l.start + l.stop) / 2) l.start

/-- The number of cells that the character in column `column` takes. A tab ends at a multiple of four
columns, and any other blank is drawn as a space. -/
def width (column : Nat) (c : Char) : Nat :=
  if c = '\t' then 4 - column % 4
  else if Text.isBlankChar c then 1
  else Text.charWidth c

/-- A character of the source as it is drawn: a blank fills its cells with spaces. -/
def glyph (label : Label) (offset column : Nat) (c : Char) : String :=
  let colour := if label.holds offset then Colour.error else .source
  if Text.isBlankChar c then repeated (width column c) (paint colour " ")
  else paint colour c.toString

/-- The line as it is drawn. -/
def sourceRow (label : Label) (line : Line) : String :=
  String.join <| line.shown.zipIdx.map fun (c, column) =>
    glyph label (line.start + column) column c

/-- What is drawn in a column below the line: the first cell, and the cell that repeats under the rest
of a tab or of a wide character. -/
structure Cell where
  first : String
  rest : String

/-- A cell that is drawn alike throughout. -/
def Cell.plain (s : String) : Cell := ⟨s, s⟩

/-- The cell that marks a column. -/
def markCell (label : Label) (offset : Nat) : Cell :=
  if offset = label.middle then
    if label.holds offset then ⟨paint .error "┬", paint .error "─"⟩
    else ⟨paint .error "│", paint .error " "⟩
  else if label.holds offset then .plain (paint .error "─")
  else .plain " "

/-- The cell of the arrow in a column. -/
def arrowCell (label : Label) (offset : Nat) : Cell :=
  if offset = label.middle then ⟨paint .error "╰", paint .error "─"⟩
  else if label.middle < offset then .plain (paint .error "─")
  else .plain " "

/-- A cell drawn over a number of cells. -/
def Cell.over (c : Cell) : Nat → String
  | 0 => ""
  | n + 1 => c.first ++ repeated n c.rest

/-- A row below the line, up to two columns behind what is marked. -/
def row (cell : Nat → Cell) (label : Label) (line : Line) : String :=
  String.join <| (List.range (label.stop + 2 - line.start)).map fun column =>
    (cell (line.start + column)).over (((line.shown[column]?).map (width column)).getD 1)

/-- The text at the end of the arrow. -/
def Label.text (l : Label) : String :=
  l.message ++ if l.expected = [] then "" else "\nExpected: " ++ ", ".intercalate l.expected

/-- The frame below the headline: where the error lies, the line and the marks. -/
def frame (origin : String) (label : Label) (line : Line) : String :=
  let number := toString line.number
  let indent := repeated number.length " "
  let gutter := " " ++ paint .gutter (indent ++ " │") ++ " "
  let place := ":" ++ number ++ ":" ++ toString (label.start + 1 - line.start)
  let marks :=
    if line.stop < label.stop then gutter ++ "\n"
    else
      " " ++ paint .frame (number ++ " │") ++ " " ++ sourceRow label line ++ "\n" ++
        gutter ++ row (markCell label) label line ++ "\n" ++
        gutter ++ row (arrowCell label) label line ++ " " ++ label.text ++ "\n"
  indent ++ "  " ++ paint .frame "╭" ++ paint .frame "─" ++ paint .frame "[" ++ origin ++ place ++
    paint .frame "]" ++ "\n" ++
    indent ++ "  " ++ paint .frame "│" ++ "\n" ++ marks ++
    paint .frame (repeated (number.length + 2) "─" ++ "╯") ++ "\n"

/-- A report on a source. Without a line to show, or with a mark beyond the source, it is only the
headline. -/
def render (origin : String) (source : List Char) (label : Label) : String :=
  let headline := paint .error "Error:" ++ " " ++ label.message ++ "\n"
  let beyond :=
    source.length < label.start || (label.start < label.stop && source.length < label.stop - 1)
  headline ++
    if beyond then ""
    else ((lineAt? label.start 1 0 (Text.lines source)).map (frame origin label)).getD ""

end Stencil.Report

namespace Stencil

/-- What is marked for an error. -/
def SyntaxError.label (e : SyntaxError) : Report.Label :=
  ⟨e.span.start, e.span.stop, e.message, e.expectations⟩

/-- The long form of a failure: a report for an error of a template, and else the message. -/
def Failure.report : Failure → String
  | .malformed origin source e => Report.render origin source.toList e.label
  | f => f.message

end Stencil
