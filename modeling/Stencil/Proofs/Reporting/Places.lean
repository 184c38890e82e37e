import Mathlib.Tactic.SplitIfs
import Stencil.Diagnostic.Report

/-!
# Places in a source

A place is a part of one line of a source. It has offsets in characters and in bytes, and there is a
picture of it: the number of the line and the column of its first character, and the line with exactly
the place marked. Main statement: `render_label`, by which a report whose label has the offsets of a place
in characters is the picture of that place.
-/

namespace Stencil.Report

open Style

/-- A part of a line: the lines before, what stands in the line before the part, the part, what stands
behind it, and the lines after. -/
structure Place where
  earlier : List (List Char)
  before : List Char
  marked : List Char
  after : List Char
  later : List (List Char)

namespace Place

/-- The line of a place. -/
def line (p : Place) : List Char := p.before ++ p.marked ++ p.after

/-- The line of a place with its number and its offset in characters. -/
def toLine (p : Place) : Line := ⟨p.earlier.length + 1, p.earlier.flatten.length, p.line⟩

/-- The line begins behind the lines before it. -/
theorem start_toLine (p : Place) : p.toLine.start = p.earlier.flatten.length := rfl

/-- The line ends after its characters. -/
theorem stop_toLine (p : Place) : p.toLine.stop = p.earlier.flatten.length + p.line.length := rfl

/-- The length of a line is that of its parts. -/
theorem length_line (p : Place) :
    p.line.length = p.before.length + p.marked.length + p.after.length := by
  simp [line, Nat.add_assoc]

/-- The place is one in the source. -/
def LiesIn (p : Place) (source : List Char) : Prop :=
  Text.lines source = p.earlier ++ p.line :: p.later

/-- The bytes that a place takes in a source. -/
def span (p : Place) : Span :=
  ⟨Text.byteLength (p.earlier.flatten ++ p.before),
    Text.byteLength (p.earlier.flatten ++ p.before ++ p.marked)⟩

/-- The label that a place has in a source, whose offsets count characters. -/
def label (p : Place) (message : String) (expected : List String) : Label :=
  ⟨(p.earlier.flatten ++ p.before).length, (p.earlier.flatten ++ p.before ++ p.marked).length,
    message, expected⟩

/-! ### The picture of a place -/

/-- Whether the character in a column of the line belongs to the place. -/
def marks (p : Place) (column : Nat) : Bool :=
  p.before.length ≤ column && column < p.before.length + p.marked.length

/-- The column in the middle of the place. -/
def middle (p : Place) : Nat := p.before.length + p.marked.length / 2

/-- The characters of the line that are drawn: those before the blanks at its end. -/
def shown (p : Place) : List Char := Text.trimEnd p.line

/-- A character in a column, in the colour of errors if it belongs to the place. -/
def drawn (p : Place) (column : Nat) (c : Char) : String :=
  let colour := if p.marks column then Colour.error else .source
  if Text.isBlankChar c then repeated (width column c) (paint colour " ")
  else paint colour c.toString

/-- The line of a place as it is drawn. -/
def sourceRow (p : Place) : String :=
  String.join (p.shown.zipIdx.map fun (c, column) => p.drawn column c)

/-- The number of cells under a column: those of the character that is drawn there, and one where none
is. -/
def cells (p : Place) (column : Nat) : Nat := ((p.shown[column]?).map (width column)).getD 1

/-- The mark under a column: a line under the whole place, with a branch in its middle, and nothing
elsewhere. -/
def mark (p : Place) (column : Nat) : Cell :=
  if column = p.middle then ⟨paint .error "┬", paint .error "─"⟩
  else if p.marks column then .plain (paint .error "─")
  else .plain " "

/-- The arrow under the marks, from the middle of the place to the right. -/
def arrow (p : Place) (column : Nat) : Cell :=
  if column = p.middle then ⟨paint .error "╰", paint .error "─"⟩
  else if p.middle < column then .plain (paint .error "─")
  else .plain " "

/-- A row under the line, up to two columns behind the place. -/
def row (p : Place) (cell : Nat → Cell) : String :=
  String.join ((List.range (p.before.length + p.marked.length + 2)).map fun column =>
    (cell column).over (p.cells column))

/-- The picture of a place: the message, the origin with the number of the line and the column of the
place, the line, the marks under the place, and the arrow that leads to the message. -/
def picture (p : Place) (origin message : String) (expected : List String) : String :=
  let number := toString (p.earlier.length + 1)
  let indent := repeated number.length " "
  let gutter := " " ++ paint .gutter (indent ++ " │") ++ " "
  let text := message ++ if expected = [] then "" else "\nExpected: " ++ ", ".intercalate expected
  paint .error "Error:" ++ " " ++ message ++ "\n" ++
    (indent ++ "  " ++ paint .frame "╭" ++ paint .frame "─" ++ paint .frame "[" ++ origin ++
      (":" ++ number ++ ":" ++ toString (p.before.length + 1)) ++ paint .frame "]" ++ "\n" ++
      indent ++ "  " ++ paint .frame "│" ++ "\n" ++
      (" " ++ paint .frame (number ++ " │") ++ " " ++ p.sourceRow ++ "\n" ++
        gutter ++ p.row p.mark ++ "\n" ++
        gutter ++ p.row p.arrow ++ " " ++ text ++ "\n") ++
      paint .frame (repeated (number.length + 2) "─" ++ "╯") ++ "\n")

end Place

/-! ### The report on a place -/

section Reports

variable {p : Place} {source : List Char} {message : String} {expected : List String}

/-- The line at an offset within a line is that line. -/
theorem lineAt?_append {offset number start : Nat} {earlier later : List (List Char)} {line : List Char}
    (hstart : start + earlier.flatten.length ≤ offset)
    (hstop : offset < start + earlier.flatten.length + line.length) :
    lineAt? offset number start (earlier ++ line :: later) =
      some ⟨number + earlier.length, start + earlier.flatten.length, line⟩ := by
  -- The induction is on the lines before, and the search goes on past each that begins in front.
  induction earlier generalizing number start with
  | nil =>
    have hafter : lineAt? offset (number + 1) (start + line.length) later = none := by
      cases later with
      | nil => rfl
      | cons next later => rw [lineAt?, if_neg (by simpa using hstop)]
    rw [List.nil_append, lineAt?, if_pos (by simpa using hstart), hafter]
    rfl
  | cons cs earlier ih =>
    rw [List.flatten_cons, List.length_append] at hstart hstop
    rw [List.cons_append, lineAt?, if_pos (by omega), ih (by omega) (by omega)]
    simp only [Option.some_or, List.length_cons, List.flatten_cons, List.length_append]
    rw [Nat.add_assoc, Nat.add_assoc, Nat.add_comm 1]

/-- The offsets of a label are those of the line and the columns of the place. -/
theorem label_offsets (p : Place) (message : String) (expected : List String) :
    (p.label message expected).start =
      p.earlier.flatten.length + p.before.length ∧
    (p.label message expected).stop =
      p.earlier.flatten.length + (p.before.length + p.marked.length) := by
  simp [Place.label]

/-- The label holds the characters that belong to the place. -/
theorem holds_label (column : Nat) :
    (p.label message expected).holds (p.earlier.flatten.length + column) = p.marks column := by
  obtain ⟨hstart, hstop⟩ := label_offsets p message expected
  rw [Label.holds, hstart, hstop, Place.marks]
  simp

/-- The middle of the label is that of the place. -/
theorem middle_label :
    (p.label message expected).middle = p.earlier.flatten.length + p.middle := by
  obtain ⟨hstart, hstop⟩ := label_offsets p message expected
  rw [Label.middle, hstart, hstop, Place.middle]
  omega

/-- The length of a source is that of its lines. -/
theorem Place.LiesIn.length_eq (hp : p.LiesIn source) :
    source.length = p.earlier.flatten.length + p.line.length + p.later.flatten.length := by
  rw [← Text.flatten_lines source, hp]
  simp [Nat.add_assoc]

/-- A report whose label has the offsets of a place in characters shows the line of that place. -/
theorem render_label_eq_frame (hp : p.LiesIn source) (hmarked : p.marked ≠ []) (origin : String) :
    render origin source (p.label message expected) =
      paint .error "Error:" ++ " " ++ message ++ "\n" ++
        frame origin (p.label message expected) p.toLine := by
  obtain ⟨hstart, hstop⟩ := label_offsets p message expected
  have hsome : 0 < p.marked.length := List.length_pos_iff.2 hmarked
  have hlength := hp.length_eq
  have hline := p.length_line
  have hfound : lineAt? (p.label message expected).start 1 0 (Text.lines source) = some p.toLine := by
    rw [hp, lineAt?_append (by omega) (by omega), Nat.add_comm 1, Nat.zero_add]
    rfl
  have hbeyond : ¬ (source.length < (p.label message expected).start ∨
      (p.label message expected).start < (p.label message expected).stop ∧
        source.length < (p.label message expected).stop - 1) := by omega
  rw [render, hfound]
  simp only [Bool.or_eq_true, Bool.and_eq_true, decide_eq_true_eq, if_neg hbeyond, Option.map_some,
    Option.getD_some]
  rfl

/-- The line is drawn with the characters of the place in the colour of errors. -/
theorem sourceRow_label : sourceRow (p.label message expected) p.toLine = p.sourceRow := by
  have hglyph : ∀ (column : Nat) (c : Char),
      glyph (p.label message expected) (p.toLine.start + column) column c = p.drawn column c := by
    intro column c
    rw [glyph, Place.drawn, Place.toLine, holds_label]
  simp only [sourceRow, Place.sourceRow, hglyph]
  rfl

/-- A row goes up to two columns behind the place. -/
theorem row_label {cell cell' : Nat → Cell}
    (h : ∀ column, cell (p.earlier.flatten.length + column) = cell' column) :
    row cell (p.label message expected) p.toLine = p.row cell' := by
  have hcolumns : (p.label message expected).stop + 2 - p.toLine.start =
      p.before.length + p.marked.length + 2 := by
    rw [(label_offsets p message expected).2, p.start_toLine]
    omega
  have hcell : ∀ column, cell (p.toLine.start + column) = cell' column := h
  simp only [row, Place.row, hcolumns, hcell]
  rfl

/-- The middle of a place belongs to it. -/
theorem Place.marks_middle (hmarked : p.marked ≠ []) : p.marks p.middle = true := by
  have hhalf : p.marked.length / 2 < p.marked.length :=
    Nat.div_lt_self (List.length_pos_iff.2 hmarked) (by decide)
  simp [marks, middle, hhalf]

/-- The cell below a column marks it if it belongs to the place. -/
theorem markCell_label (hmarked : p.marked ≠ []) (column : Nat) :
    markCell (p.label message expected) (p.earlier.flatten.length + column) = p.mark column := by
  simp only [markCell, middle_label, holds_label, Nat.add_left_cancel_iff, Place.mark]
  split_ifs with hmiddle hmarks
  · rfl
  · exact absurd (hmiddle ▸ p.marks_middle hmarked) hmarks
  · rfl
  · rfl

/-- The arrow leads from the middle of the place. -/
theorem arrowCell_label (column : Nat) :
    arrowCell (p.label message expected) (p.earlier.flatten.length + column) = p.arrow column := by
  simp only [arrowCell, middle_label, Nat.add_left_cancel_iff, Nat.add_lt_add_iff_left, Place.arrow]

/-- A report whose label has the offsets of a place in characters is the picture of that place. -/
theorem render_label (hp : p.LiesIn source) (hmarked : p.marked ≠ []) (origin : String) :
    render origin source (p.label message expected) = p.picture origin message expected := by
  obtain ⟨hstart, hstop⟩ := label_offsets p message expected
  have hline := p.length_line
  have hcolumn : (p.label message expected).start + 1 - p.toLine.start = p.before.length + 1 := by
    rw [hstart, p.start_toLine]
    omega
  have hwithin : ¬ p.toLine.stop < (p.label message expected).stop := by
    rw [p.stop_toLine]
    omega
  rw [render_label_eq_frame hp hmarked]
  simp only [frame, if_neg hwithin, hcolumn, sourceRow_label, row_label (markCell_label hmarked),
    row_label arrowCell_label]
  rfl

end Reports

end Stencil.Report
