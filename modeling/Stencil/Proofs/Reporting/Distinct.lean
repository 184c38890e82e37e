import Mathlib.Algebra.GroupWithZero.Nat
import Mathlib.Algebra.Order.BigOperators.Group.List
import Mathlib.Data.String.Basic
import Stencil.Proofs.Reporting.Places

/-!
# Reports tell places apart

A report is a text, but where it points can be read from it: the number of the line and the column from
the heading, and how far the place goes from the colours of the line and from the row of marks.
Main statements: `heading_append_inj`, `stop_le_of_marking_eq`, and `label_eq_of_render_eq`, by which the
report on a place is that for no other offsets that go at least as far.
-/

namespace Stencil.Report

open Style

section Cancelling

variable {c : Char} {cs ds us vs : List Char}

/-- What stands in front of a character for the first time can be read off. -/
theorem append_cons_inj (hcs : c ∉ cs) (hds : c ∉ ds) (h : cs ++ c :: us = ds ++ c :: vs) :
    cs = ds ∧ us = vs := by
  induction cs generalizing ds with
  | nil =>
    cases ds with
    | nil => exact ⟨rfl, (List.cons.inj h).2⟩
    | cons d ds => exact absurd (List.cons.inj h).1 fun heq => hds (heq ▸ List.mem_cons_self)
  | cons b cs ih =>
    cases ds with
    | nil => exact absurd (List.cons.inj h).1 fun heq => hcs (heq ▸ List.mem_cons_self)
    | cons d ds =>
      obtain ⟨rfl, htail⟩ := List.cons.inj h
      rw [List.mem_cons, not_or] at hcs hds
      obtain ⟨rfl, rfl⟩ := ih hcs.2 hds.2 htail
      exact ⟨rfl, rfl⟩

/-- What stands in front of a text can be read off if the text begins with a character that does not
occur in it. -/
theorem append_append_inj {s t w u v : String} (hw : w.toList = c :: cs) (hs : c ∉ s.toList)
    (ht : c ∉ t.toList) (h : s ++ (w ++ u) = t ++ (w ++ v)) : s = t ∧ u = v := by
  have hlist := congrArg String.toList h
  simp only [String.toList_append, hw, List.cons_append] at hlist
  obtain rfl : s = t := String.toList_injective (append_cons_inj hs ht hlist).1
  exact ⟨rfl, (String.append_right_inj _).1 ((String.append_right_inj _).1 h)⟩

/-- A number can be read off in front of what does not begin with a digit. -/
theorem number_append_inj {m n : Nat} {w u v : String} (hw : w.toList = c :: cs)
    (hc : c.isDigit = false) (h : toString m ++ (w ++ u) = toString n ++ (w ++ v)) :
    m = n ∧ u = v := by
  have hdigits : ∀ k : Nat, c ∉ (toString k).toList := by
    intro k hmem
    have hdigit := Nat.isDigit_of_mem_toDigits (by decide) (by decide) (Nat.toList_repr ▸ hmem)
    rw [hc] at hdigit
    cases hdigit
  have hvalue : ∀ k : Nat, Nat.ofDigitChars 10 (toString k).toList 0 = k := fun k =>
    (congrArg (Nat.ofDigitChars 10 · 0) Nat.toList_repr).trans Nat.ofDigitChars_ten_toDigits
  obtain ⟨hnumber, hrest⟩ := append_append_inj hw (hdigits m) (hdigits n) h
  exact ⟨by rw [← hvalue m, hnumber, hvalue], hrest⟩

end Cancelling

section Drawing

/-- A text that is drawn begins with the sequence for its colour. -/
theorem toList_paint (colour : Colour) (s : String) :
    (paint colour s).toList =
      '\x1b' :: '[' :: (colour.code.toList ++ 'm' :: (s.toList ++ ['\x1b', '[', '0', 'm'])) := by
  simp [paint]

/-- A text that is written once more. -/
theorem repeated_succ (n : Nat) (s : String) : repeated (n + 1) s = s ++ repeated n s := by
  simp [repeated, List.replicate_succ]

/-- The same character several times. -/
theorem toList_repeated_blank (n : Nat) : (repeated n " ").toList = List.replicate n ' ' := by
  induction n with
  | zero => rfl
  | succ n ih =>
    rw [repeated_succ, String.toList_append, ih]
    rfl

/-- The length of a text that is written several times. -/
theorem length_repeated (n : Nat) (s : String) : (repeated n s).length = n * s.length := by
  induction n with
  | zero => simp [repeated]
  | succ n ih =>
    rw [repeated_succ, String.length_append, ih, Nat.succ_mul, Nat.add_comm]

/-- A cell fills a number of cells with texts of the same length. -/
theorem Cell.length_over {cell : Cell} {k : Nat} (hfirst : cell.first.length = k)
    (hrest : cell.rest.length = k) (n : Nat) : (cell.over n).length = n * k := by
  cases n with
  | zero => simp [Cell.over]
  | succ n =>
    rw [Cell.over, String.length_append, length_repeated, hfirst, hrest, Nat.succ_mul, Nat.add_comm]

end Drawing

section Frames

variable {origin : String} {label other : Label} {line : Line} {u v : String}

/-- Blanks as wide as the number of a line. -/
def indent (number : Nat) : String := repeated (toString number).length " "

/-- The blanks in front of the top of a frame. -/
def margin (number : Nat) : String := indent number ++ "  "

/-- The top of a frame, with the number of the line and the column. -/
def heading (number : Nat) (origin : String) (column : Nat) : String :=
  margin number ++ (paint .frame "╭" ++ (paint .frame "─" ++ (paint .frame "[" ++ (origin ++
    (":" ++ (toString number ++ (":" ++ (toString column ++ (paint .frame "]" ++ ("\n" ++
      (margin number ++ (paint .frame "│" ++ "\n"))))))))))))

/-- The gutter of a row below the line. -/
def gutter (number : Nat) : String := " " ++ (paint .gutter (indent number ++ " │") ++ " ")

/-- The line with the marks below it, in a frame. -/
def marking (label : Label) (line : Line) : String :=
  if line.stop < label.stop then gutter line.number ++ "\n"
  else
    " " ++ (paint .frame (toString line.number ++ " │") ++ (" " ++ (sourceRow label line ++ ("\n" ++
      (gutter line.number ++ (row (markCell label) label line ++ ("\n" ++
        (gutter line.number ++ (row (arrowCell label) label line ++ (" " ++
          (label.text ++ "\n")))))))))))

/-- The bottom of a frame. -/
def closing (number : Nat) : String :=
  paint .frame (repeated ((toString number).length + 2) "─" ++ "╯") ++ "\n"

/-- A frame is its top, the line with its marks, and its bottom. -/
theorem frame_eq (origin : String) (label : Label) (line : Line) :
    frame origin label line = heading line.number origin (label.start + 1 - line.start) ++
      (marking label line ++ closing line.number) := by
  simp only [frame, heading, marking, closing, gutter, margin, indent, String.append_assoc]

/-- The number of the line and the column can be read off the top of a frame. -/
theorem heading_append_inj {m n k l : Nat}
    (h : heading m origin k ++ u = heading n origin l ++ v) : m = n ∧ k = l ∧ u = v := by
  have hmargin : ∀ number, '\x1b' ∉ (margin number).toList := by
    intro number
    rw [margin, String.toList_append, indent, toList_repeated_blank]
    simp
  have hcolon : ":".toList = [':'] := rfl
  simp only [heading, String.append_assoc] at h
  obtain ⟨-, h⟩ := append_append_inj (toList_paint _ _) (hmargin m) (hmargin n) h
  simp only [String.append_right_inj] at h
  obtain ⟨rfl, h⟩ := number_append_inj hcolon rfl h
  obtain ⟨rfl, h⟩ := number_append_inj (toList_paint _ _) rfl h
  simp only [String.append_right_inj] at h
  exact ⟨rfl, rfl, h⟩

end Frames

section Marks

variable {label other : Label} {line : Line} {u v : String}

/-- A blank that is drawn fills a cell at least. -/
theorem width_pos {c : Char} (h : Text.isBlankChar c = true) (column : Nat) : 0 < width column c := by
  rw [width]
  split_ifs
  · omega
  · exact Nat.one_pos

/-- The colour of a character. -/
def colour (label : Label) (offset : Nat) : Colour := if label.holds offset then .error else .source

/-- What is drawn for a character begins with the sequence for its colour. -/
theorem exists_glyph (label : Label) (offset column : Nat) (c : Char) :
    ∃ rest, glyph label offset column c =
      "\x1b[" ++ ((colour label offset).code ++ ("m" ++ rest)) := by
  have hpaint : ∀ (k : Colour) (s t : String), paint k s ++ t =
      "\x1b[" ++ (k.code ++ ("m" ++ (s ++ "\x1b[0m" ++ t))) := by
    intro k s t
    simp only [paint, String.append_assoc]
  change ∃ rest, (if Text.isBlankChar c then
    repeated (width column c) (paint (colour label offset) " ") else
      paint (colour label offset) c.toString) = _
  split_ifs with hblank
  · obtain ⟨n, hn⟩ := Nat.exists_eq_add_one.2 (width_pos hblank column)
    rw [hn, repeated_succ, hpaint]
    exact ⟨_, rfl⟩
  · have hwhole := hpaint (colour label offset) c.toString ""
    rw [String.append_empty] at hwhole
    exact ⟨_, hwhole⟩

/-- The code of a colour tells whether the label holds the character. -/
theorem holds_eq_of_code_append {offset : Nat}
    (h : (colour label offset).code ++ ("m" ++ u) = (colour other offset).code ++ ("m" ++ v)) :
    label.holds offset = other.holds offset := by
  rw [colour, colour] at h
  cases hlabel : label.holds offset with
  | true =>
    cases hother : other.holds offset with
    | true => rfl
    | false =>
      have hlist := congrArg String.toList h
      simp [hlabel, hother, Colour.code] at hlist
  | false =>
    cases hother : other.holds offset with
    | true =>
      have hlist := congrArg String.toList h
      simp [hlabel, hother, Colour.code] at hlist
    | false => rfl

/-- A line is drawn as what stands in front of a column, the character in it, and what stands behind. -/
theorem sourceRow_eq {front back : List Char} {c : Char} (h : line.shown = front ++ c :: back)
    (label : Label) :
    sourceRow label line =
      String.join (front.zipIdx.map fun x => glyph label (line.start + x.2) x.2 x.1) ++
        (glyph label (line.start + front.length) front.length c ++
          String.join ((back.zipIdx (front.length + 1)).map fun x =>
            glyph label (line.start + x.2) x.2 x.1)) := by
  rw [sourceRow, h, List.zipIdx_append, List.map_append, String.join_append, List.zipIdx_cons,
    List.map_cons, String.join_cons, Nat.zero_add]

/-- Two labels under which the line is drawn alike hold the same character in a column if they do in the
columns before. -/
theorem holds_of_sourceRow_eq {n : Nat} (hn : n < line.shown.length)
    (hagree : ∀ column < n, label.holds (line.start + column) = other.holds (line.start + column))
    (h : sourceRow label line ++ u = sourceRow other line ++ v) :
    label.holds (line.start + n) = other.holds (line.start + n) := by
  obtain ⟨front, c, back, hshown, rfl⟩ :
      ∃ front c back, line.shown = front ++ c :: back ∧ front.length = n :=
    ⟨line.shown.take n, line.shown[n], line.shown.drop (n + 1),
      by rw [← List.drop_eq_getElem_cons hn, List.take_append_drop], List.length_take_of_le hn.le⟩
  have hfront : (front.zipIdx.map fun x => glyph label (line.start + x.2) x.2 x.1) =
      front.zipIdx.map fun x => glyph other (line.start + x.2) x.2 x.1 := by
    refine List.map_congr_left fun x hx => ?_
    rw [glyph, glyph, hagree x.2 (List.snd_lt_of_mem_zipIdx hx)]
  obtain ⟨rest, hrest⟩ := exists_glyph label (line.start + front.length) front.length c
  obtain ⟨rest', hrest'⟩ := exists_glyph other (line.start + front.length) front.length c
  rw [sourceRow_eq hshown, sourceRow_eq hshown, hfront, hrest, hrest'] at h
  simp only [String.append_assoc, String.append_right_inj] at h
  exact holds_eq_of_code_append h

/-- The row of marks is as long as its cells, those under the place being longer. -/
theorem length_row_markCell (hsome : label.start < label.stop) :
    (row (markCell label) label line).length =
      ((List.range (label.stop + 2 - line.start)).map fun column =>
        ((line.shown[column]?).map (width column)).getD 1 *
          if label.holds (line.start + column) then 10 else 1).sum := by
  have hheld : label.holds label.middle = true := by
    rw [Label.holds, Label.middle, Bool.and_eq_true, decide_eq_true_eq, decide_eq_true_eq]
    omega
  have hcell : ∀ offset, (markCell label offset).first.length =
      (if label.holds offset then 10 else 1) ∧
      (markCell label offset).rest.length = if label.holds offset then 10 else 1 := by
    intro offset
    rw [markCell]
    by_cases hmiddle : offset = label.middle
    · rw [if_pos hmiddle, hmiddle, hheld]
      exact ⟨by decide, by decide⟩
    · rw [if_neg hmiddle]
      cases label.holds offset with
      | true => exact ⟨by decide, by decide⟩
      | false => exact ⟨by decide, by decide⟩
  rw [row, String.length_join, List.map_map]
  congr 1
  refine List.map_congr_left fun column _ => ?_
  exact Cell.length_over (hcell _).1 (hcell _).2 _

/-- The row of marks is longer for a label that goes on behind the end of what is drawn. -/
theorem length_row_lt {n : Nat} (hstart : other.start = label.start) (hsome : label.start < label.stop)
    (hstop : label.stop < other.stop) (hn : line.start + n = label.stop)
    (hshown : line.shown.length ≤ n) :
    (row (markCell label) label line).length < (row (markCell other) other line).length := by
  rw [length_row_markCell hsome, length_row_markCell (by omega)]
  have hmore : other.stop + 2 - line.start =
      (label.stop + 2 - line.start) + (other.stop - label.stop) := by omega
  rw [hmore, List.range_add, List.map_append, List.sum_append]
  refine Nat.lt_add_right _ (List.sum_lt_sum _ _ (fun column _ => ?_) ⟨n, ?_, ?_⟩)
  · -- What the shorter label holds is held by the longer one as well.
    have hholds : label.holds (line.start + column) = true →
        other.holds (line.start + column) = true := by
      simp only [Label.holds, Bool.and_eq_true, decide_eq_true_eq]
      omega
    refine Nat.mul_le_mul_left _ ?_
    split_ifs with hlabel hother
    · exact le_rfl
    · exact absurd (hholds hlabel) hother
    · decide
    · exact le_rfl
  · rw [List.mem_range]
    omega
  · have hother : other.holds (line.start + n) = true := by
      rw [Label.holds, Bool.and_eq_true, decide_eq_true_eq, decide_eq_true_eq]
      omega
    have hlabel : label.holds (line.start + n) = false := by
      rw [Label.holds, Bool.and_eq_false_iff, decide_eq_false_iff_not, decide_eq_false_iff_not]
      omega
    rw [List.getElem?_eq_none hshown, hother, hlabel]
    simp

/-- The row of marks is one line. -/
theorem newline_notMem_row (label : Label) (line : Line) :
    '\n' ∉ (row (markCell label) label line).toList := by
  have hcell : ∀ offset, '\n' ∉ (markCell label offset).first.toList ∧
      '\n' ∉ (markCell label offset).rest.toList := by
    intro offset
    rw [markCell]
    split_ifs
    · exact ⟨by decide, by decide⟩
    · exact ⟨by decide, by decide⟩
    · exact ⟨by decide, by decide⟩
    · exact ⟨by decide, by decide⟩
  have hover : ∀ (cell : Cell) (n : Nat), '\n' ∉ cell.first.toList → '\n' ∉ cell.rest.toList →
      '\n' ∉ (cell.over n).toList := by
    intro cell n hfirst hrest
    cases n with
    | zero => simp [Cell.over]
    | succ n =>
      rw [Cell.over, String.toList_append, List.mem_append, not_or, repeated, String.toList_join]
      refine ⟨hfirst, fun hmem => ?_⟩
      obtain ⟨cs, hcs, hmem⟩ := List.mem_flatMap.1 hmem
      rw [List.eq_of_mem_replicate hcs] at hmem
      exact hrest hmem
  rw [row, String.toList_join]
  intro hmem
  obtain ⟨s, hs, hmem⟩ := List.mem_flatMap.1 hmem
  obtain ⟨column, -, rfl⟩ := List.mem_map.1 hs
  exact hover _ _ (hcell _).1 (hcell _).2 hmem

/-- A label that ends behind another one in the same line is drawn otherwise. -/
theorem stop_le_of_marking_eq (hstart : other.start = label.start) (hline : line.start ≤ label.start)
    (hsome : label.start < label.stop) (hwithin : label.stop ≤ line.stop)
    (h : marking other line ++ u = marking label line ++ v) : other.stop ≤ label.stop := by
  by_contra hlt
  rw [marking, marking, if_neg (Nat.not_lt.2 hwithin)] at h
  by_cases hbeyond : line.stop < other.stop
  · -- The label reaches into the next line, and the line is not drawn at all.
    rw [if_pos hbeyond] at h
    simp only [gutter, paint, String.append_assoc, String.append_right_inj] at h
    have hlist := congrArg String.toList h
    simp [Colour.code] at hlist
  rw [if_neg hbeyond] at h
  simp only [String.append_assoc, String.append_right_inj] at h
  obtain ⟨n, hn⟩ : ∃ n, line.start + n = label.stop := ⟨label.stop - line.start, by omega⟩
  have hagree : ∀ column < n,
      other.holds (line.start + column) = label.holds (line.start + column) := by
    intro column hcolumn
    have hbefore : line.start + column < label.stop := by omega
    have hbefore' : line.start + column < other.stop := by omega
    simp only [Label.holds, hstart, hbefore, hbefore']
  have hother : other.holds (line.start + n) = true := by
    rw [Label.holds, Bool.and_eq_true, decide_eq_true_eq, decide_eq_true_eq]
    omega
  have hlabel : label.holds (line.start + n) = false := by
    rw [Label.holds, Bool.and_eq_false_iff, decide_eq_false_iff_not, decide_eq_false_iff_not]
    omega
  by_cases hshown : n < line.shown.length
  · -- The character behind the shorter label is drawn in two colours.
    have hsame := holds_of_sourceRow_eq hshown hagree h
    rw [hother, hlabel] at hsame
    cases hsame
  · -- It is a blank at the end of the line, and only the marks below tell the labels apart.
    have hsource : sourceRow other line = sourceRow label line := by
      rw [sourceRow, sourceRow]
      refine congrArg String.join (List.map_congr_left fun x hx => ?_)
      have hcolumn : x.2 < n := by
        have hlt := List.snd_lt_of_mem_zipIdx hx
        omega
      simp only [glyph, hagree x.2 hcolumn]
    rw [hsource] at h
    simp only [String.append_right_inj] at h
    have hnewline : "\n".toList = ['\n'] := rfl
    obtain ⟨hrow, -⟩ := append_append_inj hnewline (newline_notMem_row other line)
      (newline_notMem_row label line) h
    have hlength := congrArg String.length hrow
    exact absurd hlength.symm (length_row_lt hstart hsome (by omega) hn (by omega)).ne

end Marks

section Places

variable {p : Place} {source : List Char} {origin message : String} {expected : List String}

/-- The line at an offset is one of the lines, and it begins at or before the offset. -/
theorem exists_of_lineAt?_eq_some {offset number start : Nat} {lines : List (List Char)} {line : Line}
    (h : lineAt? offset number start lines = some line) :
    line.start ≤ offset ∧ ∃ earlier later, lines = earlier ++ line.chars :: later ∧
      line.number = number + earlier.length ∧ line.start = start + earlier.flatten.length := by
  induction lines generalizing number start with
  | nil => cases h
  | cons cs lines ih =>
    rw [lineAt?] at h
    split_ifs at h with hstart
    rcases Option.or_eq_some_iff.1 h with hlater | ⟨-, hthis⟩
    · obtain ⟨hoffset, earlier, later, rfl, hnumber, hbegin⟩ := ih hlater
      refine ⟨hoffset, cs :: earlier, later, rfl, ?_, ?_⟩
      · rw [hnumber, List.length_cons]
        omega
      · rw [hbegin, List.flatten_cons, List.length_append]
        omega
    · cases hthis
      exact ⟨hstart, [], lines, rfl, rfl, rfl⟩

/-- The report on a place is that for no other offsets that go at least as far. -/
theorem label_eq_of_render_eq (hp : p.LiesIn source) (hmarked : p.marked ≠ []) {start stop : Nat}
    (hstop : (p.label message expected).stop ≤ stop)
    (h : render origin source ⟨start, stop, message, expected⟩ =
      render origin source (p.label message expected)) :
    start = (p.label message expected).start ∧ stop = (p.label message expected).stop := by
  obtain ⟨hbegin, hend⟩ := label_offsets p message expected
  have hsome : 0 < p.marked.length := List.length_pos_iff.2 hmarked
  have hline := p.length_line
  rw [render_label_eq_frame hp hmarked, render] at h
  simp only [String.append_right_inj] at h
  have hframe : ∀ label line, frame origin label line ≠ "" := by
    intro label line hempty
    have hlist := congrArg String.toList hempty
    simp [frame_eq, closing] at hlist
  -- There is a frame, so that a line is found for the offsets.
  split_ifs at h with hbeyond
  · exact absurd h.symm (hframe _ _)
  cases hfound : lineAt? start 1 0 (Text.lines source) with
  | none =>
    rw [hfound] at h
    exact absurd h.symm (hframe _ _)
  | some line =>
    rw [hfound, Option.map_some, Option.getD_some, frame_eq, frame_eq] at h
    obtain ⟨hnumber, hcolumn, hmarking⟩ := heading_append_inj h
    obtain ⟨hoffset, earlier, later, hlines, hcount, hfirst⟩ := exists_of_lineAt?_eq_some hfound
    -- It has the number of the line of the place, so that it is the same one.
    rw [hp] at hlines
    have hlength : p.earlier.length = earlier.length := by
      rw [hcount, Place.toLine] at hnumber
      simp only at hnumber
      omega
    obtain ⟨rfl, hrest⟩ := List.append_inj hlines hlength
    obtain rfl : line = p.toLine := by
      obtain ⟨number, first, chars⟩ := line
      rw [Place.toLine, Line.mk.injEq]
      exact ⟨hnumber, hfirst.trans (Nat.zero_add _), (List.cons.inj hrest).1.symm⟩
    have hfront : p.toLine.start ≤ (p.label message expected).start := by
      rw [p.start_toLine]
      omega
    have hstart : start = (p.label message expected).start := by
      have hsame : start + 1 - p.toLine.start =
          (p.label message expected).start + 1 - p.toLine.start := hcolumn
      omega
    have hwithin : (p.label message expected).stop ≤ p.toLine.stop := by
      rw [p.stop_toLine]
      omega
    exact ⟨hstart, Nat.le_antisymm
      (stop_le_of_marking_eq hstart hfront (by omega) hwithin hmarking) hstop⟩

end Places

end Stencil.Report
