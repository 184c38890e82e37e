import Stencil.Handler
import Stencil.Proofs.Reading.Errors
import Stencil.Proofs.Reporting.Distinct

/-!
# Reports and bytes

The span of a syntax error counts bytes, and the label of a report counts characters. The span is taken
for the label as it is, which is right as long as each character takes one byte. Main statements:
`render_span_eq_picture_iff` and `report_is_picture_iff_ascii`.
-/

namespace Stencil

namespace Text

variable {cs : List Char}

/-- Each character takes a byte at least. -/
theorem length_le_byteLength (cs : List Char) : cs.length ≤ byteLength cs := by
  induction cs with
  | nil => exact Nat.le_refl 0
  | cons c cs ih =>
    have hpos := c.utf8Size_pos
    rw [List.length_cons, byteLength]
    omega

/-- The characters are as many as the bytes that they take exactly if all of them are ASCII. -/
theorem byteLength_eq_length_iff : byteLength cs = cs.length ↔ ∀ c ∈ cs, c.toNat < 128 := by
  induction cs with
  | nil => simp [byteLength]
  | cons c cs ih =>
    have hpos := c.utf8Size_pos
    have hle := length_le_byteLength cs
    have hascii : c.utf8Size = 1 ↔ c.toNat < 128 := by
      rw [Char.utf8Size_eq_one_iff]
      exact Nat.lt_succ_iff.symm
    rw [List.forall_mem_cons, ← ih, ← hascii, byteLength, List.length_cons]
    omega

end Text

namespace Report

variable {p : Place} {source : List Char}

/-- A report whose label has the offsets of a place in bytes is the picture of that place exactly if
there are only ASCII characters up to the end of the place. -/
theorem render_span_eq_picture_iff (hp : p.LiesIn source) (hmarked : p.marked ≠ [])
    (origin message : String) (expected : List String) :
    render origin source ⟨p.span.start, p.span.stop, message, expected⟩ =
        p.picture origin message expected ↔
      ∀ c ∈ p.earlier.flatten ++ p.before ++ p.marked, c.toNat < 128 := by
  rw [← render_label hp hmarked, ← Text.byteLength_eq_length_iff]
  constructor
  · -- The offsets in bytes go at least as far as those in characters, and no others give the picture.
    intro h
    exact (label_eq_of_render_eq hp hmarked (Text.length_le_byteLength _) h).2
  · intro hstop
    have hstart : p.span.start = (p.label message expected).start := by
      have hbefore := Text.byteLength_eq_length_iff.2 fun c hc =>
        Text.byteLength_eq_length_iff.1 hstop c (List.mem_append_left _ hc)
      exact hbefore
    rw [hstart]
    exact congrArg (fun stop => render origin source ⟨_, stop, message, expected⟩) hstop

end Report

/-- The report on a source that is refused at a place of a single line shows that place, with the number
of its line, its column and its characters marked, if and only if there are only ASCII characters in the
source up to the end of the place. The report counts the bytes as characters: it is the picture of
whatever place the span is that of in characters. -/
theorem report_is_picture_iff_ascii {source : String} {e : SyntaxError} (he : parse source = .error e)
    (origin : String) {p : Report.Place} (hp : p.LiesIn source.toList) (hspan : p.span = e.span)
    (hmarked : p.marked ≠ []) :
    ∃ f, Handler.compileHtml source = .error f ∧
      ((f.withOrigin origin).report = p.picture origin e.message e.expectations ↔
        ∀ c ∈ p.earlier.flatten ++ p.before ++ p.marked, c.toNat < 128) ∧
      ∀ q : Report.Place, q.LiesIn source.toList → q.marked ≠ [] →
        q.label e.message e.expectations = e.label →
        (f.withOrigin origin).report = q.picture origin e.message e.expectations := by
  refine ⟨.malformed "" source e, ?_, ?_, fun q hq hsome hlabel => ?_⟩
  · rw [Handler.compileHtml, he]
  · have hiff := Report.render_span_eq_picture_iff hp hmarked origin e.message e.expectations
    rw [hspan] at hiff
    exact hiff
  · rw [← Report.render_label hq hsome, hlabel]
    rfl

/-- A sign that is refused in the second line. -/
def secondLinePlace : Report.Place :=
  ⟨["ok\n".toList], "\x7b\x7b ".toList, ['+'], " \x7d\x7d".toList, []⟩

/-- A sign that is refused behind a letter of two bytes. -/
def accentedPlace : Report.Place :=
  ⟨[], "é\x7b\x7b ".toList, ['+'], " \x7d\x7d".toList, []⟩

/-- A sign is refused where an expression is expected. -/
theorem exists_parse_sign {source text : String} {a b c d : Span}
    (h : tokenize source = [⟨.text text, a⟩, ⟨.outputOpen, b⟩, ⟨.unknown "+", c⟩, ⟨.tagClose, d⟩]) :
    ∃ e, parse source = .error e ∧ e.span = c := by
  have htokens : tokenize source =
      [⟨.text text, a⟩, ⟨.outputOpen, b⟩] ++ ⟨.unknown "+", c⟩ :: [⟨.tagClose, d⟩] := h
  obtain ⟨e, he, hspan, -⟩ := SyntaxError.exists_parse_eq_error htokens rfl rfl
  exact ⟨e, he, hspan⟩

/-- The report on a sign in the second line shows the place of the sign. -/
theorem report_is_picture_in_second_line :
    ∃ e f, parse "ok\n\x7b\x7b + \x7d\x7d" = .error e ∧
      Handler.compileHtml "ok\n\x7b\x7b + \x7d\x7d" = .error f ∧
      (f.withOrigin "page.html").report =
        secondLinePlace.picture "page.html" e.message e.expectations := by
  have tokens : tokenize "ok\n\x7b\x7b + \x7d\x7d" =
      [⟨.text "ok\n", ⟨0, 3⟩⟩, ⟨.outputOpen, ⟨3, 5⟩⟩, ⟨.unknown "+", ⟨6, 7⟩⟩, ⟨.tagClose, ⟨8, 10⟩⟩] := by
    decide +kernel
  have hplace : secondLinePlace.LiesIn "ok\n\x7b\x7b + \x7d\x7d".toList := by
    unfold Report.Place.LiesIn
    decide
  have hascii : ∀ c ∈ secondLinePlace.earlier.flatten ++ secondLinePlace.before ++
      secondLinePlace.marked, c.toNat < 128 := Text.byteLength_eq_length_iff.1 (by decide)
  obtain ⟨e, he, hspan⟩ := exists_parse_sign tokens
  have hbytes : secondLinePlace.span = e.span := hspan ▸ by decide
  obtain ⟨f, hf, hiff, -⟩ :=
    report_is_picture_iff_ascii he "page.html" hplace hbytes (List.cons_ne_nil _ _)
  exact ⟨e, f, he, hf, hiff.2 hascii⟩

/-- The report on a sign behind a letter of two bytes does not show the place of the sign. -/
theorem report_misses_place_behind_accent :
    ¬ ∀ (source : String) (e : SyntaxError) (origin : String) (p : Report.Place),
      parse source = .error e → p.LiesIn source.toList → p.span = e.span → p.marked ≠ [] →
      (Failure.malformed origin source e).report = p.picture origin e.message e.expectations := by
  intro h
  have tokens : tokenize "é\x7b\x7b + \x7d\x7d" =
      [⟨.text "é", ⟨0, 2⟩⟩, ⟨.outputOpen, ⟨2, 4⟩⟩, ⟨.unknown "+", ⟨5, 6⟩⟩, ⟨.tagClose, ⟨7, 9⟩⟩] := by
    decide +kernel
  have hplace : accentedPlace.LiesIn "é\x7b\x7b + \x7d\x7d".toList := by
    unfold Report.Place.LiesIn
    decide
  have hmarked : accentedPlace.marked ≠ [] := List.cons_ne_nil _ _
  obtain ⟨e, he, hspan⟩ := exists_parse_sign tokens
  have hbytes : accentedPlace.span = e.span := hspan ▸ by decide
  have hpicture := h _ e "page.html" accentedPlace he hplace hbytes hmarked
  rw [Failure.report, SyntaxError.label, ← hbytes,
    Report.render_span_eq_picture_iff hplace hmarked] at hpicture
  exact absurd (hpicture 'é' (by decide)) (by decide)

end Stencil
