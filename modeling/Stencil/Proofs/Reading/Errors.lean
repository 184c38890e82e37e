import Stencil.Proofs.Reading.Stuck

/-!
# Syntax errors

A source that is no template is refused at its first token that cannot continue one, or at the end of
the input if there is no such token. Main statement: `refused_at_first_misfit`, which also says what
the error names as expected, and where its place is not what it ought to be: an error at the end of the
input is given a place that ends with the last token, and so runs backwards behind a comment.
-/

namespace Stencil

open Text

/-- The last part of the source is a comment. -/
def EndsWithComment (source : String) : Prop :=
  ∃ earlier body, Segment.split source.toList = earlier ++ [.comment body]

section Places

variable {source : String} {before : List (Located Token)} {t : Located Token}

/-- The lexemes of a source take as many bytes as the source. -/
theorem Lexeme.bytes_ofSource (source : String) :
    bytes (ofSource source.toList) = source.utf8ByteSize := by
  rw [bytes, flatMap_chars_ofSource, byteLength_toList]

/-- A token of a source lies within the source. -/
theorem bounds_of_mem_tokenize (h : t ∈ tokenize source) :
    t.span.start ≤ t.span.stop ∧ t.span.stop ≤ source.utf8ByteSize := by
  obtain ⟨-, hle, hstop⟩ := Lexeme.bounds_of_mem_locate h
  rw [Lexeme.bytes_ofSource, Nat.zero_add] at hstop
  exact ⟨hle, hstop⟩

/-- A segment that is no comment ends with a lexeme that has a token. -/
theorem Lexeme.exists_last_token {s : Segment} (h : ∀ body, s ≠ .comment body) :
    ∃ ls l tok, ofSegment s = ls ++ [l] ∧ l.token? = some tok := by
  cases s with
  | comment body => exact absurd rfl (h body)
  | text cs => exact ⟨[], _, _, rfl, rfl⟩
  | unclosed opener body => exact ⟨[], _, _, rfl, rfl⟩
  | tag form body => exact ⟨_, _, _, rfl, rfl⟩

/-- The last token of a source ends with the source, unless a comment does. -/
theorem stop_of_not_endsWithComment (h : ¬ EndsWithComment source)
    (ht : tokenize source = before ++ [t]) : t.span.stop = source.utf8ByteSize := by
  rcases List.eq_nil_or_concat (Segment.split source.toList) with hnil | ⟨earlier, s, hsplit⟩
  · rw [tokenize, Lexeme.ofSource, hnil] at ht
    simp [Lexeme.locate] at ht
  · rw [List.concat_eq_append] at hsplit
    have hs : ∀ body, s ≠ .comment body := by
      rintro body rfl
      exact h ⟨earlier, body, hsplit⟩
    obtain ⟨ls, l, tok, hlast, htok⟩ := Lexeme.exists_last_token hs
    have hsource : Lexeme.ofSource source.toList =
        (earlier.flatMap Lexeme.ofSegment ++ ls) ++ [l] := by
      simp [Lexeme.ofSource, hsplit, hlast]
    have hsize := Lexeme.bytes_ofSource source
    rw [tokenize, hsource, Lexeme.locate_append, Lexeme.locate_cons_some htok] at ht
    obtain ⟨-, hlocated⟩ := List.append_inj' ht rfl
    obtain ⟨rfl, -⟩ := List.cons.inj hlocated
    rw [hsource, Lexeme.bytes_append, Lexeme.bytes_cons, Lexeme.bytes_nil] at hsize
    dsimp only
    omega

/-- In front of a comment at its end, the tokens of a source have come to an end. -/
theorem stop_lt_of_endsWithComment (h : EndsWithComment source) (ht : t ∈ tokenize source) :
    t.span.stop < source.utf8ByteSize := by
  obtain ⟨earlier, body, hsplit⟩ := h
  have hsource : Lexeme.ofSource source.toList =
      earlier.flatMap Lexeme.ofSegment ++ [⟨none, (Segment.comment body).chars⟩] := by
    simp [Lexeme.ofSource, hsplit, Lexeme.ofSegment]
  have hsize := Lexeme.bytes_ofSource source
  rw [hsource, Lexeme.bytes_append, Lexeme.bytes_cons, Lexeme.bytes_nil] at hsize
  have hcomment : 0 < byteLength (Segment.comment body).chars :=
    byteLength_pos (List.cons_ne_nil _ _)
  rw [tokenize, hsource, Lexeme.locate_append, Lexeme.locate_cons_none rfl, Lexeme.locate,
    List.append_nil] at ht
  obtain ⟨-, -, hstop⟩ := Lexeme.bounds_of_mem_locate ht
  dsimp only at hsize
  omega

end Places

namespace SyntaxError

open Grammar

/-- The error of a source whose tokens are `before` and `after`: a template can begin with the former
and goes wrong at the latter. -/
structure Refuses (e : SyntaxError) (source : String) (before after : List (Located Token)) :
    Prop where
  tokens : tokenize source = before ++ after
  /-- Up to there a template can go on. -/
  viable : Viable before
  /-- What is named are the tokens with which it could go on from there. -/
  expected : ∀ t p, .token t ∈ e.expected ↔ t.isNamed = true ∧ Viable (before ++ [⟨t, p⟩])
  /-- The end of the input is named if the template could end there. -/
  endOfInput : .endOfInput ∈ e.expected ↔ ∃ b, Nodes before b
  /-- If there is a token, then the template cannot go on with it, and it has the place of the error. -/
  atToken : ∀ t us, after = t :: us → ¬ Viable (before ++ [t]) ∧ e.span = t.span ∧
    e.message = "Unexpected " ++ t.item.describe
  /-- If there is none, then the template cannot end, and the place is the end of the input, but for
  what the last token makes of it. -/
  atEnd : after = [] → (¬ ∃ b, Nodes before b) ∧ e.message = "Unexpected end of input" ∧
    e.span = ⟨source.utf8ByteSize,
      (before.getLast?.map (·.span.stop)).getD source.utf8ByteSize⟩

variable {source : String} {before after : List (Located Token)} {e : SyntaxError}

/-- Reading that stops where it has to gives the error that refuses the source. -/
theorem refuses_ofStuck {st : Reader.Stuck} {s : Progress}
    (htokens : tokenize source = before ++ st.rest) (hrun : Progress.run .start before = some s)
    (hhalts : Reader.Halts s st) :
    (ofStuck (byteLength source.toList) (tokenize source) st).Refuses source before st.rest := by
  have hends : s = .start ↔ ∃ b, Nodes before b := by
    rw [exists_nodes_iff_run, hrun, Option.some.injEq]
  have hexpected : (ofStuck (byteLength source.toList) (tokenize source) st).expected =
      st.expected := by
    unfold ofStuck
    split <;> rfl
  refine ⟨htokens, viable_iff_run.2 ⟨s, hrun⟩, ?_, ?_, ?_, ?_⟩
  · intro t p
    rw [hexpected, viable_append_iff hrun]
    exact hhalts.expected t
  · rw [hexpected, ← hends]
    exact hhalts.endOfInput
  · -- The token at which reading stops is one that cannot come next.
    rintro t us hrest
    refine ⟨?_, ?_, ?_⟩
    · rw [viable_append_iff hrun, hhalts.refused t us hrest]
      simp
    · rw [ofStuck, hrest]
    · rw [ofStuck, hrest]
      rfl
  · intro hrest
    refine ⟨fun h => hhalts.unfinished hrest (hends.2 h), ?_, ?_⟩
    · rw [ofStuck, hrest]
      rfl
    · rw [ofStuck, hrest, htokens, hrest, List.append_nil, byteLength_toList]

/-- At a token, the place of an error runs from left to right within the source. -/
theorem Refuses.span_at_token (h : e.Refuses source before after) (hafter : after ≠ []) :
    e.span.start ≤ e.span.stop ∧ e.span.stop ≤ source.utf8ByteSize := by
  obtain ⟨t, us, rfl⟩ := List.exists_cons_of_ne_nil hafter
  obtain ⟨-, hspan, -⟩ := h.atToken t us rfl
  have hmem : t ∈ tokenize source := by
    rw [h.tokens]
    simp
  rw [hspan]
  exact bounds_of_mem_tokenize hmem

/-- An error at the end of the input comes behind a token, with which its place ends. -/
theorem Refuses.exists_last (h : e.Refuses source before after) (hafter : after = []) :
    ∃ earlier t, tokenize source = earlier ++ [t] ∧
      e.span = ⟨source.utf8ByteSize, t.span.stop⟩ := by
  obtain ⟨hunfinished, -, hspan⟩ := h.atEnd hafter
  rcases List.eq_nil_or_concat before with rfl | ⟨earlier, t, hbefore⟩
  · exact absurd ⟨.nil, .nil⟩ hunfinished
  · rw [List.concat_eq_append] at hbefore
    refine ⟨earlier, t, ?_, ?_⟩
    · rw [h.tokens, hafter, List.append_nil, hbefore]
    · rw [hspan, hbefore]
      simp

/-- A source is refused at a token that cannot come next behind those in front of it. -/
theorem exists_parse_eq_error {t : Located Token} {p : Progress}
    (htokens : tokenize source = before ++ t :: after) (hrun : Progress.run .start before = some p)
    (hstep : p.step t.item = none) :
    ∃ e, parse source = .error e ∧ e.span = t.span ∧ e.found = some t.item := by
  have hnone : Progress.run .start (before ++ t :: after) = none := by
    simp [hrun, hstep]
  cases hparse : parse source with
  | ok b =>
    have hnodes := exists_nodes_iff_run.1 ⟨b, nodes_of_parse hparse⟩
    rw [htokens, hnone] at hnodes
    cases hnodes
  | error e =>
    rw [parse] at hparse
    cases hbody : Reader.body .top (tokenize source) with
    | ok taken =>
      rw [hbody] at hparse
      cases hparse
    | error st =>
      rw [hbody] at hparse
      cases hparse
      obtain ⟨earlier, s, hsplit, hs, hhalts⟩ := Reader.body_fails hbody
      -- Reading neither stops before the token, where it could go on, nor behind it.
      have hrest : st.rest = t :: after := by
        rw [htokens, List.append_eq_append_iff] at hsplit
        rcases hsplit with ⟨more, rfl, hmore⟩ | ⟨more, rfl, hmore⟩
        · cases more with
          | nil => exact hmore.symm
          | cons u more =>
            obtain ⟨rfl, -⟩ := List.cons.inj hmore
            simp [hrun, hstep] at hs
        · cases more with
          | nil => exact hmore
          | cons u more => simp [hs, hhalts.refused u _ hmore] at hrun
      refine ⟨_, rfl, ?_, ?_⟩
      · rw [ofStuck, hrest]
      · rw [ofStuck, hrest]

end SyntaxError

open Grammar in
/-- A source that is no template is refused with one error, at its first token that cannot continue a
template, or at the end of the input if it could be continued there. The error names the token, and
the tokens that could stand in its place. Its place is that of the token or the end of the input, except
that behind a comment an error at the end of the input ends where the last token does, before it
begins. -/
theorem refused_at_first_misfit (source : String) (e : SyntaxError) (h : parse source = .error e) :
    ∃ before after, e.Refuses source before after ∧
      (after ≠ [] → e.span.start ≤ e.span.stop ∧ e.span.stop ≤ source.utf8ByteSize) ∧
      (after = [] → ¬ EndsWithComment source →
        e.span = ⟨source.utf8ByteSize, source.utf8ByteSize⟩) ∧
      (after = [] → EndsWithComment source →
        e.span.start = source.utf8ByteSize ∧ e.span.stop < source.utf8ByteSize) := by
  rw [parse] at h
  cases hbody : Reader.body .top (tokenize source) with
  | ok taken =>
    rw [hbody] at h
    cases h
  | error st =>
    rw [hbody] at h
    cases h
    obtain ⟨before, s, htokens, hrun, hhalts⟩ := Reader.body_fails hbody
    have hrefuses := SyntaxError.refuses_ofStuck htokens hrun hhalts
    refine ⟨before, st.rest, hrefuses, hrefuses.span_at_token, ?_, ?_⟩
    · intro hrest hcomment
      obtain ⟨earlier, t, hlast, hspan⟩ := hrefuses.exists_last hrest
      rw [hspan, stop_of_not_endsWithComment hcomment hlast]
    · intro hrest hcomment
      obtain ⟨earlier, t, hlast, hspan⟩ := hrefuses.exists_last hrest
      have hmem : t ∈ tokenize source := by
        rw [hlast]
        simp
      rw [hspan]
      exact ⟨rfl, stop_lt_of_endsWithComment hcomment hmem⟩

/-- Behind a conditional without an end stands a comment, and the place of the error begins behind it.
-/
theorem parse_conditional_then_comment :
    parse "\x7b% if a %\x7d\x7b# c #\x7d" =
      .error ⟨⟨17, 10⟩, none, [.token .outputOpen, .token .rawOpen, .token .blockOpen]⟩ := by
  have tokens : tokenize "\x7b% if a %\x7d\x7b# c #\x7d" =
      [⟨.blockOpen, ⟨0, 2⟩⟩, ⟨.kwIf, ⟨3, 5⟩⟩, ⟨.ident "a", ⟨6, 7⟩⟩, ⟨.tagClose, ⟨8, 10⟩⟩] := by
    decide +kernel
  have condition : Reader.tag [⟨.ident "a", ⟨6, 7⟩⟩, ⟨.tagClose, ⟨8, 10⟩⟩] =
      .ok ⟨(⟨.operand (.path "a" []), ⟨6, 7⟩⟩, 10), [], by decide⟩ := by
    simp [Reader.tag, Reader.expression, Reader.operand, Reader.steps, Reader.closing, bind,
      Except.bind, pure, Except.pure]
  have stuck : Reader.body .top
      [⟨.blockOpen, ⟨0, 2⟩⟩, ⟨.kwIf, ⟨3, 5⟩⟩, ⟨.ident "a", ⟨6, 7⟩⟩, ⟨.tagClose, ⟨8, 10⟩⟩] =
      .error ⟨[], Reader.Place.thenBranch.starts⟩ := by
    simp [Reader.body, Reader.branches, condition, bind, Except.bind]
  rw [parse, tokens, stuck]
  rfl

/-- The place of an error does not always run from left to right. -/
theorem error_behind_comment_runs_backwards :
    ¬ ∀ (source : String) (e : SyntaxError), parse source = .error e →
      e.span.start ≤ e.span.stop ∧ e.span.stop ≤ source.utf8ByteSize := by
  intro h
  obtain ⟨hle, -⟩ := h _ _ parse_conditional_then_comment
  exact absurd hle (by decide)

/-- A sign that belongs to no template is refused by name where it stands, and a conditional without an
end behind the comment that follows it, at a place that ends before that comment. -/
theorem refused_at_sign_or_behind_comment :
    (∃ e before after, parse "\x7b\x7b a + b \x7d\x7d" = .error e ∧
      e.Refuses "\x7b\x7b a + b \x7d\x7d" before after ∧ after ≠ [] ∧ e.span = ⟨5, 6⟩ ∧
      e.message = "Unexpected '+'") ∧
    ∃ e before, parse "\x7b% if a %\x7d\x7b# c #\x7d" = .error e ∧
      e.Refuses "\x7b% if a %\x7d\x7b# c #\x7d" before [] ∧
      e.span.start = 17 ∧ e.span.stop < 17 := by
  constructor
  · have tokens : tokenize "\x7b\x7b a + b \x7d\x7d" =
        [⟨.outputOpen, ⟨0, 2⟩⟩, ⟨.ident "a", ⟨3, 4⟩⟩, ⟨.unknown "+", ⟨5, 6⟩⟩,
          ⟨.ident "b", ⟨7, 8⟩⟩, ⟨.tagClose, ⟨9, 11⟩⟩] := by
      decide +kernel
    have stuck : parse "\x7b\x7b a + b \x7d\x7d" =
        .error ⟨⟨5, 6⟩, some (.unknown "+"), [.token .parenOpen, .token .dot, .token .tagClose]⟩ := by
      rw [parse, tokens]
      simp [Reader.body, Reader.tag, Reader.expression, Reader.operand, Reader.steps,
        Reader.closing, bind, Except.bind, pure, Except.pure, SyntaxError.ofStuck,
        Reader.exprContinues]
    obtain ⟨before, after, hrefuses, -⟩ := refused_at_first_misfit _ _ stuck
    have hafter : after ≠ [] := by
      intro hend
      obtain ⟨-, hmessage, -⟩ := hrefuses.atEnd hend
      exact absurd hmessage (by decide +kernel)
    exact ⟨_, before, after, stuck, hrefuses, hafter, rfl, by decide +kernel⟩
  · obtain ⟨before, after, hrefuses, htoken, -, hcomment⟩ :=
      refused_at_first_misfit _ _ parse_conditional_then_comment
    have hends : EndsWithComment "\x7b% if a %\x7d\x7b# c #\x7d" :=
      ⟨[.tag .block " if a ".toList], " c ".toList, by decide +kernel⟩
    have hafter : after = [] := by
      refine Decidable.byContradiction fun hne => ?_
      exact absurd (htoken hne).1 (by decide)
    subst hafter
    exact ⟨_, before, parse_conditional_then_comment, hrefuses, hcomment rfl hends⟩

end Stencil
