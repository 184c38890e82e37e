import Stencil.Proofs.Joining.Closed
import Stencil.Proofs.Printing.Stray
import Stencil.Proofs.Scanning.Patterns

/-!
# Tags and comments are found by a scan that respects strings

The end of a tag is its first mark outside of strings, and that of a comment the first mark that ends
one. Main statements: `first_eq_iff_isFound`, by which the lexer finds the tags and comments that such
a scan finds, and `isLongest_of_isFound` and `isLongest_opener`, by which these are the longest matches
of the patterns.
-/

namespace Stencil

open Segment

/-- What a scan that respects strings finds at the front of a source: a tag or a comment with `rest`
behind it. A tag in double braces is one in triple braces if it can be. -/
def Segment.IsFound (rest : List Char) : Segment → Prop
  | .tag .output body =>
    IsBody '}' body ∧ ∀ inside more, body = '{' :: inside → rest ≠ '}' :: more
  | .tag form body => IsBody form.mark body
  | .comment body => ¬ ['#', '}'] <:+: body
  | .text _ | .unclosed _ _ => False

/-- A scan that respects strings finds nothing at the front of a source. -/
def FindsNothing (cs : List Char) : Prop :=
  ∀ (s : Segment) (rest : List Char), s.IsFound rest → cs ≠ s.chars ++ rest

variable {c : Char} {cs ds o body inside rest more : List Char} {s t : Segment} {form : TagForm}

/-! ### The scan and the lexer -/

/-- The search for the end of a tag steps over a body. -/
theorem IsBody.body_append (h : IsBody form.mark inside) (rest : List Char) :
    Segment.body form.mark (inside ++ form.mark :: rest) = (inside, form.mark :: rest) := by
  obtain ⟨ps, hps, rfl⟩ := h
  exact (steps_flatMap_append form.isQuote_mark hps rest).2

/-- A body goes on behind a character that opens nothing. -/
theorem IsBody.of_cons (hq : isQuote c = false) (h : IsBody form.mark (c :: inside)) :
    IsBody form.mark inside := by
  obtain ⟨ps, hps, hbody⟩ := h
  cases ps with
  | nil => cases hbody
  | cons p ps =>
    obtain ⟨hp, hothers⟩ := List.forall_mem_cons.1 hps
    cases p with
    | char d =>
      obtain ⟨-, rfl⟩ := List.cons.inj hbody
      exact ⟨ps, hothers, rfl⟩
    | string q more =>
      obtain ⟨rfl, -⟩ := List.cons.inj hbody
      cases hq.symm.trans hp.1

/-- What the scan finds begins with a brace, and is the first segment. -/
theorem first_of_isFound (h : s.IsFound rest) :
    ∃ cs, s.chars ++ rest = '{' :: cs ∧ first '{' cs = (s, rest) := by
  cases s with
  | text | unclosed => exact h.elim
  | comment body =>
    refine ⟨'#' :: (body ++ ['#', '}'] ++ rest), rfl, ?_⟩
    show afterHash (body ++ ['#', '}'] ++ rest) = _
    rw [afterHash, List.append_assoc, List.cons_append, List.singleton_append,
      comment?_of_noMark h]
  | tag form body =>
    cases form with
    | raw =>
      have hbody : IsBody TagForm.raw.mark body := h
      refine ⟨'{' :: '{' :: (body ++ ['}', '}', '}'] ++ rest), rfl, afterRawBraces_eq_raw ?_⟩
      rw [List.append_assoc]
      exact hbody.body_append _
    | block =>
      have hbody : IsBody TagForm.block.mark body := h
      refine ⟨'%' :: (body ++ ['%', '}'] ++ rest), rfl, afterPercent_eq_block ?_⟩
      rw [List.append_assoc]
      exact hbody.body_append _
    | output =>
      have hbody : IsBody TagForm.output.mark body := h.1
      refine ⟨'{' :: (body ++ ['}', '}'] ++ rest), rfl, ?_⟩
      rw [List.append_assoc]
      -- A body that begins with a brace is behind three braces.
      by_cases hbrace : ∃ inside, body = '{' :: inside
      · obtain ⟨inside, rfl⟩ := hbrace
        refine afterRawBraces_eq_output ?_ (h.2 inside · rfl)
        exact (hbody.of_cons rfl).body_append _
      · have hfound := afterBraces_eq_output (hbody.body_append ('}' :: rest))
        cases body with
        | nil => exact hfound
        | cons d body =>
          have hd : d ≠ '{' := fun e => hbrace ⟨body, by rw [e]⟩
          exact (first_braces hd _).trans hfound

/-- A tag or a comment that is the first segment is what the scan finds. -/
theorem isFound_of_first (h : first c cs = (s, rest)) (hs : s.isClosed = true) : s.IsFound rest := by
  cases s with
  | text | unclosed => cases hs
  | comment body =>
    unfold first afterRawBraces afterBraces afterPercent afterHash at h
    repeat' split at h
    all_goals cases h
    rename_i hcomment
    exact noMark_of_comment? hcomment
  | tag form body =>
    have hbody := isBody_of_first h
    cases form with
    | raw | block => exact hbody
    | output =>
      refine ⟨hbody, ?_⟩
      rintro inside more rfl
      exact rest_ne_brace_of_first h more

/-- The lexer finds a tag or a comment where the scan does, and it ends there. -/
theorem first_eq_iff_isFound (hs : s.isClosed = true) :
    first c cs = (s, rest) ↔ s.IsFound rest ∧ c :: cs = s.chars ++ rest := by
  constructor
  · intro h
    refine ⟨isFound_of_first h hs, ?_⟩
    rw [← first_append c cs, h]
  · rintro ⟨h, hchars⟩
    obtain ⟨ds, hds, hfirst⟩ := first_of_isFound h
    obtain ⟨rfl, rfl⟩ := List.cons.inj (hchars.trans hds)
    exact hfirst

/-- The scan finds one thing at most. -/
theorem Segment.IsFound.unique (hs : s.IsFound rest) (ht : t.IsFound more)
    (h : s.chars ++ rest = t.chars ++ more) : s = t ∧ rest = more := by
  obtain ⟨cs, hcs, hfirst⟩ := first_of_isFound hs
  obtain ⟨ds, hds, hfirst'⟩ := first_of_isFound ht
  obtain ⟨-, rfl⟩ := List.cons.inj (hcs.symm.trans (h.trans hds))
  exact Prod.mk.inj (hfirst.symm.trans hfirst')

/-- Where the lexer finds no tag and no comment, the scan finds nothing. -/
theorem findsNothing_iff : FindsNothing (c :: cs) ↔ (first c cs).1.isClosed = false := by
  rw [← Bool.not_eq_true]
  constructor
  · intro h hclosed
    exact h _ _ (isFound_of_first rfl hclosed) (first_append c cs).symm
  · rintro h s rest hs hchars
    have hclosed : s.isClosed = true := by
      cases s with
      | text | unclosed => exact hs.elim
      | comment | tag => rfl
    rw [(first_eq_iff_isFound hclosed).2 ⟨hs, hchars⟩] at h
    exact h hclosed

/-! ### Openings without an end -/

open Pattern (openers)

/-- An opening is a brace with one of three signs behind it. -/
theorem exists_cons_of_opener (ho : o ∈ openers) (h : o <+: c :: cs) :
    ∃ d ds, c = '{' ∧ cs = d :: ds ∧ o = ['{', d] ∧ (d = '{' ∨ d = '%' ∨ d = '#') := by
  obtain ⟨ds, hds⟩ := h
  simp only [openers, List.mem_cons, List.not_mem_nil, or_false] at ho
  rcases ho with rfl | rfl | rfl
  all_goals
    cases hds
    exact ⟨_, ds, rfl, rfl, rfl, by simp⟩

/-- An opening for which the scan finds no end is reported, if it is none of those that can be text. -/
theorem first_eq_unclosed (ho : o ∈ openers) (h : o <+: c :: cs) (hnothing : FindsNothing (c :: cs))
    (hstray : ∀ u ∈ strayOpenings, ¬ u <+: c :: cs) :
    ∃ inside rest, first c cs = (.unclosed o inside, rest) := by
  obtain ⟨d, ds, rfl, rfl, rfl, hd⟩ := exists_cons_of_opener ho h
  obtain ⟨s, rest, hfirst⟩ : ∃ s rest, first '{' (d :: ds) = (s, rest) := ⟨_, _, rfl⟩
  have hopen := findsNothing_iff.1 hnothing
  have hchars := first_append '{' (d :: ds)
  rw [hfirst] at hopen hchars
  cases s with
  | comment | tag => cases hopen
  | text as =>
    obtain ⟨u, hu, hprefix⟩ := stray_of_first hd hfirst
    exact (hstray u hu hprefix).elim
  | unclosed opener inside =>
    -- The opening that is reported is the one with which the source begins.
    have hopener : opener ∈ openers := unclosed_of_first (congrArg Prod.fst hfirst)
    have hprefix : opener <+: '{' :: d :: ds := by
      rw [← hchars, Segment.chars, List.append_assoc]
      exact List.prefix_append _ _
    obtain ⟨_, _, -, hcons, rfl, -⟩ := exists_cons_of_opener hopener hprefix
    obtain ⟨rfl, -⟩ := List.cons.inj hcons
    exact ⟨inside, rest, hfirst⟩

/-- Three braces that are never closed are text. -/
theorem exists_afterRawBraces_eq_text (h : (afterRawBraces cs).1.isClosed = false) :
    ∃ as rest, afterRawBraces cs = (.text as, rest) := by
  obtain ⟨inside, rest, hbody⟩ : ∃ inside rest, Segment.body '}' cs = (inside, rest) := ⟨_, _, rfl⟩
  refine ⟨_, rest, afterRawBraces_eq_text hbody ?_⟩
  rintro r rfl
  by_cases hraw : ∃ r', r = '}' :: r'
  · obtain ⟨r', rfl⟩ := hraw
    rw [afterRawBraces_eq_raw hbody] at h
    cases h
  · rw [afterRawBraces_eq_output hbody fun r' e => hraw ⟨r', e⟩] at h
    cases h

/-- An opening that can be text is text if the scan finds no end for it. -/
theorem first_eq_text_of_stray {u : List Char} (hu : u ∈ strayOpenings) (h : u <+: c :: cs)
    (hnothing : FindsNothing (c :: cs)) : ∃ as rest, first c cs = (.text as, rest) := by
  obtain ⟨ds, hds⟩ := h
  simp only [strayOpenings, List.mem_cons, List.not_mem_nil, or_false] at hu
  rcases hu with rfl | rfl | rfl
  all_goals
    obtain ⟨rfl, rfl⟩ := List.cons.inj hds
  · exact exists_afterRawBraces_eq_text (findsNothing_iff.1 hnothing)
  · have hne : ∀ r, ds ≠ '}' :: r := by
      rintro r rfl
      have hempty : (tag .output []).IsFound r := by
        refine ⟨isBody_nil _, ?_⟩
        rintro inside more ⟨⟩
      exact hnothing _ r hempty rfl
    exact ⟨_, _, afterBraces_eq_text hne⟩
  · have hne : ∀ r, ds ≠ '}' :: r := by
      rintro r rfl
      have hempty : (tag .block []).IsFound r := isBody_nil _
      exact hnothing _ r hempty rfl
    exact ⟨_, _, afterPercent_eq_text hne⟩

/-- A brace that opens nothing is text. -/
theorem first_eq_brace (h : ∀ o ∈ openers, ¬ o <+: '{' :: cs) :
    first '{' cs = (.text ['{'], cs) := by
  refine first_brace ?_
  cases cs with
  | nil => rfl
  | cons d ds =>
    have hne : ∀ e, ['{', e] ∈ openers → d ≠ e := by
      rintro e he rfl
      exact h _ he (List.prefix_append ['{', d] ds)
    simp [hasOpener, hne '{' (by decide), hne '%' (by decide), hne '#' (by decide)]

/-! ### Longest matches -/

/-- The pattern of a tag or a comment. -/
def Segment.pattern : Segment → Pattern
  | .tag form _ => .tag form
  | .comment _ => .comment
  | .unclosed _ _ => .opener
  | .text _ => .text

/-- A pattern matches the first characters of a source, and any other match is shorter. -/
structure Pattern.IsLongest (p : Pattern) (cs source : List Char) : Prop where
  mem : cs ∈ p.language
  isPrefix : cs <+: source
  longest : ∀ (q : Pattern) (ds : List Char), ds ∈ q.language → ds <+: source →
    ds.length < cs.length ∨ q = p ∧ ds = cs

/-- What the scan finds is matched by its pattern. -/
theorem Segment.IsFound.mem_language (h : s.IsFound rest) : s.chars ∈ s.pattern.language := by
  cases s with
  | text | unclosed => exact h.elim
  | comment body => exact Pattern.mem_comments.2 ⟨body, h, rfl⟩
  | tag form body =>
    refine Pattern.mem_language_tag.2 ⟨body, ?_, rfl⟩
    cases form with
    | raw | block => exact h
    | output => exact h.1

/-- What the scan finds is longer than an opening. -/
theorem Segment.IsFound.length_lt (h : s.IsFound rest) : 2 < s.chars.length := by
  cases s with
  | text | unclosed => exact h.elim
  | comment body => simp [Segment.chars]
  | tag form body => cases form <;> simp [Segment.chars, TagForm.opener, TagForm.closer]

/-- Where the pattern of a tag matches, the scan finds the tag, or one that is longer. -/
theorem IsBody.exists_isFound (h : IsBody form.mark body) (rest : List Char) :
    ∃ (t : Segment) (more : List Char), t.IsFound more ∧
      (tag form body).chars ++ rest = t.chars ++ more ∧
      ((tag form body).chars.length < t.chars.length ∨ t = tag form body) := by
  cases form with
  | raw => exact ⟨.tag .raw body, rest, h, rfl, .inr rfl⟩
  | block => exact ⟨.tag .block body, rest, h, rfl, .inr rfl⟩
  | output =>
    by_cases hraw : ∃ inside more, body = '{' :: inside ∧ rest = '}' :: more
    · obtain ⟨inside, more, rfl, rfl⟩ := hraw
      have hinside : IsBody TagForm.output.mark inside := h.of_cons rfl
      refine ⟨.tag .raw inside, more, hinside, ?_, .inl ?_⟩
      · simp [Segment.chars, TagForm.opener, TagForm.closer]
      · simp [Segment.chars, TagForm.opener, TagForm.closer]
    · have hfound : (tag .output body).IsFound rest :=
        ⟨h, fun inside more hbody hrest => hraw ⟨inside, more, hbody, hrest⟩⟩
      exact ⟨.tag .output body, rest, hfound, rfl, .inr rfl⟩

/-- What patterns match in front of a brace: an opening, the brace, or what the scan finds or what is
shorter than that. -/
theorem Pattern.match_cases {p : Pattern} (hp : ds ∈ p.language) (h : ds <+: '{' :: cs) :
    (p = .opener ∧ ds ∈ openers) ∨ (p = .brace ∧ ds = ['{']) ∨
      ∃ (t : Segment) (more : List Char), t.IsFound more ∧ '{' :: cs = t.chars ++ more ∧
        (ds.length < t.chars.length ∨ p = t.pattern ∧ ds = t.chars) := by
  obtain ⟨rest, hrest⟩ := h
  cases p with
  | text =>
    obtain ⟨c, _, hc, -, rfl⟩ := mem_oneOf_mul.1 hp
    exact absurd (List.cons.inj hrest).1 hc
  | opener => exact .inl ⟨rfl, hp⟩
  | brace => exact .inr (.inl ⟨rfl, hp⟩)
  | comment =>
    obtain ⟨body, hbody, rfl⟩ := mem_comments.1 hp
    exact .inr (.inr ⟨.comment body, rest, hbody, hrest.symm, .inr ⟨rfl, rfl⟩⟩)
  | tag form =>
    obtain ⟨body, hbody, rfl⟩ := mem_language_tag.1 hp
    obtain ⟨t, more, ht, hchars, hlength⟩ := hbody.exists_isFound rest
    refine .inr (.inr ⟨t, more, ht, hrest.symm.trans hchars, hlength.imp_right ?_⟩)
    rintro rfl
    exact ⟨rfl, rfl⟩

/-- An opening has two characters. -/
theorem length_of_opener (ho : o ∈ openers) : o.length = 2 := by
  simp only [openers, List.mem_cons, List.not_mem_nil, or_false] at ho
  rcases ho with rfl | rfl | rfl <;> rfl

/-- What the scan finds begins with an opening. -/
theorem Segment.IsFound.exists_opener (h : s.IsFound rest) : ∃ o ∈ openers, o <+: s.chars := by
  cases s with
  | text | unclosed => exact h.elim
  | comment body => exact ⟨['{', '#'], by simp [openers], List.prefix_append ['{', '#'] _⟩
  | tag form body =>
    cases form with
    | output => exact ⟨['{', '{'], by simp [openers], List.prefix_append ['{', '{'] _⟩
    | raw => exact ⟨['{', '{'], by simp [openers], List.prefix_append ['{', '{'] _⟩
    | block => exact ⟨['{', '%'], by simp [openers], List.prefix_append ['{', '%'] _⟩

/-- What the scan finds is the longest match of the patterns. -/
theorem isLongest_of_isFound (h : s.IsFound rest) :
    s.pattern.IsLongest s.chars (s.chars ++ rest) := by
  refine ⟨h.mem_language, List.prefix_append _ _, fun q ds hds hprefix => ?_⟩
  have hlong := h.length_lt
  obtain ⟨cs, hcs, -⟩ := first_of_isFound h
  rcases Pattern.match_cases hds (hcs ▸ hprefix) with
    ⟨-, ho⟩ | ⟨-, rfl⟩ | ⟨t, more, ht, hchars, hlength⟩
  · exact .inl ((length_of_opener ho).trans_lt hlong)
  · exact .inl (Nat.lt_trans Nat.one_lt_two hlong)
  · obtain ⟨rfl, -⟩ := ht.unique h (hchars.symm.trans hcs.symm)
    exact hlength

/-- Where the scan finds nothing, an opening is the longest match of the patterns. -/
theorem isLongest_opener (ho : o ∈ openers) (h : o <+: c :: cs) (hnothing : FindsNothing (c :: cs)) :
    Pattern.opener.IsLongest o (c :: cs) := by
  refine ⟨ho, h, fun q ds hds hprefix => ?_⟩
  have hlength := length_of_opener ho
  obtain ⟨_, _, rfl, -⟩ := exists_cons_of_opener ho h
  rcases Pattern.match_cases hds hprefix with ⟨rfl, ho'⟩ | ⟨-, rfl⟩ | ⟨t, more, ht, hchars, -⟩
  · have hsame := (length_of_opener ho').trans hlength.symm
    exact .inr ⟨rfl, (List.prefix_of_prefix_length_le hprefix h hsame.le).eq_of_length hsame⟩
  · exact .inl (hlength ▸ Nat.one_lt_two)
  · exact (hnothing t more ht hchars).elim

/-- A brace that opens nothing is the longest match of the patterns. -/
theorem isLongest_brace (h : ∀ o ∈ openers, ¬ o <+: '{' :: cs) :
    Pattern.brace.IsLongest ['{'] ('{' :: cs) := by
  refine ⟨rfl, List.prefix_append ['{'] cs, fun q ds hds hprefix => ?_⟩
  rcases Pattern.match_cases hds hprefix with ⟨-, ho⟩ | hbrace | ⟨t, more, ht, hchars, -⟩
  · exact (h ds ho hprefix).elim
  · exact .inr hbrace
  · obtain ⟨o, ho, hopener⟩ := ht.exists_opener
    exact (h o ho (hchars ▸ hopener.trans (List.prefix_append _ _))).elim

end Stencil
