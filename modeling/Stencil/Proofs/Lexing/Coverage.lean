import Stencil.Proofs.Lexing.Places
import Stencil.Proofs.Lexing.Spelling
import Stencil.Proofs.Printing.Parsed

/-!
# What tokens cover

The tokens of a source follow one another, each tag is complete, and what the tokens leave out are
comments outside of tags, and blanks in tags. Main statements: `exists_tagClose` and `exists_opener`,
by which tags are complete; `uncovered_cases`, on the bytes of lexemes without a token; and
`tokens_cover_source`, which puts all of it together.
-/

namespace Stencil

open Text

/-- The byte at the offset `i` is in a tag: behind the token that opens it, and before the first one
behind that token that closes a tag. -/
def InTag (ts : List (Located Token)) (i : Nat) : Prop :=
  ∃ before o inner c after, ts = before ++ o :: (inner ++ c :: after) ∧ o.item.isOpener = true ∧
    c.item = .tagClose ∧ (∀ t ∈ inner, t.item ≠ .tagClose) ∧ o.span.stop ≤ i ∧ i < c.span.start

/-- The byte at the offset `i` is part of a comment, which ends at the first mark that ends one, and
which no token touches. -/
def InComment (source : List Char) (ts : List (Located Token)) (i : Nat) : Prop :=
  ∃ span : Span, ∃ body, span.Shows source ('{' :: '#' :: body ++ ['#', '}']) ∧
    ¬ ['#', '}'] <:+: body ++ ['#'] ∧ span.start ≤ i ∧ i < span.stop ∧
    ∀ t ∈ ts, t.span.stop ≤ span.start ∨ span.stop ≤ t.span.start

/-- The byte at the offset `i` is a blank: a space, a tab, a line feed or a carriage return. -/
def IsBlankAt (source : List Char) (i : Nat) : Prop :=
  ∃ c ∈ [' ', '\t', '\n', '\r'], Span.Shows ⟨i, i + 1⟩ source [c]

namespace Lexeme

variable {start i : Nat} {segments : List Segment} {s : Segment} {xs ys : List Lexeme} {l : Lexeme}
  {cs : List Char} {before after : List (Located Token)} {t u : Located Token} {tok : Token}

/-- An entry of two lists that are put together is one of the first or one of the second. -/
theorem append_cons_cases {α : Type} {as bs fore aft : List α} {x : α}
    (h : as ++ bs = fore ++ x :: aft) :
    (∃ more, as = fore ++ x :: more ∧ aft = more ++ bs) ∨
      ∃ more, fore = as ++ more ∧ bs = more ++ x :: aft := by
  rcases List.append_eq_append_iff.1 h with ⟨more, hfore, hbs⟩ | ⟨more, has, haft⟩
  · exact .inr ⟨more, hfore, hbs⟩
  · cases more with
    | nil => exact .inr ⟨[], by simpa using has.symm, haft.symm⟩
    | cons y more =>
      obtain ⟨rfl, rfl⟩ := List.cons.inj haft
      exact .inl ⟨more, has, rfl⟩

/-- A lexeme of segments is one of a segment. -/
theorem exists_segment (h : segments.flatMap ofSegment = xs ++ l :: ys) :
    ∃ earlier s later lead rest, segments = earlier ++ s :: later ∧
      ofSegment s = lead ++ l :: rest ∧ xs = earlier.flatMap ofSegment ++ lead ∧
      ys = rest ++ later.flatMap ofSegment := by
  induction segments generalizing xs with
  | nil => simp at h
  | cons s segments ih =>
    rw [List.flatMap_cons] at h
    rcases append_cons_cases h with ⟨rest, hs, hys⟩ | ⟨more, rfl, hothers⟩
    · exact ⟨[], s, segments, xs, rest, rfl, hs, rfl, hys⟩
    · obtain ⟨earlier, s', later, lead, rest, rfl, hs, rfl, hys⟩ := ih hothers
      exact ⟨s :: earlier, s', later, lead, rest, rfl, hs, by simp, hys⟩

/-! ### Lexemes of one segment -/

/-- How a lexeme stands in a segment: which lexemes of the segment are before it, and which ones are
behind it. -/
inductive Within : Segment → List Lexeme → Lexeme → List Lexeme → Prop where
  /-- A text is one lexeme. -/
  | text (cs : List Char) : Within (.text cs) [] ⟨some (.text (String.ofList cs)), cs⟩ []
  /-- A comment is one lexeme, which has no token. -/
  | comment (body : List Char) :
      Within (.comment body) [] ⟨none, (Segment.comment body).chars⟩ []
  /-- A tag begins with the lexeme that opens it. -/
  | opener (form : TagForm) (body : List Char) :
      Within (.tag form body) [] ⟨some (openToken form), form.opener⟩
        (ofTagBody body ++ [⟨some .tagClose, form.closer⟩])
  /-- A lexeme of the body of a tag is between those that open and close it. -/
  | inner {form : TagForm} {body : List Char} {lead : List Lexeme} {l : Lexeme}
      {rest : List Lexeme} (h : ofTagBody body = lead ++ l :: rest) :
      Within (.tag form body) (⟨some (openToken form), form.opener⟩ :: lead) l
        (rest ++ [⟨some .tagClose, form.closer⟩])
  /-- A tag ends with the lexeme that closes it. -/
  | closer (form : TagForm) (body : List Char) :
      Within (.tag form body) (⟨some (openToken form), form.opener⟩ :: ofTagBody body)
        ⟨some .tagClose, form.closer⟩ []
  /-- An opening that is never closed is one lexeme. -/
  | unclosed (opener body : List Char) :
      Within (.unclosed opener body) []
        ⟨some (.unclosed (String.ofList opener)), opener ++ body⟩ []

/-- An only lexeme has none before it and none behind it. -/
theorem eq_of_singleton {m : Lexeme} (h : [m] = xs ++ l :: ys) : xs = [] ∧ l = m ∧ ys = [] := by
  obtain ⟨rfl, hrest⟩ := (List.append_eq_singleton_iff.1 h.symm).resolve_right (by simp)
  obtain ⟨rfl, rfl⟩ := List.cons.inj hrest
  exact ⟨rfl, rfl, rfl⟩

/-- A lexeme of a segment stands in it in one of these ways. -/
theorem within_of_ofSegment (h : ofSegment s = xs ++ l :: ys) : Within s xs l ys := by
  cases s with
  | text cs =>
    obtain ⟨rfl, rfl, rfl⟩ := eq_of_singleton h
    exact .text cs
  | comment body =>
    obtain ⟨rfl, rfl, rfl⟩ := eq_of_singleton h
    exact .comment body
  | unclosed opener body =>
    obtain ⟨rfl, rfl, rfl⟩ := eq_of_singleton h
    exact .unclosed opener body
  | tag form body =>
    rw [ofSegment, List.cons_append] at h
    cases xs with
    | nil =>
      obtain ⟨rfl, rfl⟩ := List.cons.inj h
      exact .opener form body
    | cons x xs =>
      obtain ⟨rfl, hxs⟩ := List.cons.inj h
      -- The lexeme is one of the body, or the one behind the body.
      rcases append_cons_cases hxs with ⟨rest, hbody, rfl⟩ | ⟨more, rfl, hclose⟩
      · exact .inner hbody
      · obtain ⟨rfl, rfl, rfl⟩ := eq_of_singleton hclose
        rw [List.append_nil]
        exact .closer form body

/-- A segment has at least one lexeme. -/
theorem ofSegment_ne_nil (s : Segment) : ofSegment s ≠ [] := by
  cases s <;> simp [ofSegment]

/-- A text is the only lexeme of its segment. -/
theorem eq_text_of_isText (h : ofSegment s = xs ++ l :: ys) (hl : l.token? = some tok)
    (ht : tok.isText = true) : ∃ t, s = .text t ∧ xs = [] ∧ ys = [] := by
  cases within_of_ofSegment h with
  | text t => exact ⟨t, rfl, rfl, rfl⟩
  | comment body => cases hl
  | opener form body =>
    cases hl
    cases form <;> cases ht
  | inner hbody =>
    have hinner := isInner_of_token? hbody hl
    cases tok with
    | text s => cases hinner
    | _ => cases ht
  | closer form body | unclosed opener body =>
    cases hl
    cases ht

/-- A token that opens a tag is the first of its segment, and the rest of the segment closes the tag.
-/
theorem eq_nil_of_isOpener (h : ofSegment s = xs ++ l :: ys) (hl : l.token? = some tok)
    (ht : tok.isOpener = true) :
    xs = [] ∧ ∃ body cs, ys = ofTagBody body ++ [⟨some .tagClose, cs⟩] := by
  cases within_of_ofSegment h with
  | comment body => cases hl
  | opener form body => exact ⟨rfl, body, _, rfl⟩
  | inner hbody =>
    have hinner := isInner_of_token? hbody hl
    cases tok with
    | outputOpen | rawOpen | blockOpen => cases hinner
    | _ => cases ht
  | text t | closer form body | unclosed opener body =>
    cases hl
    cases ht

/-- A token that closes a tag is the last of its segment, and the segment up to it opens the tag. -/
theorem eq_nil_of_tagClose (h : ofSegment s = xs ++ l :: ys) (hl : l.token? = some .tagClose) :
    ys = [] ∧ ∃ form body, xs = ⟨some (openToken form), form.opener⟩ :: ofTagBody body := by
  cases within_of_ofSegment h with
  | opener form body => cases form <;> cases hl
  | inner hbody =>
    have hinner := isInner_of_token? hbody hl
    cases hinner
  | closer form body => exact ⟨rfl, form, body, rfl⟩
  | text t | comment body | unclosed opener body => cases hl

/-! ### Tags are complete -/

/-- The tokens of the body of a tag can stand there. -/
theorem isInner_of_mem_locate (h : t ∈ locate start (ofTagBody cs)) : t.item.isInner = true := by
  obtain ⟨before, after, h⟩ := List.append_of_mem h
  obtain ⟨xs, l, ys, hls, hl, -⟩ := exists_of_locate h
  exact isInner_of_token? hls hl

/-- A token that opens a tag is followed by what can stand in a tag, up to a token that closes one. -/
theorem exists_tagClose (h : locate start (segments.flatMap ofSegment) = before ++ t :: after)
    (ht : t.item.isOpener = true) :
    ∃ inner c rest, after = inner ++ c :: rest ∧ c.item = .tagClose ∧
      ∀ u ∈ inner, u.item.isInner = true := by
  obtain ⟨xs, l, ys, hls, hl, -, -, rfl⟩ := exists_of_locate h
  obtain ⟨earlier, s, later, lead, rest, -, hs, -, rfl⟩ := exists_segment hls
  obtain ⟨-, body, cs, rfl⟩ := eq_nil_of_isOpener hs hl ht
  rw [List.append_assoc, locate_append, List.singleton_append, locate_cons_some rfl]
  exact ⟨_, _, _, rfl, rfl, fun u hu => isInner_of_mem_locate hu⟩

/-- A token that closes a tag comes behind what can stand in a tag, back to a token that opens one. -/
theorem exists_opener (h : locate start (segments.flatMap ofSegment) = before ++ t :: after)
    (ht : t.item = .tagClose) :
    ∃ rest o inner, before = rest ++ o :: inner ∧ o.item.isOpener = true ∧
      ∀ u ∈ inner, u.item.isInner = true := by
  obtain ⟨xs, l, ys, hls, hl, rfl, -⟩ := exists_of_locate h
  obtain ⟨earlier, s, later, lead, rest, -, hs, rfl, -⟩ := exists_segment hls
  obtain ⟨-, form, body, rfl⟩ := eq_nil_of_tagClose hs (hl.trans (congrArg some ht))
  rw [locate_append, locate_cons_some rfl]
  refine ⟨_, _, _, rfl, ?_, fun u hu => isInner_of_mem_locate hu⟩
  cases form <;> rfl

/-- Between two neighbouring texts there is something that stands for no token. -/
theorem stop_lt_of_isText {source : List Char}
    (h : locate 0 (ofSource source) = before ++ t :: u :: after) (ht : t.item.isText = true)
    (hu : u.item.isText = true) : t.span.stop < u.span.start := by
  obtain ⟨xs, l, ys, hls, hl, -, htspan, hys⟩ := exists_of_locate h
  rw [← List.nil_append (u :: after)] at hys
  obtain ⟨gap, m, zs, rfl, hm, -, huspan, -⟩ := exists_of_locate hys
  rw [htspan, huspan]
  dsimp only
  suffices hgap : gap ≠ [] by
    obtain ⟨g, gap, rfl⟩ := List.exists_cons_of_ne_nil hgap
    have hmem : g ∈ ofSource source := by simp [hls]
    have hpos := byteLength_pos (spells_of_mem_ofSource hmem).1
    rw [bytes_cons]
    omega
  rintro rfl
  -- The lexemes would touch, and so would two segments that are text.
  obtain ⟨earlier, s, later, lead, rest, hsplit, hs, -, hrest⟩ := exists_segment hls
  obtain ⟨a, rfl, -, rfl⟩ := eq_text_of_isText hs hl ht
  cases later with
  | nil => cases hrest
  | cons s' later =>
    obtain ⟨k, ks, hs'⟩ := List.exists_cons_of_ne_nil (ofSegment_ne_nil s')
    rw [List.nil_append, List.nil_append, List.flatMap_cons, hs'] at hrest
    obtain ⟨rfl, -⟩ := List.cons.inj hrest
    rw [← List.nil_append (m :: ks)] at hs'
    obtain ⟨b, rfl, -⟩ := eq_text_of_isText hs' hm hu
    exact Segment.split_ne_texts hsplit

/-! ### What no token covers -/

/-- What can stand in a tag does not close it. -/
theorem ne_tagClose_of_isInner {tok : Token} (h : tok.isInner = true) : tok ≠ .tagClose := by
  rintro rfl
  cases h

/-- The first token that closes a tag is found behind others. -/
theorem find?_tagClose {inner : List (Located Token)} (h : ∀ t ∈ inner, t.item ≠ .tagClose)
    (ht : t.item = .tagClose) (rest : List (Located Token)) :
    (inner ++ t :: rest).find? (·.item = .tagClose) = some t := by
  have hnone : inner.find? (·.item = .tagClose) = none := by
    rw [List.find?_eq_none]
    intro u hu
    simpa using h u hu
  rw [List.find?_append, hnone, List.find?_cons_of_pos (by simpa using ht)]
  rfl

/-- Between the tokens of some segments and those behind the offset no tag is open. -/
theorem not_inTag_of_between {stop : Nat} {later : List Lexeme}
    (hle : start + bytes (segments.flatMap ofSegment) ≤ i) (hi : i < stop) :
    ¬ InTag (locate start (segments.flatMap ofSegment) ++ locate stop later) i := by
  rintro ⟨before, o, inner, c, after, h, ho, hc, hinner, hostop, hcstart⟩
  have hbounds : ∀ t ∈ locate stop later, i < t.span.start ∧ t.span.start ≤ t.span.stop := by
    intro t ht
    have hb := bounds_of_mem_locate ht
    omega
  -- The tag is opened before the offset, and so it is closed there, too.
  rcases append_cons_cases h with ⟨more, hearlier, hrest⟩ | ⟨more, rfl, hlater⟩
  · obtain ⟨inner', c', rest, rfl, hc', hinner'⟩ := exists_tagClose hearlier ho
    have hfind := find?_tagClose (fun t ht => ne_tagClose_of_isInner (hinner' t ht)) hc'
      (rest ++ locate stop later)
    have hsame : inner ++ c :: after = inner' ++ c' :: (rest ++ locate stop later) := by
      rw [hrest]
      exact List.append_assoc _ _ _
    rw [← hsame, find?_tagClose hinner hc, Option.some.injEq] at hfind
    have hmem : c ∈ locate start (segments.flatMap ofSegment) := by
      simp [hearlier, hfind]
    have hb := bounds_of_mem_locate hmem
    omega
  · have ho' := hbounds o (hlater ▸ List.mem_append_right more List.mem_cons_self)
    omega

/-- Each byte of characters that take one byte each belongs to one of them. -/
theorem exists_char_at (hcs : ∀ c ∈ cs, c.utf8Size = 1) (hi : i < byteLength cs) :
    ∃ as c bs, cs = as ++ c :: bs ∧ byteLength as = i := by
  induction cs generalizing i with
  | nil => cases hi
  | cons c cs ih =>
    obtain ⟨hc, hcs⟩ := List.forall_mem_cons.1 hcs
    cases i with
    | zero => exact ⟨[], c, cs, rfl, rfl⟩
    | succ i =>
      rw [byteLength, hc] at hi
      obtain ⟨as, d, bs, rfl, has⟩ := ih hcs (i := i) (by omega)
      exact ⟨c :: as, d, bs, rfl, by rw [byteLength, hc, has, Nat.add_comm]⟩

/-- A blank takes one byte. -/
theorem utf8Size_of_isSeparator {c : Char} (h : isSeparator c = true) : c.utf8Size = 1 := by
  simp only [isSeparator_iff, List.mem_cons, List.not_mem_nil, or_false] at h
  rcases h with rfl | rfl | rfl | rfl
  all_goals rfl

/-- A byte of a run of blanks is a blank. -/
theorem isBlankAt {source : List Char} (h : ofSource source = xs ++ l :: ys)
    (hl : ∀ c ∈ l.chars, isSeparator c = true) (hle : bytes xs ≤ i)
    (hi : i < bytes xs + byteLength l.chars) : IsBlankAt source i := by
  obtain ⟨before, after, hsource, hspan⟩ := shows_of_eq_append h
  have hbefore : bytes xs = byteLength before := congrArg Span.start hspan
  obtain ⟨as, c, bs, hchars, has⟩ :=
    exists_char_at (fun c hc => utf8Size_of_isSeparator (hl c hc)) (i := i - bytes xs) (by omega)
  have hc : isSeparator c = true := hl c (by simp [hchars])
  refine ⟨c, isSeparator_iff.1 hc, before ++ as, bs ++ after, ?_, ?_⟩
  · rw [hsource, hchars]
    simp
  · have hone : byteLength [c] = 1 := utf8Size_of_isSeparator hc
    have hstart : i = byteLength (before ++ as) := by
      rw [byteLength_append]
      omega
    rw [hone, ← hstart]

/-- A comment of a source is outside of tags, and no token touches it. -/
theorem inComment {source body : List Char} {earlier later : List Segment}
    (hsplit : Segment.split source = earlier ++ .comment body :: later)
    (hle : bytes (earlier.flatMap ofSegment) ≤ i)
    (hi : i < bytes (earlier.flatMap ofSegment) + byteLength (Segment.comment body).chars) :
    ¬ InTag (locate 0 (ofSource source)) i ∧
      InComment source (locate 0 (ofSource source)) i := by
  have h : ofSource source = earlier.flatMap ofSegment ++
      ⟨none, (Segment.comment body).chars⟩ :: later.flatMap ofSegment := by
    rw [ofSource, hsplit, List.flatMap_append, List.flatMap_cons]
    rfl
  have hlocate : locate 0 (ofSource source) =
      locate 0 (earlier.flatMap ofSegment) ++
        locate (bytes (earlier.flatMap ofSegment) + byteLength (Segment.comment body).chars)
          (later.flatMap ofSegment) := by
    rw [h, locate_append, locate_cons_none rfl, Nat.zero_add]
  have hfirst : ¬ ['#', '}'] <:+: body ++ ['#'] := by
    have hmem : Segment.comment body ∈ Segment.split source := by simp [hsplit]
    obtain ⟨t, -, ht⟩ | ⟨c, ds, hc⟩ := Segment.text_or_first_of_mem_split hmem
    · cases ht
    · exact Segment.comment_of_first hc.symm
  rw [hlocate]
  refine ⟨not_inTag_of_between (by omega) hi, _, body, shows_of_eq_append h, hfirst, hle, hi, ?_⟩
  intro t ht
  rcases List.mem_append.1 ht with ht | ht
  · have hb := bounds_of_mem_locate ht
    exact .inl (by dsimp only; omega)
  · exact .inr (bounds_of_mem_locate ht).1

/-- What is in the body of a tag of a source is in a tag. -/
theorem inTag {source body : List Char} {form : TagForm} {earlier later : List Segment}
    {lead rest : List Lexeme}
    (hsplit : Segment.split source = earlier ++ .tag form body :: later)
    (hbody : ofTagBody body = lead ++ l :: rest)
    (hle : bytes (earlier.flatMap ofSegment ++ ⟨some (openToken form), form.opener⟩ :: lead) ≤ i)
    (hi : i < bytes (earlier.flatMap ofSegment ++ ⟨some (openToken form), form.opener⟩ :: lead) +
      byteLength l.chars) : InTag (locate 0 (ofSource source)) i := by
  have hinner : ∀ start, ∀ t ∈ locate start (lead ++ l :: rest), t.item ≠ .tagClose := by
    rw [← hbody]
    exact fun start t ht => ne_tagClose_of_isInner (isInner_of_mem_locate ht)
  have h : ofSource source = earlier.flatMap ofSegment ++
      (⟨some (openToken form), form.opener⟩ :: ((lead ++ l :: rest) ++
        ⟨some .tagClose, form.closer⟩ :: later.flatMap ofSegment)) := by
    rw [ofSource, hsplit, List.flatMap_append, List.flatMap_cons, ofSegment, hbody]
    simp
  rw [bytes_append, bytes_cons] at hle hi
  dsimp only at hle hi
  rw [h, locate_append, locate_cons_some rfl, locate_append (_ + _) (lead ++ _),
    locate_cons_some rfl]
  refine ⟨_, _, _, _, _, rfl, ?_, rfl, hinner _, ?_, ?_⟩
  · cases form <;> rfl
  · dsimp only
    omega
  · dsimp only
    rw [bytes_append, bytes_cons]
    omega

/-- A lexeme of a source without a token is a comment outside of tags, or a run of blanks in a tag. -/
theorem uncovered_cases {source : List Char} (h : ofSource source = xs ++ l :: ys)
    (hl : l.token? = none) (hle : bytes xs ≤ i) (hi : i < bytes xs + byteLength l.chars) :
    (¬ InTag (locate 0 (ofSource source)) i ∧ InComment source (locate 0 (ofSource source)) i) ∨
      (InTag (locate 0 (ofSource source)) i ∧ IsBlankAt source i) := by
  obtain ⟨earlier, s, later, lead, rest, hsplit, hs, rfl, rfl⟩ := exists_segment h
  cases within_of_ofSegment hs with
  | text t | opener form body | closer form body | unclosed opener body => cases hl
  | comment body =>
    rw [List.append_nil] at hle hi
    exact .inl (inComment hsplit hle hi)
  | @inner form body lead _ rest hbody =>
    have hmem : l ∈ ofTagBody body := hbody ▸ List.mem_append_right lead List.mem_cons_self
    obtain ⟨-, ⟨-, hblank⟩ | ⟨t, ht, -⟩⟩ := isInner_of_mem_ofTagBody hmem
    · exact .inr ⟨inTag hsplit hbody hle hi, isBlankAt h hblank hle hi⟩
    · cases hl.symm.trans ht

end Lexeme

/-- The lexer loses and invents nothing. Each token shows what is written at its place, which is not
empty; the places follow one another, and neighbouring texts do not touch. A token that opens a tag
is followed by what can stand in a tag, up to the token that closes it, and a token that closes a
tag comes behind all of that. Each byte that is not part of a token is part of a comment outside of
tags, or a blank in a tag. -/
theorem tokens_cover_source (source : String) :
    (∀ t ∈ tokenize source, t.span.start < t.span.stop ∧
      ∃ cs, t.span.Shows source.toList cs ∧ t.item.Spells cs) ∧
    (tokenize source).Pairwise (fun t u => t.span.stop ≤ u.span.start) ∧
    (∀ before t u after, tokenize source = before ++ t :: u :: after → t.item.isText = true →
      u.item.isText = true → t.span.stop < u.span.start) ∧
    (∀ before t after, tokenize source = before ++ t :: after → t.item.isOpener = true →
      ∃ inner c rest, after = inner ++ c :: rest ∧ c.item = .tagClose ∧
        ∀ u ∈ inner, u.item.isInner = true) ∧
    (∀ before t after, tokenize source = before ++ t :: after → t.item = .tagClose →
      ∃ rest o inner, before = rest ++ o :: inner ∧ o.item.isOpener = true ∧
        ∀ u ∈ inner, u.item.isInner = true) ∧
    ∀ i < source.utf8ByteSize,
      (∃ t ∈ tokenize source, t.span.start ≤ i ∧ i < t.span.stop) ∨
      (¬ InTag (tokenize source) i ∧ InComment source.toList (tokenize source) i) ∨
      (InTag (tokenize source) i ∧ IsBlankAt source.toList i) := by
  refine ⟨?_, Lexeme.pairwise_locate _ _, ?_, ?_, ?_, ?_⟩
  · intro t ht
    obtain ⟨before, after, h⟩ := List.append_of_mem ht
    obtain ⟨xs, l, ys, hls, hl, -, hspan, -⟩ := Lexeme.exists_of_locate h
    have hmem : l ∈ Lexeme.ofSource source.toList := by simp [hls]
    obtain ⟨hne, hspells⟩ := Lexeme.spells_of_mem_ofSource hmem
    rw [hspan, Nat.zero_add]
    exact ⟨Nat.lt_add_of_pos_right (byteLength_pos hne), l.chars,
      Lexeme.shows_of_eq_append hls, hspells _ hl⟩
  · exact fun before t u after => Lexeme.stop_lt_of_isText
  · exact fun before t after => Lexeme.exists_tagClose
  · exact fun before t after => Lexeme.exists_opener
  · intro i hi
    rw [← byteLength_toList, ← Lexeme.flatMap_chars_ofSource source.toList] at hi
    have hi : i < 0 + Lexeme.bytes (Lexeme.ofSource source.toList) := by rwa [Nat.zero_add]
    obtain ⟨xs, l, ys, hls, hle, hlt⟩ := Lexeme.exists_lexeme_at (Nat.zero_le i) hi
    cases hl : l.token? with
    | none =>
      rw [Nat.zero_add] at hle hlt
      exact .inr (Lexeme.uncovered_cases hls hl hle hlt)
    | some tok =>
      have hmem := Lexeme.mem_locate hl 0 xs ys
      rw [← hls] at hmem
      exact .inl ⟨_, hmem, hle, hlt⟩

end Stencil
