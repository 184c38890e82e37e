import Mathlib.Data.List.Pairwise
import Mathlib.Logic.ExistsUnique
import Stencil.Proofs.Scanning.Pieces
import Stencil.Proofs.Slicing.Slices

/-!
# Strings are read alike

Strings are read twice: when the end of a tag is searched for, and when the body of the tag is divided
into tokens. Main statements: `groups_ofTagBody`, by which the lexemes of a body take the pieces of the
search as they are, and `strings_are_read_alike`, by which the string tokens of a tag are the strings
that were stepped over, at their places.
-/

namespace Stencil

open Text

/-- Whether a token is a string. -/
def Token.isStr : Token → Bool
  | .str _ => true
  | _ => false

/-- The lexeme of a piece: that of a string, or a character without a token. -/
def Piece.lexeme : Piece → Lexeme
  | .char c => ⟨none, [c]⟩
  | .string q inside =>
    ⟨some (.str (String.ofList (Quoted.decode inside))), q :: inside ++ [q]⟩

namespace Lexeme

/-- Lexemes take pieces as they are: each string is a lexeme, and any other lexeme is made of single
characters and is no string. -/
inductive Groups : List Piece → List Lexeme → Prop where
  | nil : Groups [] []
  | string {q : Char} {inside : List Char} {ps : List Piece} {ls : List Lexeme}
      (h : Groups ps ls) : Groups (.string q inside :: ps) ((Piece.string q inside).lexeme :: ls)
  | chars {l : Lexeme} {ps : List Piece} {ls : List Lexeme}
      (hl : ∀ t, l.token? = some t → t.isStr = false) (h : Groups ps ls) :
      Groups (l.chars.map .char ++ ps) (l :: ls)

variable {mark c q : Char} {cs inside : List Char} {ps : List Piece} {ls : List Lexeme} {l : Lexeme}
  {start i : Nat} {t u : Located Token}

/-! ### The first lexeme -/

/-- No quote is a blank, part of a word or part of a number. -/
theorem quote_cases (h : Segment.isQuote c = true) :
    isSeparator c = false ∧ isIdentStart c = false ∧ isIdentPart c = false ∧
      c.isDigit = false ∧ c ≠ '-' := by
  simp only [Segment.isQuote, Bool.or_eq_true, decide_eq_true_eq] at h
  rcases h with rfl | rfl <;> decide

/-- The characters up to the first one of another kind are pieces, if no quote is of that kind. -/
theorem exists_takeWhile {f : Char → Bool} (hf : ∀ c, Segment.isQuote c = true → f c = false)
    (hps : ∀ p ∈ ps, p.Passes mark) :
    ∃ qs, ps = ((ps.flatMap Piece.chars).takeWhile f).map .char ++ qs ∧
      (ps.flatMap Piece.chars).dropWhile f = qs.flatMap Piece.chars := by
  induction ps with
  | nil => exact ⟨[], rfl, rfl⟩
  | cons p ps ih =>
    obtain ⟨hp, hothers⟩ := List.forall_mem_cons.1 hps
    rw [List.flatMap_cons]
    cases p with
    | char c =>
      cases hc : f c with
      | true =>
        obtain ⟨qs, hqs, hdrop⟩ := ih hothers
        refine ⟨qs, ?_, ?_⟩
        · rw [Piece.chars, List.singleton_append, List.takeWhile_cons_of_pos hc, List.map_cons,
            List.cons_append, ← hqs]
        · rw [Piece.chars, List.singleton_append, List.dropWhile_cons_of_pos hc, hdrop]
      | false =>
        have hneg : ¬ f c = true := by simp [hc]
        refine ⟨.char c :: ps, ?_, ?_⟩
        · rw [Piece.chars, List.singleton_append, List.takeWhile_cons_of_neg hneg]
          rfl
        · rw [Piece.chars, List.singleton_append, List.dropWhile_cons_of_neg hneg]
          rfl
    | string q inside =>
      have hneg : ¬ f q = true := by simp [hf q hp.1]
      refine ⟨.string q inside :: ps, ?_, ?_⟩
      · rw [Piece.chars_string_append, List.takeWhile_cons_of_neg hneg]
        rfl
      · rw [Piece.chars_string_append, List.dropWhile_cons_of_neg hneg, List.flatMap_cons,
          Piece.chars_string_append]

/-- A word is no string. -/
theorem isStr_word (cs : List Char) : (word cs).isStr = false := by
  unfold word
  dsimp only
  split_ifs <;> rfl

/-- A number is no string. -/
theorem isStr_number (cs : List Char) : (number cs).isStr = false := by
  unfold number
  split_ifs <;> rfl

/-- A sign is no string. -/
theorem isStr_sign (c : Char) : (sign c).isStr = false := by
  unfold sign
  split_ifs <;> rfl

/-- A lexeme that begins with a character that is no quote takes single characters. -/
theorem first_char (hc : Segment.isQuote c = false) (hps : ∀ p ∈ ps, p.Passes mark) :
    ∃ qs, .char c :: ps = (first c (ps.flatMap Piece.chars)).1.chars.map .char ++ qs ∧
      (first c (ps.flatMap Piece.chars)).2 = qs.flatMap Piece.chars ∧
      ∀ t, (first c (ps.flatMap Piece.chars)).1.token? = some t → t.isStr = false := by
  have htaken : ∀ {f : Char → Bool}, (∀ c, Segment.isQuote c = true → f c = false) →
      ∃ qs, .char c :: ps = (c :: (ps.flatMap Piece.chars).takeWhile f).map .char ++ qs ∧
        (ps.flatMap Piece.chars).dropWhile f = qs.flatMap Piece.chars := by
    intro f hf
    obtain ⟨qs, hqs, hdrop⟩ := exists_takeWhile hf hps
    exact ⟨qs, by rw [List.map_cons, List.cons_append, ← hqs], hdrop⟩
  unfold first
  split_ifs with hsep hident hdigit hquote
  · obtain ⟨qs, hqs, hdrop⟩ := htaken fun c hq => (quote_cases hq).1
    exact ⟨qs, hqs, hdrop, nofun⟩
  · obtain ⟨qs, hqs, hdrop⟩ := htaken fun c hq => (quote_cases hq).2.2.1
    refine ⟨qs, hqs, hdrop, ?_⟩
    rintro _ ⟨⟩
    exact isStr_word _
  · obtain ⟨qs, hqs, hdrop⟩ := htaken fun c hq => (quote_cases hq).2.2.2.1
    refine ⟨qs, hqs, hdrop, ?_⟩
    rintro _ ⟨⟩
    exact isStr_number _
  · cases hquote.symm.trans hc
  · refine ⟨ps, rfl, rfl, ?_⟩
    rintro _ ⟨⟩
    exact isStr_sign c

/-- A lexeme that begins with the quote of a string is the string. -/
theorem first_string (hq : Segment.isQuote q = true) (h : Quoted.Enclosed q inside)
    (rest : List Char) :
    first q (inside ++ q :: rest) = ((Piece.string q inside).lexeme, rest) := by
  obtain ⟨hsep, hident, -, hdigit, hminus⟩ := quote_cases hq
  have hbody : Quoted.body? q (inside ++ q :: rest) = some (inside, rest) := by
    rw [Quoted.body?, h.run_append (ne_backslash_of_isQuote hq)]
    exact if_pos rfl
  unfold first
  simp only [hsep, hident, hdigit, hminus, hq, hbody, decide_false, Bool.false_and, Bool.or_false,
    Bool.false_eq_true, if_false, if_true]
  rfl

/-- The lexemes of the body of a tag take the pieces that are stepped over as they are. -/
theorem groups_ofTagBody (hps : ∀ p ∈ ps, p.Passes mark) :
    Groups ps (ofTagBody (ps.flatMap Piece.chars)) := by
  induction hcs : ps.flatMap Piece.chars using ofTagBody.induct generalizing ps with
  | case1 =>
    cases ps with
    | nil =>
      rw [ofTagBody]
      exact .nil
    | cons p ps => cases p <;> cases hcs
  | case2 c cs _ ih =>
    rw [ofTagBody]
    cases ps with
    | nil => cases hcs
    | cons p ps =>
      obtain ⟨hp, hps'⟩ := List.forall_mem_cons.1 hps
      rw [List.flatMap_cons] at hcs
      cases p with
      | char d =>
        obtain ⟨rfl, rfl⟩ := List.cons.inj hcs
        obtain ⟨qs, hqs, hrest, htoken⟩ := first_char hp.2 hps'
        rw [hqs] at hps ⊢
        exact .chars htoken (ih (fun p hp => hps p (List.mem_append_right _ hp)) hrest.symm)
      | string q inside =>
        rw [Piece.chars_string_append] at hcs
        obtain ⟨rfl, rfl⟩ := List.cons.inj hcs
        have hfirst := first_string hp.1 hp.2 (ps.flatMap Piece.chars)
        rw [hfirst] at ih ⊢
        exact .string (ih hps' rfl)

/-! ### Groups of pieces -/

/-- Single characters have no tokens, and take their place. -/
theorem locate_map_char (start : Nat) (cs : List Char) (ls : List Lexeme) :
    locate start ((cs.map Piece.char).map Piece.lexeme ++ ls) =
      locate (start + byteLength cs) ls := by
  induction cs generalizing start with
  | nil => rfl
  | cons c cs ih =>
    rw [List.map_cons, List.map_cons, List.cons_append, locate_cons_none rfl, ih, Nat.add_assoc]
    rfl

/-- The string tokens are the strings among the pieces, at their places. -/
theorem Groups.filter_isStr (h : Groups ps ls) (start : Nat) :
    (locate start ls).filter (·.item.isStr) = locate start (ps.map Piece.lexeme) := by
  induction h generalizing start with
  | nil => rfl
  | string _ ih =>
    rw [List.map_cons, locate_cons_some rfl, locate_cons_some rfl, List.filter_cons_of_pos rfl, ih]
  | @chars l ps ls hl _ ih =>
    rw [List.map_append, locate_map_char, ← ih]
    cases htoken : l.token? with
    | none => rw [locate_cons_none htoken]
    | some t =>
      rw [locate_cons_some htoken, List.filter_cons_of_neg (by simp [hl t htoken])]

/-- A lexeme is one of the strings, or takes single characters and is no string. -/
theorem Groups.lexeme_cases (h : Groups ps ls) (hl : l ∈ ls) :
    (∃ q inside, .string q inside ∈ ps ∧ l = (Piece.string q inside).lexeme) ∨
      (∀ c ∈ l.chars, .char c ∈ ps) ∧ ∀ t, l.token? = some t → t.isStr = false := by
  induction h with
  | nil => cases hl
  | @string q inside _ _ _ ih =>
    rcases List.mem_cons.1 hl with rfl | hl
    · exact .inl ⟨q, inside, List.mem_cons_self, rfl⟩
    · rcases ih hl with ⟨q', inside', hmem, rfl⟩ | ⟨hchars, htoken⟩
      · exact .inl ⟨q', inside', List.mem_cons_of_mem _ hmem, rfl⟩
      · exact .inr ⟨fun c hc => List.mem_cons_of_mem _ (hchars c hc), htoken⟩
  | chars hgroup _ ih =>
    rcases List.mem_cons.1 hl with rfl | hl
    · exact .inr ⟨fun c hc => List.mem_append_left _ (List.mem_map_of_mem hc), hgroup⟩
    · rcases ih hl with ⟨q, inside, hmem, rfl⟩ | ⟨hchars, htoken⟩
      · exact .inl ⟨q, inside, List.mem_append_right _ hmem, rfl⟩
      · exact .inr ⟨fun c hc => List.mem_append_right _ (hchars c hc), htoken⟩

/-- Each character that lexemes make up is in one of them. -/
theorem exists_lexeme_of_char {as bs : List Char} (h : ls.flatMap chars = as ++ c :: bs) :
    ∃ xs l ys us vs, ls = xs ++ l :: ys ∧ l.chars = us ++ c :: vs ∧
      as = xs.flatMap chars ++ us := by
  induction ls generalizing as with
  | nil => simp at h
  | cons l ls ih =>
    rw [List.flatMap_cons] at h
    rcases append_cons_cases h with ⟨vs, hl, -⟩ | ⟨more, rfl, hls⟩
    · exact ⟨[], l, ls, as, vs, rfl, hl, rfl⟩
    · obtain ⟨xs, m, ys, us, vs, rfl, hm, rfl⟩ := ih hls
      exact ⟨l :: xs, m, ys, us, vs, rfl, hm, by simp⟩

/-- Tokens to which the same byte belongs are one token. -/
theorem eq_of_mem_locate (ht : t ∈ locate start ls) (hu : u ∈ locate start ls)
    (hti : t.span.start ≤ i ∧ i < t.span.stop) (hui : u.span.start ≤ i ∧ i < u.span.stop) :
    t = u := by
  have hpairwise : (locate start ls).Pairwise fun t u =>
      t.span.stop ≤ u.span.start ∨ u.span.stop ≤ t.span.start :=
    (pairwise_locate start ls).imp .inl
  have hsymm : Std.Symm fun t u : Located Token =>
      t.span.stop ≤ u.span.start ∨ u.span.stop ≤ t.span.start := ⟨fun _ _ => Or.symm⟩
  by_contra hne
  rcases hpairwise.forall ht hu hne with h | h
  all_goals omega

end Lexeme

open Lexeme Segment

/-- How the tokens of the body of a tag, which begins at the offset `start` of the source, stand to the
pieces that were stepped over in search of the mark. -/
structure ReadsAlike (source : String) (mark : Char) (start : Nat) (body : List Char)
    (pieces : List Piece) (tokens : List (Located Token)) : Prop where
  /-- The search has stepped over the body. -/
  written : pieces.flatMap Piece.chars = body
  /-- The pieces are closed strings, and characters that are neither the mark nor a quote. -/
  passed : ∀ p ∈ pieces, p.Passes mark
  /-- The string tokens are the strings that were stepped over, at their places. -/
  strings : tokens.filter (·.item.isStr) = locate start (pieces.map Piece.lexeme)
  /-- A quote or a mark in the body is part of exactly one string token. -/
  covered : ∀ as c bs, body = as ++ c :: bs → isQuote c = true ∨ c = mark →
    ∃! t, t ∈ tokenize source ∧ t.item.isStr = true ∧ t.span.start ≤ start + byteLength as ∧
      start + byteLength as + c.utf8Size ≤ t.span.stop
  /-- What is not recognised holds no quote. -/
  unknown : ∀ t ∈ tokens, ∀ s, t.item = .unknown s → ∀ c ∈ s.toList, isQuote c = false
  /-- A string token is decoded from what stands between its quotes, where each backslash has a
  character to take along. -/
  decoded : ∀ t ∈ tokens, ∀ s, t.item = .str s → ∃ q inside, isQuote q = true ∧
    t.span.Shows source.toList (q :: inside ++ [q]) ∧
    s = String.ofList (Quoted.decode inside) ∧ Quoted.dangles inside = false

variable {source : String} {earlier later : List Segment} {form : TagForm} {body : List Char}

/-- The mark of a tag is the first of the characters that close it. -/
theorem TagForm.exists_closer (form : TagForm) : ∃ more, form.closer = form.mark :: more := by
  cases form <;> exact ⟨_, rfl⟩

/-- The lexemes of a source around the body of a tag. -/
theorem ofSource_of_split (h : split source.toList = earlier ++ .tag form body :: later) :
    ofSource source.toList =
      (earlier.flatMap ofSegment ++ [⟨some (openToken form), form.opener⟩]) ++
        (ofTagBody body ++ ⟨some .tagClose, form.closer⟩ :: later.flatMap ofSegment) := by
  rw [ofSource, h, List.flatMap_append, List.flatMap_cons, ofSegment]
  simp

/-- What stands before the body of a tag has as many bytes as its lexemes. -/
theorem bytes_before_body (earlier : List Segment) (form : TagForm) :
    bytes (earlier.flatMap ofSegment ++ [⟨some (openToken form), form.opener⟩]) =
      byteLength (earlier.flatMap Segment.chars ++ form.opener) := by
  rw [bytes_append, bytes_flatMap_ofSegment, byteLength_append]
  simp [bytes]

/-- The tokens of a tag's body are tokens of the source. -/
theorem mem_tokenize_of_mem_tagBody {t : Located Token}
    (h : split source.toList = earlier ++ .tag form body :: later)
    (ht : t ∈ locate (byteLength (earlier.flatMap Segment.chars ++ form.opener))
      (ofTagBody body)) :
    t ∈ tokenize source := by
  rw [tokenize, ofSource_of_split h, locate_append, locate_append _ (ofTagBody body), Nat.zero_add,
    bytes_before_body]
  exact List.mem_append_right _ (List.mem_append_left _ ht)

/-- The tokens of a tag's body are where the body is. -/
theorem exists_of_mem_tagBody {t : Located Token}
    (h : split source.toList = earlier ++ .tag form body :: later)
    (ht : t ∈ locate (byteLength (earlier.flatMap Segment.chars ++ form.opener))
      (ofTagBody body)) :
    ∃ l ∈ ofTagBody body, l.token? = some t.item ∧ t.span.Shows source.toList l.chars := by
  obtain ⟨before, after, hlocate⟩ := List.append_of_mem ht
  obtain ⟨xs, l, ys, hbody, htoken, -, hspan, -⟩ := exists_of_locate hlocate
  refine ⟨l, by simp [hbody], htoken, ?_⟩
  have hsource : ofSource source.toList =
      (earlier.flatMap ofSegment ++ [⟨some (openToken form), form.opener⟩] ++ xs) ++
        l :: (ys ++ ⟨some .tagClose, form.closer⟩ :: later.flatMap ofSegment) := by
    rw [ofSource_of_split h, hbody]
    simp
  have hshows := shows_of_eq_append hsource
  rwa [bytes_append, bytes_before_body, ← hspan] at hshows

/-- A string token that covers a place is the only one that does. -/
theorem existsUnique_str {t : Located Token} {place size : Nat} (hsize : 0 < size)
    (ht : t ∈ tokenize source) (hstr : t.item.isStr = true) (hstart : t.span.start ≤ place)
    (hstop : place + size ≤ t.span.stop) :
    ∃! t, t ∈ tokenize source ∧ t.item.isStr = true ∧ t.span.start ≤ place ∧
      place + size ≤ t.span.stop := by
  refine ⟨t, ⟨ht, hstr, hstart, hstop⟩, ?_⟩
  rintro u ⟨hu, -, hustart, hustop⟩
  exact eq_of_mem_locate hu ht ⟨hustart, by omega⟩ ⟨hstart, by omega⟩

section Body

variable {ps : List Piece} {t : Located Token} {s : String}
variable (h : split source.toList = earlier ++ .tag form body :: later)
variable (hps : ∀ p ∈ ps, p.Passes form.mark) (hgroups : Groups ps (ofTagBody body))

include h hps hgroups

/-- A quote or a mark in the body of a tag is part of exactly one string token. -/
theorem existsUnique_str_of_mark {c : Char} {as bs : List Char} (hc : body = as ++ c :: bs)
    (hmark : isQuote c = true ∨ c = form.mark) :
    let start := byteLength (earlier.flatMap Segment.chars ++ form.opener)
    ∃! t, t ∈ tokenize source ∧ t.item.isStr = true ∧ t.span.start ≤ start + byteLength as ∧
      start + byteLength as + c.utf8Size ≤ t.span.stop := by
  intro start
  rw [← flatMap_chars_ofTagBody body] at hc
  obtain ⟨xs, l, ys, us, vs, hls, hl, rfl⟩ := exists_lexeme_of_char hc
  rcases hgroups.lexeme_cases (l := l) (by simp [hls]) with ⟨q, inside, -, rfl⟩ | ⟨hchars, -⟩
  · have htoken := mem_locate (l := (Piece.string q inside).lexeme) rfl start xs ys
    rw [← hls] at htoken
    have hlength := congrArg byteLength hl
    rw [byteLength_append, byteLength] at hlength
    have hplace : byteLength (xs.flatMap Lexeme.chars ++ us) = bytes xs + byteLength us := by
      rw [byteLength_append, bytes]
    refine existsUnique_str c.utf8Size_pos (mem_tokenize_of_mem_tagBody h htoken) rfl ?_ ?_
    all_goals
      dsimp only
      omega
  · -- Outside of strings there is no quote and no mark.
    obtain ⟨hne, hquote⟩ := hps _ (hchars c (by simp [hl]))
    rcases hmark with hc | hc
    · cases hc.symm.trans hquote
    · exact absurd hc hne

/-- What is not recognised in the body of a tag holds no quote. -/
theorem isQuote_of_mem_unknown
    (ht : t ∈ locate (byteLength (earlier.flatMap Segment.chars ++ form.opener)) (ofTagBody body))
    (hs : t.item = .unknown s) : ∀ c ∈ s.toList, isQuote c = false := by
  intro c hc
  obtain ⟨l, hlmem, htoken, -⟩ := exists_of_mem_tagBody h ht
  rcases hgroups.lexeme_cases hlmem with ⟨q, inside, -, rfl⟩ | ⟨hchars, -⟩
  · rw [hs] at htoken
    cases htoken
  · obtain ⟨-, ⟨hnone, -⟩ | ⟨u, hu, hspells, -⟩⟩ := isInner_of_mem_ofTagBody hlmem
    · cases hnone.symm.trans htoken
    · cases hu.symm.trans (htoken.trans (congrArg some hs))
      have hspelled : s.toList = l.chars := hspells
      exact (hps _ (hchars c (hspelled ▸ hc))).2

/-- A string token in the body of a tag is decoded from a string that was stepped over. -/
theorem exists_inside_of_str
    (ht : t ∈ locate (byteLength (earlier.flatMap Segment.chars ++ form.opener)) (ofTagBody body))
    (hs : t.item = .str s) : ∃ q inside, isQuote q = true ∧
      t.span.Shows source.toList (q :: inside ++ [q]) ∧
      s = String.ofList (Quoted.decode inside) ∧ Quoted.dangles inside = false := by
  obtain ⟨l, hlmem, htoken, hshows⟩ := exists_of_mem_tagBody h ht
  rcases hgroups.lexeme_cases hlmem with ⟨q, inside, hpiece, rfl⟩ | ⟨-, hstr⟩
  · obtain ⟨hq, henclosed⟩ := hps _ hpiece
    cases htoken.trans (congrArg some hs)
    exact ⟨q, inside, hq, hshows, rfl, henclosed.not_dangles⟩
  · have hfalse := hstr _ htoken
    rw [hs] at hfalse
    cases hfalse

/-- The tokens of a tag's body stand to the pieces of the search as they should. -/
theorem readsAlike_of_groups (hbody : body = ps.flatMap Piece.chars) :
    let start := byteLength (earlier.flatMap Segment.chars ++ form.opener)
    ReadsAlike source form.mark start body ps (locate start (ofTagBody body)) where
  written := hbody.symm
  passed := hps
  strings := hgroups.filter_isStr _
  covered _ _ _ hc hmark := existsUnique_str_of_mark h hps hgroups hc hmark
  unknown _ ht _ hs := isQuote_of_mem_unknown h hps hgroups ht hs
  decoded _ ht _ hs := exists_inside_of_str h hps hgroups ht hs

end Body

/-- The tokens of a tag are those of its body between the two that open and close it. -/
theorem exists_tokenize_of_split (h : split source.toList = earlier ++ .tag form body :: later) :
    let start := byteLength (earlier.flatMap Segment.chars ++ form.opener)
    ∃ before after, tokenize source =
      before ++ ⟨openToken form, ⟨byteLength (earlier.flatMap Segment.chars), start⟩⟩ ::
        (locate start (ofTagBody body) ++
          ⟨.tagClose, ⟨start + byteLength body,
            start + byteLength body + byteLength form.closer⟩⟩ :: after) := by
  intro start
  refine ⟨locate 0 (earlier.flatMap ofSegment), locate
    (start + byteLength body + byteLength form.closer) (later.flatMap ofSegment), ?_⟩
  rw [tokenize, ofSource_of_split h, List.append_assoc, locate_append, List.singleton_append,
    locate_cons_some rfl, locate_append, locate_cons_some rfl, Nat.zero_add,
    bytes_flatMap_ofSegment, ← byteLength_append, bytes, flatMap_chars_ofTagBody]

/-- For each tag of a source the search for its end steps over the body and no further, and the tokens
of the body are read alike: the string tokens are the strings that were stepped over, every quote and
every mark of the body is part of exactly one of them, nothing that is not recognised holds a quote, and
no string ends with a backslash that has nothing to take along. -/
theorem strings_are_read_alike
    (h : split source.toList = earlier ++ .tag form body :: later) :
    let start := byteLength (earlier.flatMap Segment.chars ++ form.opener)
    let behind := form.closer ++ later.flatMap Segment.chars
    Segment.body form.mark (body ++ behind) = (body, behind) ∧
    (∃ before after, tokenize source =
      before ++ ⟨openToken form, ⟨byteLength (earlier.flatMap Segment.chars), start⟩⟩ ::
        (locate start (ofTagBody body) ++
          ⟨.tagClose, ⟨start + byteLength body,
            start + byteLength body + byteLength form.closer⟩⟩ :: after)) ∧
    ReadsAlike source form.mark start body (steps form.mark (body ++ behind))
      (locate start (ofTagBody body)) := by
  intro start behind
  have hfirst : ∃ c cs, Segment.tag form body = (Segment.first c cs).1 := by
    have hmem : .tag form body ∈ split source.toList := by simp [h]
    rcases text_or_first_of_mem_split hmem with ⟨t, -, ht⟩ | hfirst
    · cases ht
    · exact hfirst
  obtain ⟨c, cs, hc⟩ := hfirst
  obtain ⟨ps, hps, hbody⟩ := isBody_of_first (Prod.ext hc.symm rfl)
  obtain ⟨more, hmore⟩ := form.exists_closer
  have hbehind : behind = form.mark :: (more ++ later.flatMap Segment.chars) := by
    rw [show behind = form.closer ++ later.flatMap Segment.chars from rfl, hmore]
    rfl
  obtain ⟨hsteps, hfound⟩ := steps_flatMap_append form.isQuote_mark hps
    (more ++ later.flatMap Segment.chars)
  rw [← hbody, ← hbehind] at hsteps hfound
  rw [hsteps]
  have hgroups : Groups ps (ofTagBody body) := hbody ▸ groups_ofTagBody hps
  exact ⟨hfound, exists_tokenize_of_split h, readsAlike_of_groups h hps hgroups hbody⟩

/-- A backslash in front of a string takes no quote along, and the brace in the string closes nothing.
-/
theorem string_behind_backslash_is_read_alike :
    let body := " a \\\"\x7d\" ".toList
    split "\x7b\x7b a \\\"\x7d\" \x7d\x7d".toList = [] ++ .tag .output body :: [] ∧
      ReadsAlike "\x7b\x7b a \\\"\x7d\" \x7d\x7d" '}' 2 body (steps '}' (body ++ ['}', '}']))
        (locate 2 (ofTagBody body)) := by
  intro body
  have h : split "\x7b\x7b a \\\"\x7d\" \x7d\x7d".toList = [] ++ .tag .output body :: [] := by
    decide +kernel
  exact ⟨h, (strings_are_read_alike h).2.2⟩

end Stencil
