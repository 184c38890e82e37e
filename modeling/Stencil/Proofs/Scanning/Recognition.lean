import Stencil.Proofs.Joining.Refused
import Stencil.Proofs.Scanning.Openings
import Stencil.Proofs.Slicing.Slices

/-!
# Recognition of tags

The lexer cuts a source into segments one after another, and joins the texts that touch. Main statement:
`tags_are_recognised`, by which each cut is what a scan that respects strings finds there and what is
the longest match of the patterns. There is one exception: some openings that are never closed are
text, where the longest match is the opening alone.
-/

namespace Stencil

open Text Lexeme

namespace Segment

variable {c : Char} {cs as : List Char} {s e : Segment} {earlier later xs ys : List Segment}

/-- The segments of a source before the texts that touch are joined. -/
def cuts : List Char → List Segment
  | [] => []
  | c :: cs =>
    have := length_first_lt c cs
    (first c cs).1 :: cuts (first c cs).2
termination_by cs => cs.length

/-- The cuts of a source, with the texts that touch joined, are its segments. -/
theorem split_eq_foldr_cuts (cs : List Char) : split cs = (cuts cs).foldr cons [] := by
  fun_induction cuts cs with
  | case1 => exact split_nil
  | case2 c cs _ ih => rw [split_cons, List.foldr_cons, ih]

/-- The cuts of a source, written out, are the source. -/
theorem flatMap_chars_cuts (cs : List Char) : (cuts cs).flatMap chars = cs := by
  fun_induction cuts cs with
  | case1 => rfl
  | case2 c cs _ ih => rw [List.flatMap_cons, ih, first_append]

/-- A cut is the first segment of what is left of the source there. -/
theorem first_of_cuts (h : cuts cs = earlier ++ s :: later) :
    ∃ c ds, s.chars ++ later.flatMap chars = c :: ds ∧ first c ds = (s, later.flatMap chars) := by
  induction earlier generalizing cs with
  | nil =>
    cases cs with
    | nil => simp [cuts] at h
    | cons c cs =>
      rw [cuts] at h
      obtain ⟨rfl, rfl⟩ := List.cons.inj h
      rw [flatMap_chars_cuts]
      exact ⟨c, cs, first_append c cs, rfl⟩
  | cons e earlier ih =>
    cases cs with
    | nil => simp [cuts] at h
    | cons c cs =>
      rw [cuts] at h
      exact ih (List.cons.inj h).2

/-! ### Joining texts -/

/-- Joining texts does not change what is written. -/
theorem flatMap_chars_foldr (xs : List Segment) :
    (xs.foldr cons []).flatMap chars = xs.flatMap chars := by
  induction xs with
  | nil => rfl
  | cons s xs ih => rw [List.foldr_cons, flatMap_chars_cons, ih, List.flatMap_cons]

/-- What is put in front of segments joins the first one at most. -/
theorem cons_append (hne : xs ≠ []) (s : Segment) (ys : List Segment) :
    cons s (xs ++ ys) = cons s xs ++ ys := by
  cases xs with
  | nil => exact absurd rfl hne
  | cons x xs => cases s <;> cases x <;> rfl

/-- Texts are not joined across a segment that is no text. -/
theorem foldr_cons_of_ne (hs : ∀ as, s ≠ .text as) (earlier xs : List Segment) :
    earlier.foldr cons (cons s xs) = earlier.foldr cons [] ++ s :: xs := by
  have hcons : cons s xs = s :: xs := by
    cases s with
    | text as => exact absurd rfl (hs as)
    | comment | tag | unclosed => rfl
  rw [hcons]
  induction earlier with
  | nil => rfl
  | cons e earlier ih =>
    rw [List.foldr_cons, List.foldr_cons, ih]
    by_cases hnil : earlier.foldr cons [] = []
    · rw [hnil]
      rcases cons_cases e (s :: xs) with ⟨_, bs, _, -, htext, -⟩ | ⟨hfront, -⟩
      · exact (hs bs (List.cons.inj htext).1).elim
      · cases e <;> exact hfront
    · exact cons_append hnil e (s :: xs)

/-- A text is part of the one into which it is joined. -/
theorem exists_text_of_foldr (earlier later : List Segment) (as : List Char) :
    ∃ xs us vs ys, (earlier ++ .text as :: later).foldr cons [] =
        xs ++ .text (us ++ as ++ vs) :: ys ∧ xs.flatMap chars ++ us = earlier.flatMap chars := by
  induction earlier with
  | nil =>
    rw [List.nil_append, List.foldr_cons]
    rcases cons_cases (.text as) (later.foldr cons []) with ⟨_, bs, ys, hs, -, hcons⟩ | ⟨hcons, -⟩
    · cases hs
      exact ⟨[], [], bs, ys, hcons, rfl⟩
    · exact ⟨[], [], [], later.foldr cons [], by simp [hcons], rfl⟩
  | cons e earlier ih =>
    obtain ⟨xs, us, vs, ys, hjoined, hchars⟩ := ih
    rw [List.cons_append, List.foldr_cons, hjoined, List.flatMap_cons, ← hchars]
    by_cases hnil : xs = []
    · -- The text itself is the first segment, and another one in front of it joins it.
      subst hnil
      cases e with
      | text es => exact ⟨[], es ++ us, vs, ys, by simp [cons], rfl⟩
      | comment | tag | unclosed => exact ⟨[_], us, vs, ys, rfl, by simp⟩
    · exact ⟨cons e xs, us, vs, ys, cons_append hnil e _, by rw [flatMap_chars_cons, List.append_assoc]⟩

end Segment

open Segment
open Pattern (openers)

variable {source : String} {s : Segment} {earlier later : List Segment}

/-- A cut that is no text is a segment. -/
theorem split_of_cuts (h : cuts source.toList = earlier ++ s :: later) (hs : ∀ as, s ≠ .text as) :
    split source.toList = earlier.foldr cons [] ++ s :: later.foldr cons [] := by
  rw [split_eq_foldr_cuts, h, List.foldr_append, List.foldr_cons, foldr_cons_of_ne hs]

/-- A cut that is no text is found among the tokens at its place. -/
theorem exists_tokenize_of_cuts (h : cuts source.toList = earlier ++ s :: later)
    (hs : ∀ as, s ≠ .text as) :
    ∃ before after, tokenize source =
      before ++ (locate (byteLength (earlier.flatMap Segment.chars)) (ofSegment s) ++ after) := by
  rw [tokenize, ofSource, split_of_cuts h hs, List.flatMap_append, List.flatMap_cons, locate_append,
    locate_append, bytes_flatMap_ofSegment, flatMap_chars_foldr, Nat.zero_add]
  exact ⟨_, _, rfl⟩

/-- A cut that is text is part of a text token, at its place. -/
theorem exists_text_of_cuts {as : List Char}
    (h : cuts source.toList = earlier ++ .text as :: later) :
    ∃ us vs start, ⟨.text (String.ofList (us ++ as ++ vs)),
        ⟨start, start + byteLength (us ++ as ++ vs)⟩⟩ ∈ tokenize source ∧
      start + byteLength us = byteLength (earlier.flatMap Segment.chars) := by
  obtain ⟨xs, us, vs, ys, hjoined, hchars⟩ := exists_text_of_foldr earlier later as
  rw [← h, ← split_eq_foldr_cuts] at hjoined
  refine ⟨us, vs, byteLength (xs.flatMap Segment.chars), ?_, ?_⟩
  · have hmem := mem_locate (l := ⟨some (.text (String.ofList (us ++ as ++ vs))), us ++ as ++ vs⟩) rfl 0
      (xs.flatMap ofSegment) (ys.flatMap ofSegment)
    rw [tokenize, ofSource, hjoined, List.flatMap_append, List.flatMap_cons]
    rw [bytes_flatMap_ofSegment, Nat.zero_add] at hmem
    exact hmem
  · rw [← byteLength_append, hchars]

/-- What the lexer makes of what is left of a source at some place. The cut there is `s`, and `rest`
stands behind it. -/
structure Recognised (source : String) (place : Nat) (s : Segment) (rest : List Char) : Prop where
  /-- What the scan finds is the cut, which ends there. It is the longest match of the patterns. -/
  found : ∀ (t : Segment) (more : List Char), t.IsFound more → s.chars ++ rest = t.chars ++ more →
    s = t ∧ rest = more ∧ t.pattern.IsLongest t.chars (s.chars ++ rest)
  /-- Where the scan finds nothing, an opening is the longest match. It is reported, and the source is
  no template, but for the openings that are text. -/
  opened : ∀ o ∈ openers, o <+: s.chars ++ rest → FindsNothing (s.chars ++ rest) →
    Pattern.opener.IsLongest o (s.chars ++ rest) ∧
    ((∀ u ∈ strayOpenings, ¬ u <+: s.chars ++ rest) →
      (∃ inside, s = .unclosed o inside) ∧
      ⟨.unclosed (String.ofList o), ⟨place, place + byteLength s.chars⟩⟩ ∈ tokenize source ∧
      ∀ b, parse source ≠ .ok b) ∧
    ∀ u ∈ strayOpenings, u <+: s.chars ++ rest → ∃ as, s = .text as
  /-- A brace that opens nothing is text. -/
  brace : ∀ cs, s.chars ++ rest = '{' :: cs → (∀ o ∈ openers, ¬ o <+: s.chars ++ rest) →
    s = .text ['{'] ∧ Pattern.brace.IsLongest ['{'] (s.chars ++ rest)
  /-- A tag or a comment is what the scan finds. -/
  closed : s.isClosed = true → s.IsFound rest
  /-- The tokens of the cut are found at the place; those of a text are part of a text token. -/
  tokens : (∃ before after, tokenize source = before ++ (locate place (ofSegment s) ++ after)) ∨
    ∃ us as vs start, s = .text as ∧ ⟨.text (String.ofList (us ++ as ++ vs)),
      ⟨start, start + byteLength (us ++ as ++ vs)⟩⟩ ∈ tokenize source ∧
      start + byteLength us = place

/-- Every cut of a source is what a scan that respects strings finds there: a tag or a comment ends
behind its first mark outside of strings, an opening without such an end is reported and makes the
source no template, and a brace that opens nothing is text. These are the longest matches of the
patterns. The exception is three braces that are never closed, and two braces or a brace and a percent
sign in front of half a mark: they are text. -/
theorem tags_are_recognised (h : cuts source.toList = earlier ++ s :: later) :
    Recognised source (byteLength (earlier.flatMap Segment.chars)) s
      (later.flatMap Segment.chars) := by
  obtain ⟨c, cs, hcs, hfirst⟩ := first_of_cuts h
  refine ⟨?_, ?_, ?_, isFound_of_first hfirst, ?_⟩
  · intro t more ht hchars
    obtain ⟨ds, hds, hfound⟩ := first_of_isFound ht
    obtain ⟨rfl, rfl⟩ := List.cons.inj (hcs.symm.trans (hchars.trans hds))
    obtain ⟨rfl, hrest⟩ := Prod.mk.inj (hfirst.symm.trans hfound)
    exact ⟨rfl, hrest, hrest ▸ isLongest_of_isFound ht⟩
  · rw [hcs]
    intro o ho hprefix hnothing
    refine ⟨isLongest_opener ho hprefix hnothing, fun hstray => ?_, fun u hu hstray => ?_⟩
    · obtain ⟨inside, rest, hopen⟩ := first_eq_unclosed ho hprefix hnothing hstray
      obtain ⟨rfl, -⟩ := Prod.mk.inj (hfirst.symm.trans hopen)
      refine ⟨⟨inside, rfl⟩, ?_, ?_⟩
      · obtain ⟨before, after, htokens⟩ := exists_tokenize_of_cuts h nofun
        rw [htokens]
        exact List.mem_append_right _ (List.mem_append_left _ List.mem_cons_self)
      · intro b hb
        have hfault := not_faulty_of_parse hb (.unclosed o inside) (by simp [split_of_cuts h nofun])
        cases hfault
    · obtain ⟨as, rest, htext⟩ := first_eq_text_of_stray hu hstray hnothing
      exact ⟨as, (Prod.mk.inj (hfirst.symm.trans htext)).1⟩
  · rw [hcs]
    rintro ds hds hopen
    obtain ⟨rfl, rfl⟩ := List.cons.inj hds
    exact ⟨(Prod.mk.inj (hfirst.symm.trans (first_eq_brace hopen))).1, isLongest_brace hopen⟩
  · by_cases htext : ∃ as, s = .text as
    · obtain ⟨as, rfl⟩ := htext
      obtain ⟨us, vs, start, hmem, hstart⟩ := exists_text_of_cuts h
      exact .inr ⟨us, as, vs, start, rfl, hmem, hstart⟩
    · exact .inl (exists_tokenize_of_cuts h fun as e => htext ⟨as, e⟩)

/-- A tag is closed behind the string that holds what would close it. -/
theorem tag_around_string_is_recognised :
    let source := "a\x7b\x7b \"\x7d\x7d\" \x7d\x7d"
    let tag := Segment.tag .output " \"\x7d\x7d\" ".toList
    cuts source.toList = [.text ['a']] ++ tag :: [] ∧ Recognised source 1 tag [] := by
  intro source tag
  have h : cuts source.toList = [.text ['a']] ++ tag :: [] := by decide +kernel
  exact ⟨h, tags_are_recognised h⟩

/-- Not every opening without an end is reported: a brace and two percent signs are text. -/
theorem stray_percent_signs_not_reported :
    ¬ ∀ (source : String) (earlier later : List Segment) (s : Segment),
      cuts source.toList = earlier ++ s :: later →
        ∀ o ∈ openers, o <+: s.chars ++ later.flatMap Segment.chars →
          FindsNothing (s.chars ++ later.flatMap Segment.chars) →
            (∃ inside, s = .unclosed o inside) ∧ ∀ b, parse source ≠ .ok b := by
  intro h
  have hcuts : cuts "\x7b%%x".toList = [] ++ .text ['{', '%'] :: [.text ['%', 'x']] := by
    decide +kernel
  have hnothing : FindsNothing ['{', '%', '%', 'x'] := findsNothing_iff.2 (by decide +kernel)
  obtain ⟨⟨_, hopen⟩, -⟩ := h _ _ _ _ hcuts ['{', '%'] (by decide) (by decide) hnothing
  cases hopen

end Stencil
