import Stencil.Proofs.Commenting.Hanging
import Stencil.Proofs.Commenting.Letters
import Stencil.Proofs.Joining.Refused

/-!
# Comments

A comment between tags, comments and openings changes nothing about a template, unless it stands behind
an opening that hangs. Main statement: `comments_are_invisible`.
-/

namespace Stencil

namespace Segment

variable {cs ds inside : List Char}

/-- The tokens of segments with each text in letters. -/
def letters (xs : List Segment) : List Token := (xs.flatMap tokens).flatMap Token.letters

/-- Texts that are joined have the letters of both. -/
theorem letters_cons (s : Segment) (xs : List Segment) :
    letters (cons s xs) = letters [s] ++ letters xs := by
  rcases cons_cases s xs with ⟨as, bs, after, rfl, rfl, hcons⟩ | ⟨hcons, -⟩
  · rw [hcons]
    simp [letters, tokens, Lexeme.ofSegment, Token.letters]
  · rw [hcons]
    simp [letters]

/-- Segments that are put in front of others keep their letters. -/
theorem letters_foldr_cons (xs ys : List Segment) :
    letters (xs.foldr cons ys) = letters xs ++ letters ys := by
  induction xs with
  | nil => rfl
  | cons x xs ih =>
    rw [List.foldr_cons, letters_cons, ih, ← List.append_assoc]
    simp [letters]

/-- A comment is a segment of its own. -/
theorem split_comment (h : ¬ ['#', '}'] <:+: inside) (ds : List Char) :
    split ((comment inside).chars ++ ds) = .comment inside :: split ds := by
  have hfirst : first '{' ('#' :: (inside ++ '#' :: '}' :: ds)) = (.comment inside, ds) := by
    show afterHash (inside ++ '#' :: '}' :: ds) = _
    rw [afterHash, comment?_of_noMark h]
  have hchars : (comment inside).chars ++ ds = '{' :: '#' :: (inside ++ '#' :: '}' :: ds) := by
    simp [chars]
  rw [hchars, split_cons, hfirst]
  rfl

/-- Where no opening hangs, a comment adds no letters. -/
theorem letters_split_comment (h : Between cs ds) (hh : hangs cs = false)
    (hc : ¬ ['#', '}'] <:+: inside) :
    letters (split (cs ++ ((comment inside).chars ++ ds))) = letters (split (cs ++ ds)) := by
  obtain ⟨hrest, hothers⟩ := split_append_of_not_hangs h hh
  have hopening : ∃ r, (comment inside).chars ++ ds = '{' :: r := ⟨_, rfl⟩
  rw [hothers _ (.inr hopening), hrest, split_comment hc, letters_foldr_cons, letters_foldr_cons]
  rfl

end Segment

open Segment

/-- Two parts of a source with a comment between them. -/
def withComment (a c b : String) : String := a ++ ("\x7b#" ++ c ++ "#\x7d") ++ b

/-- The characters of a source with a comment. -/
theorem toList_withComment (a c b : String) :
    (withComment a c b).toList = a.toList ++ ((comment c.toList).chars ++ b.toList) := by
  simp [withComment, chars]

variable {a b c : String}

/-- A comment can be put where the tokens leave nothing open and no tag, no comment and no brace is. -/
theorem between_of_tokens (hclosed : ∀ opener, .unclosed opener ∉ Grammar.items (tokenize (a ++ b)))
    (houtside : isInside a.toList.length (split (a ++ b).toList) = false)
    (hbehind : a.toList.getLast? ≠ some '{') : Between a.toList b.toList := by
  refine ⟨fun opener body hmem => ?_, by rwa [String.toList_append] at houtside, hbehind⟩
  rw [← String.toList_append] at hmem
  obtain ⟨xs, ys, hitems⟩ := exists_items_of_mem_split hmem
  refine hclosed (String.ofList opener) ?_
  rw [hitems]
  simp [tokens, Lexeme.ofSegment]

/-- Where no opening hangs, a source has the same letters with a comment and without. -/
theorem letters_withComment (h : Between a.toList b.toList) (hh : hangs a.toList = false)
    (hc : ¬ ['#', '}'] <:+: c.toList) :
    (Grammar.items (tokenize (withComment a c b))).flatMap Token.letters =
      (Grammar.items (tokenize (a ++ b))).flatMap Token.letters := by
  have hletters := letters_split_comment h hh hc
  rw [← toList_withComment, ← String.toList_append] at hletters
  rw [items_tokenize, items_tokenize, sourceTokens_eq, sourceTokens_eq]
  exact hletters

/-- Let a source leave no opening without an end. A comment that is put into it, neither strictly inside
a tag or a comment nor right behind an opening brace, does not change whether it is a template, nor
whether it compiles, nor what it is rendered to, unless an opening hangs in front of the comment. If one
does, then some comment makes a source that is no template of a template. -/
theorem comments_are_invisible (a b : String)
    (hclosed : ∀ opener, .unclosed opener ∉ Grammar.items (tokenize (a ++ b)))
    (houtside : isInside a.toList.length (split (a ++ b).toList) = false)
    (hbehind : a.toList.getLast? ≠ some '{') :
    (hangs a.toList = false → ∀ c : String, ¬ ['#', '}'] <:+: c.toList →
      ((∃ y, parse (withComment a c b) = .ok y) ↔ ∃ x, parse (a ++ b) = .ok x) ∧
      ∀ kind f, Handler.html.call ⟨withComment a c b, kind⟩ = .ok f ↔
        Handler.html.call ⟨a ++ b, kind⟩ = .ok f) ∧
    (hangs a.toList = true → ∃ c : String, ¬ ['#', '}'] <:+: c.toList ∧
      ¬ ∃ y, parse (withComment a c b) = .ok y) := by
  have hbetween := between_of_tokens hclosed houtside hbehind
  constructor
  · intro hh c hc
    have hletters := letters_withComment hbetween hh hc
    refine ⟨⟨?_, ?_⟩, fun kind f => ⟨?_, ?_⟩⟩
    · rintro ⟨y, hy⟩
      obtain ⟨x, hx, -⟩ := exists_parse_of_letters hy hletters
      exact ⟨x, hx⟩
    · rintro ⟨x, hx⟩
      obtain ⟨y, hy, -⟩ := exists_parse_of_letters hx hletters.symm
      exact ⟨y, hy⟩
    · intro hf
      exact compileHtml_of_letters hf hletters
    · intro hf
      exact compileHtml_of_letters hf hletters.symm
  · intro hh
    obtain ⟨inside, hinside, hfault⟩ := exists_comment_of_hangs hbetween hh
    refine ⟨String.ofList inside, by rwa [String.toList_ofList], ?_⟩
    rintro ⟨y, hy⟩
    refine hfault ?_
    have hclean := not_faulty_of_parse hy
    rwa [toList_withComment, String.toList_ofList] at hclean

/-- A source that is one text compiles to what prints the text. -/
theorem call_html_of_text {source s : String} {p : Span} (kind : String)
    (h : tokenize source = [⟨.text s, p⟩]) :
    Handler.html.call ⟨source, kind⟩ = .ok fun _ => .ok ⟨s⟩ := by
  have hparse : parse source = .ok (.text p s .nil) := by
    apply parse_of_nodes
    rw [h]
    exact .text .nil
  have hrender : ∀ scope, (Body.text p s .nil).render scope = .ok ⟨s⟩ := by
    intro scope
    rw [Body.render_text]
    show (Except.ok ⟨s ++ ""⟩ : Except Failure Markup) = _
    rw [String.append_empty]
  exact Handler.compileHtml_eq_ok.2 ⟨_, hparse, rfl, funext hrender⟩

/-- Behind three braces that are never closed a comment is printed as text. -/
theorem comment_behind_stray_braces_is_printed :
    ¬ ∀ a b c : String, (∀ opener, .unclosed opener ∉ Grammar.items (tokenize (a ++ b))) →
      isInside a.toList.length (split (a ++ b).toList) = false → a.toList.getLast? ≠ some '{' →
      ¬ ['#', '}'] <:+: c.toList → ∀ kind f, Handler.html.call ⟨a ++ b, kind⟩ = .ok f →
        Handler.html.call ⟨withComment a c b, kind⟩ = .ok f := by
  intro h
  have without : tokenize ("\x7b\x7b\x7bx" ++ "") = [⟨.text "\x7b\x7b\x7bx", ⟨0, 4⟩⟩] := by
    decide +kernel
  have behind : tokenize (withComment "\x7b\x7b\x7bx" "" "") =
      [⟨.text "\x7b\x7b\x7bx\x7b##\x7d", ⟨0, 8⟩⟩] := by
    decide +kernel
  have closed : ∀ opener,
      .unclosed opener ∉ Grammar.items (tokenize ("\x7b\x7b\x7bx" ++ "")) := by
    rw [without]
    simp [Grammar.items]
  have hsame := h "\x7b\x7b\x7bx" "" "" closed (by decide +kernel) (by decide +kernel)
    (by decide +kernel) "html" _ (call_html_of_text "html" without)
  rw [call_html_of_text "html" behind, Except.ok.injEq] at hsame
  have hprinted := congrFun hsame ⟨"", ⟨[]⟩, none, .empty⟩
  rw [Except.ok.injEq, Markup.mk.injEq] at hprinted
  exact absurd hprinted (by decide +kernel)

/-- A comment that holds the openings of tags and a quote does nothing between a text and a tag, and
some comment does something behind three braces that are never closed. -/
theorem comment_in_front_of_tag_is_invisible :
    ((∃ y, parse (withComment "a" "\x7b\x7b \x7b% ' #" "\x7b\x7b b \x7d\x7d") = .ok y) ↔
      ∃ x, parse ("a" ++ "\x7b\x7b b \x7d\x7d") = .ok x) ∧
    ∃ c : String, ¬ ['#', '}'] <:+: c.toList ∧
      ¬ ∃ y, parse (withComment "\x7b\x7b\x7bx" c "") = .ok y := by
  constructor
  · have tokens : Grammar.items (tokenize ("a" ++ "\x7b\x7b b \x7d\x7d")) =
        [.text "a", .outputOpen, .ident "b", .tagClose] := by
      decide +kernel
    have closed : ∀ opener,
        .unclosed opener ∉ Grammar.items (tokenize ("a" ++ "\x7b\x7b b \x7d\x7d")) := by
      rw [tokens]
      simp
    have hinvisible := (comments_are_invisible "a" "\x7b\x7b b \x7d\x7d" closed
      (by decide +kernel) (by decide +kernel)).1 (by decide +kernel)
    exact (hinvisible "\x7b\x7b \x7b% ' #" (by decide +kernel)).1
  · have tokens : Grammar.items (tokenize ("\x7b\x7b\x7bx" ++ "")) = [.text "\x7b\x7b\x7bx"] := by
      decide +kernel
    have closed : ∀ opener,
        .unclosed opener ∉ Grammar.items (tokenize ("\x7b\x7b\x7bx" ++ "")) := by
      rw [tokens]
      simp
    exact (comments_are_invisible "\x7b\x7b\x7bx" "" closed (by decide +kernel)
      (by decide +kernel)).2 (by decide +kernel)

end Stencil
