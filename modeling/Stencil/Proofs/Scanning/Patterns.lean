import Mathlib.Computability.Language
import Mathlib.Data.List.Chain
import Stencil.Proofs.Scanning.Pieces

/-!
# The patterns of segments

The parts of a source are described by patterns: regular languages, of which the longest match counts.
Main statements: `mem_bodies` and `mem_comments`, which tell what the patterns of tags and comments
match. The body of a tag is made of what the search for its end steps over, and a comment runs to the
first mark that ends one.
-/

namespace Stencil

open Computability

/-- The patterns by which a source is cut: tags of each form, comments, runs of text, the openings of
tags and comments, and braces. -/
inductive Pattern where
  | tag (form : TagForm)
  | comment
  | text
  | opener
  | brace

namespace Pattern

/-- The single characters that have a property. -/
def oneOf (f : Char → Prop) : Language Char := {cs | ∃ c, f c ∧ cs = [c]}

/-- What can stand between quotes `q`. -/
def insides (q : Char) : Language Char :=
  (oneOf (fun c => c ≠ q ∧ c ≠ '\\') + {['\\']} * oneOf (· ≠ '\n'))∗

/-- The strings between quotes `q`. -/
def strings (q : Char) : Language Char := {[q]} * insides q * {[q]}

/-- The bodies of the tags whose end begins with the mark. -/
def bodies (mark : Char) : Language Char :=
  (oneOf (fun c => c ≠ mark ∧ c ≠ '"' ∧ c ≠ '\'') + strings '"' + strings '\'')∗

/-- Characters other than number signs, and one number sign or more behind them. -/
def toSigns : Language Char := (oneOf (· ≠ '#'))∗ * (oneOf (· = '#') * (oneOf (· = '#'))∗)

/-- What goes on behind number signs that do not end a comment. -/
def further : Language Char := oneOf (fun c => c ≠ '#' ∧ c ≠ '}') * toSigns

/-- The comments: what stands in them runs up to number signs, and from there to others. -/
def comments : Language Char := {['{', '#']} * (toSigns * further∗) * {['}']}

/-- What opens a tag or a comment. -/
def openers : List (List Char) := [['{', '{'], ['{', '%'], ['{', '#']]

/-- The characters that a pattern matches. -/
def language : Pattern → Language Char
  | .tag form => {form.opener} * bodies form.mark * {form.closer}
  | .comment => comments
  | .text => oneOf (· ≠ '{') * (oneOf (· ≠ '{'))∗
  | .opener => {cs | cs ∈ openers}
  | .brace => {['{']}

variable {f : Char → Prop} {q c mark : Char} {cs ds inside : List Char} {l : Language Char}

/-! ### Words of languages -/

/-- A word of one character. -/
theorem singleton_mem_oneOf {f : Char → Prop} (h : f c) : [c] ∈ oneOf f := ⟨c, h, rfl⟩

/-- A character and a word behind it. -/
theorem mem_oneOf_mul : cs ∈ oneOf f * l ↔ ∃ c ds, f c ∧ ds ∈ l ∧ cs = c :: ds := by
  constructor
  · intro h
    obtain ⟨_, ⟨c, hc, rfl⟩, ds, hds, rfl⟩ := Language.mem_mul.1 h
    exact ⟨c, ds, hc, hds, rfl⟩
  · rintro ⟨c, ds, hc, hds, rfl⟩
    exact Language.append_mem_mul (singleton_mem_oneOf hc) hds

/-- A word between two given ones. -/
theorem mem_between {as bs : List Char} :
    cs ∈ ({as} * l * {bs} : Language Char) ↔ ∃ ds ∈ l, cs = as ++ ds ++ bs := by
  constructor
  · intro h
    obtain ⟨_, hfront, _, rfl, rfl⟩ := Language.mem_mul.1 h
    obtain ⟨_, rfl, ds, hds, rfl⟩ := Language.mem_mul.1 hfront
    exact ⟨ds, hds, rfl⟩
  · rintro ⟨ds, hds, rfl⟩
    exact Language.append_mem_mul (Language.append_mem_mul rfl hds) rfl

/-- A word in front of repeated ones. -/
theorem append_mem_kstar (hc : cs ∈ l) (hd : ds ∈ l∗) : cs ++ ds ∈ l∗ := by
  rw [← Language.one_add_self_mul_kstar_eq_kstar]
  exact .inr (Language.append_mem_mul hc hd)

/-- What holds without a word, and with one more word in front, holds of repeated words. -/
@[elab_as_elim]
theorem kstar_induction {P : List Char → Prop} (h : cs ∈ l∗) (hnil : P [])
    (happend : ∀ cs ∈ l, ∀ ds, P ds → P (cs ++ ds)) : P cs := by
  obtain ⟨words, rfl, hwords⟩ := Language.mem_kstar.1 h
  clear h
  induction words with
  | nil => exact hnil
  | cons word words ih =>
    obtain ⟨hword, hwords⟩ := List.forall_mem_cons.1 hwords
    exact happend word hword _ (ih hwords)

/-- Repeated single characters. -/
theorem mem_kstar_oneOf : cs ∈ (oneOf f)∗ ↔ ∀ c ∈ cs, f c := by
  constructor
  · intro h
    refine kstar_induction h (List.forall_mem_nil _) ?_
    rintro _ ⟨c, hc, rfl⟩ ds ih
    exact List.forall_mem_cons.2 ⟨hc, ih⟩
  · intro h
    induction cs with
    | nil => exact Language.nil_mem_kstar _
    | cons c cs ih =>
      obtain ⟨hc, hcs⟩ := List.forall_mem_cons.1 h
      exact append_mem_kstar (singleton_mem_oneOf hc) (ih hcs)

/-! ### Strings and bodies -/

/-- The pattern of strings takes between the quotes what can stand there. -/
theorem mem_insides : inside ∈ insides q ↔ Quoted.Enclosed q inside := by
  constructor
  · intro h
    refine kstar_induction h .nil ?_
    rintro word (⟨c, ⟨hq, hb⟩, rfl⟩ | hescaped) ds ih
    · exact .char hq hb ih
    · obtain ⟨_, rfl, _, ⟨c, hc, rfl⟩, rfl⟩ := Language.mem_mul.1 hescaped
      exact .escaped hc ih
  · intro h
    induction h with
    | nil => exact Language.nil_mem_kstar _
    | char hq hb _ ih => exact append_mem_kstar (.inl (singleton_mem_oneOf ⟨hq, hb⟩)) ih
    | @escaped c _ hc _ ih =>
      have hword : ['\\', c] ∈ {['\\']} * oneOf (· ≠ '\n') :=
        Language.append_mem_mul (a := ['\\']) rfl ⟨c, hc, rfl⟩
      exact append_mem_kstar (.inr hword) ih

/-- The pattern of strings. -/
theorem mem_strings :
    cs ∈ strings q ↔ ∃ inside, Quoted.Enclosed q inside ∧ cs = (Piece.string q inside).chars := by
  rw [strings, mem_between]
  simp only [mem_insides]
  rfl

/-- The quotes are the two characters that the patterns name. -/
theorem isQuote_iff : Segment.isQuote c = true ↔ c = '"' ∨ c = '\'' := by
  simp [Segment.isQuote]

/-- The characters that are no quotes. -/
theorem isQuote_eq_false_iff : Segment.isQuote c = false ↔ c ≠ '"' ∧ c ≠ '\'' := by
  rw [← Bool.not_eq_true, isQuote_iff, not_or]

/-- The words of which bodies are made are the pieces that are stepped over. -/
theorem mem_words :
    cs ∈ oneOf (fun c => c ≠ mark ∧ c ≠ '"' ∧ c ≠ '\'') + strings '"' + strings '\'' ↔
      ∃ p : Piece, p.Passes mark ∧ cs = p.chars := by
  constructor
  · rintro ((⟨c, ⟨hm, hq⟩, rfl⟩ | hstring) | hstring)
    · exact ⟨.char c, ⟨hm, isQuote_eq_false_iff.2 hq⟩, rfl⟩
    · obtain ⟨inside, henclosed, rfl⟩ := mem_strings.1 hstring
      exact ⟨.string '"' inside, ⟨rfl, henclosed⟩, rfl⟩
    · obtain ⟨inside, henclosed, rfl⟩ := mem_strings.1 hstring
      exact ⟨.string '\'' inside, ⟨rfl, henclosed⟩, rfl⟩
  · rintro ⟨p, hp, rfl⟩
    cases p with
    | char c => exact .inl (.inl (singleton_mem_oneOf ⟨hp.1, isQuote_eq_false_iff.1 hp.2⟩))
    | string q inside =>
      rcases isQuote_iff.1 hp.1 with rfl | rfl
      · exact .inl (.inr (mem_strings.2 ⟨inside, hp.2, rfl⟩))
      · exact .inr (mem_strings.2 ⟨inside, hp.2, rfl⟩)

/-- The pattern of bodies matches what the search for the end of a tag steps over. -/
theorem mem_bodies : cs ∈ bodies mark ↔ IsBody mark cs := by
  constructor
  · intro h
    refine kstar_induction h ⟨[], List.forall_mem_nil _, rfl⟩ ?_
    rintro word hword _ ⟨ps, hps, rfl⟩
    obtain ⟨p, hp, rfl⟩ := mem_words.1 hword
    exact ⟨p :: ps, List.forall_mem_cons.2 ⟨hp, hps⟩, rfl⟩
  · rintro ⟨ps, hps, rfl⟩
    induction ps with
    | nil => exact Language.nil_mem_kstar _
    | cons p ps ih =>
      obtain ⟨hp, hps⟩ := List.forall_mem_cons.1 hps
      exact append_mem_kstar (mem_words.2 ⟨p, hp, rfl⟩) (ih hps)

/-- The pattern of tags. -/
theorem mem_language_tag {form : TagForm} :
    cs ∈ (tag form).language ↔ ∃ body, IsBody form.mark body ∧ cs = (Segment.tag form body).chars := by
  rw [language, mem_between]
  simp only [mem_bodies]
  rfl

/-! ### Comments -/

/-- No closing brace stands right behind a number sign. -/
def Unmarked (cs : List Char) : Prop := cs.IsChain fun c d => ¬ (c = '#' ∧ d = '}')

/-- Where no closing brace stands right behind a number sign, there is no mark that ends a comment. -/
theorem unmarked_iff : Unmarked cs ↔ ¬ ['#', '}'] <:+: cs := by
  constructor
  · intro h hmark
    have hpair := h.infix hmark
    simp at hpair
  · intro h
    refine (List.isChain_isInfix cs).imp ?_
    rintro _ _ hpair ⟨rfl, rfl⟩
    exact h hpair

/-- Number signs hold no mark. -/
theorem unmarked_of_signs (h : ∀ c ∈ cs, c = '#') : Unmarked cs := by
  refine unmarked_iff.2 fun hmark => ?_
  exact absurd (h '}' (hmark.subset (by simp))) (by decide)

/-- A character that is no number sign makes no mark with those behind it. -/
theorem unmarked_cons (hc : c ≠ '#') : Unmarked (c :: cs) ↔ Unmarked cs := by
  rw [Unmarked, List.isChain_cons, and_iff_right]
  · rfl
  · exact fun _ _ h => hc h.1

/-- No mark lies across two parts if the first one ends with the number sign that the second one goes on
behind. -/
theorem unmarked_append :
    Unmarked (cs ++ '#' :: ds) ↔ Unmarked (cs ++ ['#']) ∧ Unmarked ('#' :: ds) :=
  List.isChain_split

/-- What runs up to number signs. -/
theorem mem_toSigns : cs ∈ toSigns ↔
    ∃ us ss, (∀ c ∈ us, c ≠ '#') ∧ (∀ c ∈ ss, c = '#') ∧ cs = us ++ '#' :: ss := by
  constructor
  · intro h
    obtain ⟨us, hus, vs, hvs, rfl⟩ := Language.mem_mul.1 h
    obtain ⟨c, ss, rfl, hss, rfl⟩ := mem_oneOf_mul.1 hvs
    exact ⟨us, ss, mem_kstar_oneOf.1 hus, mem_kstar_oneOf.1 hss, rfl⟩
  · rintro ⟨us, ss, hus, hss, rfl⟩
    exact Language.append_mem_mul (mem_kstar_oneOf.2 hus)
      (mem_oneOf_mul.2 ⟨'#', ss, rfl, mem_kstar_oneOf.2 hss, rfl⟩)

/-- What runs up to number signs holds no mark and ends with such a sign. -/
theorem unmarked_of_mem_toSigns (h : cs ∈ toSigns) : Unmarked cs ∧ ∃ as, cs = as ++ ['#'] := by
  obtain ⟨us, ss, hus, hss, rfl⟩ := mem_toSigns.1 h
  clear h
  have hsigns : ∀ c ∈ '#' :: ss, c = '#' := List.forall_mem_cons.2 ⟨rfl, hss⟩
  constructor
  · induction us with
    | nil => exact unmarked_of_signs hsigns
    | cons u us ih =>
      obtain ⟨hu, hus⟩ := List.forall_mem_cons.1 hus
      exact (unmarked_cons hu).2 (ih hus)
  · obtain ⟨as, c, hlast⟩ := List.eq_nil_or_concat' ('#' :: ss) |>.resolve_left (List.cons_ne_nil _ _)
    obtain rfl := hsigns c (by simp [hlast])
    exact ⟨us ++ as, by rw [hlast, List.append_assoc]⟩

/-- What goes on behind number signs holds no mark, together with such a sign in front of it. -/
theorem unmarked_of_mem_further (h : cs ∈ further∗) :
    Unmarked ('#' :: cs) ∧ (cs = [] ∨ ∃ as, cs = as ++ ['#']) := by
  refine kstar_induction h ⟨unmarked_of_signs (by simp), .inl rfl⟩ ?_
  rintro word hword ds ⟨hds, hlast⟩
  obtain ⟨c, _, ⟨hsign, hbrace⟩, hsigns, rfl⟩ := mem_oneOf_mul.1 hword
  obtain ⟨hunmarked, as, rfl⟩ := unmarked_of_mem_toSigns hsigns
  rw [List.cons_append, List.append_assoc, List.singleton_append]
  constructor
  · rw [Unmarked, List.isChain_cons_cons]
    exact ⟨fun e => hbrace e.2, (unmarked_cons hsign).2 (unmarked_append.2 ⟨hunmarked, hds⟩)⟩
  · rcases hlast with rfl | ⟨bs, rfl⟩
    · exact .inr ⟨c :: as, rfl⟩
    · exact .inr ⟨c :: as ++ '#' :: bs, by simp⟩

/-- A number sign in front of what goes on behind number signs. -/
theorem sign_mem (h : cs ∈ further∗) : '#' :: cs ∈ toSigns * further∗ := by
  have hsign : ['#'] ∈ toSigns := mem_toSigns.2 ⟨[], [], by simp, by simp, rfl⟩
  exact Language.append_mem_mul hsign h

/-- Characters up to a number sign that hold no mark are what a comment has in front of its last brace.
-/
theorem mem_of_unmarked (h : Unmarked (cs ++ ['#'])) : cs ++ ['#'] ∈ toSigns * further∗ := by
  induction cs with
  | nil => exact sign_mem (Language.nil_mem_kstar _)
  | cons c cs ih =>
    rw [List.cons_append] at h ⊢
    obtain ⟨hfirst, hrest⟩ := List.isChain_cons.1 h
    obtain ⟨ts, hts, vs, hvs, happend⟩ := Language.mem_mul.1 (ih hrest)
    obtain ⟨us, ss, hus, hss, rfl⟩ := mem_toSigns.1 hts
    rw [← happend] at hfirst ⊢
    -- A sign joins signs behind it, and else begins a run to which what follows goes on.
    by_cases hc : c = '#'
    · subst hc
      cases us with
      | nil =>
        have hmore : ∀ c ∈ '#' :: ss, c = '#' := List.forall_mem_cons.2 ⟨rfl, hss⟩
        exact Language.append_mem_mul (mem_toSigns.2 ⟨[], '#' :: ss, hus, hmore, rfl⟩) hvs
      | cons u us =>
        obtain ⟨hu, hus⟩ := List.forall_mem_cons.1 hus
        have hbrace : u ≠ '}' := fun e => hfirst u rfl ⟨rfl, e⟩
        have hfurther : u :: (us ++ '#' :: ss) ∈ further :=
          mem_oneOf_mul.2 ⟨u, _, ⟨hu, hbrace⟩, mem_toSigns.2 ⟨us, ss, hus, hss, rfl⟩, rfl⟩
        exact sign_mem (append_mem_kstar hfurther hvs)
    · have hus : ∀ d ∈ c :: us, d ≠ '#' := List.forall_mem_cons.2 ⟨hc, hus⟩
      exact Language.append_mem_mul (mem_toSigns.2 ⟨c :: us, ss, hus, hss, rfl⟩) hvs

/-- The pattern of comments matches what runs to the first mark that ends a comment. -/
theorem mem_comments :
    cs ∈ comments ↔ ∃ body, ¬ ['#', '}'] <:+: body ∧ cs = (Segment.comment body).chars := by
  rw [comments, mem_between]
  constructor
  · rintro ⟨ds, hds, rfl⟩
    obtain ⟨_, hts, vs, hvs, rfl⟩ := Language.mem_mul.1 hds
    obtain ⟨hts, as, rfl⟩ := unmarked_of_mem_toSigns hts
    obtain ⟨hvs, hlast⟩ := unmarked_of_mem_further hvs
    have hunmarked := unmarked_append.2 ⟨hts, hvs⟩
    rcases hlast with rfl | ⟨bs, rfl⟩
    · exact ⟨as, unmarked_iff.1 hunmarked.left_of_append, by simp [Segment.chars]⟩
    · rw [← List.cons_append, ← List.append_assoc] at hunmarked
      exact ⟨as ++ '#' :: bs, unmarked_iff.1 hunmarked.left_of_append, by simp [Segment.chars]⟩
  · rintro ⟨body, hbody, rfl⟩
    refine ⟨body ++ ['#'], mem_of_unmarked ?_, by simp [Segment.chars]⟩
    refine List.isChain_append.2 ⟨unmarked_iff.2 hbody, .singleton _, ?_⟩
    rintro c - _ ⟨⟩ ⟨-, hbrace⟩
    cases hbrace

end Pattern

end Stencil
