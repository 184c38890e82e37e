import Mathlib.Tactic.SplitIfs
import Stencil.Proofs.Printing.Found

/-!
# What tokens spell

The characters of a lexeme are those that are written for its token. Main statement:
`spells_of_mem_ofSource`, on the lexemes of a source; those of the body of a tag are told apart from
others by `isInner_of_mem_ofTagBody`.
-/

namespace Stencil

open Text

namespace Token

/-- Whether a token opens a tag. -/
def isOpener : Token → Bool
  | .outputOpen | .rawOpen | .blockOpen => true
  | _ => false

/-- Whether a token can stand between the one that opens a tag and the one that closes it. -/
def isInner : Token → Bool
  | .text _ | .unclosed _ | .outputOpen | .rawOpen | .blockOpen | .tagClose => false
  | _ => true

/-- The characters are written for the token. A tag that is not closed has a token for its first two
bytes. -/
def Spells : Token → List Char → Prop
  | .text s, cs | .unknown s, cs | .ident s, cs => s.toList = cs
  | .unclosed opener, cs => opener.toList = cs.take 2 ∧ byteLength opener.toList = 2
  | .outputOpen, cs => cs = TagForm.output.opener
  | .rawOpen, cs => cs = TagForm.raw.opener
  | .blockOpen, cs => cs = TagForm.block.opener
  | .tagClose, cs => ∃ form : TagForm, cs = form.closer
  | .kwIf, cs => cs = "if".toList
  | .kwUnless, cs => cs = "unless".toList
  | .kwElse, cs => cs = "else".toList
  | .kwEnd, cs => cs = "end".toList
  | .dot, cs => cs = ['.']
  | .comma, cs => cs = [',']
  | .parenOpen, cs => cs = ['(']
  | .parenClose, cs => cs = [')']
  | .str s, cs => ∃ q inside, Segment.isQuote q = true ∧ cs = q :: inside ++ [q] ∧
      s = String.ofList (Quoted.decode inside)
  | .int n, cs => Lexeme.intOfChars cs = n

end Token

namespace Segment

variable {c : Char} {cs : List Char} {s : Segment}

/-- A segment of a source is a text, or the first one of what is left of the source somewhere. -/
theorem text_or_first_of_mem_split (h : s ∈ split cs) :
    (∃ t, t ≠ [] ∧ s = .text t) ∨ ∃ c ds, s = (first c ds).1 := by
  obtain ⟨before, after, h⟩ := List.append_of_mem h
  obtain ⟨ds, hds⟩ := exists_suffix_of_split h
  cases ds with
  | nil =>
    rw [split_nil] at hds
    cases hds
  | cons c ds =>
    rcases cons_cases (first c ds).1 (split (first c ds).2) with ⟨as, bs, _, -, -, hc⟩ | ⟨hc, -⟩
    · have hs := hc.symm.trans ((split_cons c ds).symm.trans hds)
      cases hs
      exact .inl ⟨_, ne_nil_of_split hds, rfl⟩
    · have hs := hc.symm.trans ((split_cons c ds).symm.trans hds)
      exact .inr ⟨c, ds, (List.cons.inj hs).1.symm⟩

/-- Two texts are never next to one another. -/
theorem split_ne_texts {before after : List Segment} {as bs : List Char} :
    split cs ≠ before ++ .text as :: .text bs :: after := by
  intro h
  obtain ⟨ds, hds⟩ := exists_suffix_of_split h
  obtain ⟨es, -, hes, hapart, -⟩ := eq_append_of_split hds
  exact hapart bs after hes

/-- What is taken for unclosed is one of three openings, each of which takes two bytes. -/
theorem unclosed_of_first {opener body : List Char} (h : (first c cs).1 = .unclosed opener body) :
    opener ∈ [['{', '{'], ['{', '%'], ['{', '#']] := by
  unfold first afterRawBraces afterBraces afterPercent afterHash at h
  repeat' split at h
  all_goals cases h
  all_goals simp

/-- A comment ends at the first mark that ends one. -/
theorem comment?_first {inside rest : List Char} (h : comment? cs = some (inside, rest)) :
    ¬ ['#', '}'] <:+: inside ++ ['#'] := by
  fun_induction comment? cs generalizing inside with
  | case1 cs =>
    cases h
    decide
  | case2 c cs hne ih =>
    obtain ⟨p, hp, e⟩ := Option.map_eq_some_iff.1 h
    cases e
    rw [List.cons_append, List.infix_cons_iff, not_or]
    refine ⟨?_, ih hp⟩
    rintro ⟨more, hmark⟩
    obtain ⟨rfl, hmore⟩ := List.cons.inj hmark
    -- The mark would have been found at the number sign.
    have happend := append_of_comment? hp
    cases hinside : p.1 with
    | nil => simp [hinside] at hmore
    | cons d ds =>
      rw [hinside] at hmore happend
      obtain ⟨rfl, -⟩ := List.cons.inj hmore
      exact hne _ rfl happend.symm
  | case3 => cases h

/-- A comment among the first segments ends at the first mark that ends one. -/
theorem comment_of_first {body : List Char} (h : (first c cs).1 = .comment body) :
    ¬ ['#', '}'] <:+: body ++ ['#'] := by
  unfold first afterRawBraces afterBraces afterPercent afterHash at h
  repeat' split at h
  all_goals cases h
  rename_i hcomment
  exact comment?_first hcomment

end Segment

namespace Lexeme

variable {l : Lexeme} {t : Token} {c : Char} {cs : List Char}

/-! ### What lexemes spell -/

/-- A word is spelled as it stands. -/
theorem spells_word (cs : List Char) : (word cs).Spells cs ∧ (word cs).isInner = true := by
  have htoList : (String.ofList cs).toList = cs := String.toList_ofList
  unfold word
  dsimp only
  split_ifs with h₁ h₂ h₃ h₄
  · exact ⟨by rw [Token.Spells, ← h₁, htoList], rfl⟩
  · exact ⟨by rw [Token.Spells, ← h₂, htoList], rfl⟩
  · exact ⟨by rw [Token.Spells, ← h₃, htoList], rfl⟩
  · exact ⟨by rw [Token.Spells, ← h₄, htoList], rfl⟩
  · exact ⟨htoList, rfl⟩

/-- A number is spelled as it stands, whether or not it fits in a word. -/
theorem spells_number (cs : List Char) : (number cs).Spells cs ∧ (number cs).isInner = true := by
  unfold number
  split_ifs
  · exact ⟨rfl, rfl⟩
  · exact ⟨String.toList_ofList, rfl⟩

/-- A sign is spelled as it stands, whether or not it is known. -/
theorem spells_sign (c : Char) : (sign c).Spells [c] ∧ (sign c).isInner = true := by
  unfold sign
  split_ifs with h₁ h₂ h₃ h₄
  · exact ⟨congrArg (fun c => [c]) h₁, rfl⟩
  · exact ⟨congrArg (fun c => [c]) h₂, rfl⟩
  · exact ⟨congrArg (fun c => [c]) h₃, rfl⟩
  · exact ⟨congrArg (fun c => [c]) h₄, rfl⟩
  · exact ⟨String.toList_ofList, rfl⟩

/-- The lexeme is a run of blanks, or spells a token that can stand within a tag. -/
def IsInner (l : Lexeme) : Prop :=
  l.chars ≠ [] ∧ (l.token? = none ∧ (∀ c ∈ l.chars, isSeparator c = true) ∨
    ∃ t, l.token? = some t ∧ t.Spells l.chars ∧ t.isInner = true)

/-- The first lexeme of the body of a tag is one of those that stand within tags. -/
theorem isInner_first (c : Char) (cs : List Char) : (first c cs).1.IsInner := by
  refine ⟨first_ne_nil c cs, ?_⟩
  unfold first
  split_ifs with hsep hstart hdigit hquote
  · exact .inl ⟨rfl, List.forall_mem_cons.2 ⟨hsep, List.all_eq_true.1 List.all_takeWhile⟩⟩
  · exact .inr ⟨_, rfl, spells_word _⟩
  · exact .inr ⟨_, rfl, spells_number _⟩
  · split
    · exact .inr ⟨_, rfl, ⟨c, _, hquote, rfl, rfl⟩, rfl⟩
    · exact .inr ⟨_, rfl, spells_sign c⟩
  · exact .inr ⟨_, rfl, spells_sign c⟩

/-- The lexemes of the body of a tag are those that stand within tags. -/
theorem isInner_of_mem_ofTagBody (h : l ∈ ofTagBody cs) : l.IsInner := by
  fun_induction ofTagBody cs with
  | case1 => cases h
  | case2 c cs _ ih =>
    rcases List.mem_cons.1 h with rfl | h
    · exact isInner_first c cs
    · exact ih h

/-- The token of a lexeme in the body of a tag can stand there. -/
theorem isInner_of_token? {xs ys : List Lexeme} (h : ofTagBody cs = xs ++ l :: ys)
    (ht : l.token? = some t) : t.isInner = true := by
  have hl : l ∈ ofTagBody cs := h ▸ List.mem_append_right xs List.mem_cons_self
  obtain ⟨-, ⟨hnone, -⟩ | ⟨u, hu, -, hinner⟩⟩ := isInner_of_mem_ofTagBody hl
  · cases hnone.symm.trans ht
  · cases hu.symm.trans ht
    exact hinner

/-- A lexeme of a source takes at least one byte, and spells its token. -/
theorem spells_of_mem_ofSource (h : l ∈ ofSource cs) :
    l.chars ≠ [] ∧ ∀ t, l.token? = some t → t.Spells l.chars := by
  rw [ofSource, List.mem_flatMap] at h
  obtain ⟨s, hs, h⟩ := h
  have hs := Segment.text_or_first_of_mem_split hs
  cases s with
  | text t =>
    rw [ofSegment, List.mem_singleton] at h
    subst h
    refine ⟨?_, ?_⟩
    · rcases hs with ⟨u, hu, he⟩ | ⟨c, ds, hc⟩
      · cases he
        exact hu
      · have hne := Segment.first_ne_nil c ds
        rwa [← hc] at hne
    · rintro _ ⟨⟩
      exact String.toList_ofList
  | comment body =>
    rw [ofSegment, List.mem_singleton] at h
    subst h
    refine ⟨List.cons_ne_nil _ _, ?_⟩
    rintro _ ⟨⟩
  | tag form body =>
    rw [ofSegment, List.mem_append, List.mem_cons, List.mem_singleton] at h
    rcases h with (rfl | h) | rfl
    · refine ⟨?_, ?_⟩
      · cases form <;> exact List.cons_ne_nil _ _
      · rintro _ ⟨⟩
        cases form <;> exact rfl
    · obtain ⟨hne, ⟨hnone, -⟩ | ⟨u, hu, hspells, -⟩⟩ := isInner_of_mem_ofTagBody h
      · refine ⟨hne, fun t ht => ?_⟩
        cases hnone.symm.trans ht
      · refine ⟨hne, fun t ht => ?_⟩
        cases hu.symm.trans ht
        exact hspells
    · refine ⟨?_, ?_⟩
      · cases form <;> exact List.cons_ne_nil _ _
      · rintro _ ⟨⟩
        exact ⟨form, rfl⟩
  | unclosed opener body =>
    rw [ofSegment, List.mem_singleton] at h
    subst h
    obtain ⟨c, ds, hc⟩ : ∃ c ds, Segment.unclosed opener body = (Segment.first c ds).1 := by
      rcases hs with ⟨_, -, he⟩ | hs
      · cases he
      · exact hs
    have hopener := Segment.unclosed_of_first hc.symm
    simp only [List.mem_cons, List.not_mem_nil, or_false] at hopener
    rcases hopener with rfl | rfl | rfl
    all_goals
      refine ⟨List.cons_ne_nil _ _, ?_⟩
      rintro _ ⟨⟩
      exact ⟨rfl, by decide⟩

end Lexeme
end Stencil
