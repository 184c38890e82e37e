import Mathlib.Tactic.SplitIfs
import Stencil.Proofs.Printing.Found
import Stencil.Proofs.Printing.Sources

/-!
# Trees that have been read

What the tokens of a source are like carries over to the tree that they describe. Main statements:
`Nodes.fits`, by which the expressions of the tree are well-formed, and its texts have each property
that the lexer grants to the texts that it finds; and `Nodes.of_text_mem`, by which no text
of the source is lost.
-/

namespace Stencil

/-- A token that is spelled as a token of its kind is: the names are identifiers, and the integers
fit in a word. -/
def Token.Spelled : Token → Prop
  | .ident name => isIdentifier name
  | .int n => Word.holdsInt n
  | _ => True

/-- Whether a token is text. -/
def Token.isText : Token → Bool
  | .text _ => true
  | _ => false

/-! ### Tokens of tags -/

section Tags

open Lexeme

/-- The token of a word is a keyword, or a name that is an identifier. -/
theorem spelled_word {c : Char} {cs : List Char} (hc : isIdentStart c = true)
    (hcs : cs.all isIdentPart = true) :
    (word (c :: cs)).Spelled ∧ (word (c :: cs)).isText = false := by
  have hword : word (c :: cs) ∈ [.kwIf, .kwUnless, .kwElse, .kwEnd] ∨
      word (c :: cs) = .ident (String.ofList (c :: cs)) := by
    simp only [word]
    split_ifs <;> simp
  rcases hword with h | h
  · simp only [List.mem_cons, List.not_mem_nil, or_false] at h
    rcases h with h | h | h | h
    all_goals exact h ▸ ⟨trivial, rfl⟩
  · have hname : isIdentifier (String.ofList (c :: cs)) = true := by
      rw [isIdentifier, String.toList_ofList]
      simp [hc, hcs, h]
    exact h ▸ ⟨hname, rfl⟩

/-- The token of a number is an integer that fits in a word, or nothing known. -/
theorem spelled_number (cs : List Char) : (number cs).Spelled ∧ (number cs).isText = false := by
  unfold number
  split_ifs with h
  · exact ⟨h, rfl⟩
  · exact ⟨trivial, rfl⟩

/-- The token of a sign is neither a name nor an integer. -/
theorem spelled_sign (c : Char) : (sign c).Spelled ∧ (sign c).isText = false := by
  unfold sign
  split_ifs
  all_goals exact ⟨trivial, rfl⟩

/-- The first token of the body of a tag is spelled as it should be, and is no text. -/
theorem spelled_first {c : Char} {cs : List Char} {t : Token} (h : (first c cs).1.token? = some t) :
    t.Spelled ∧ t.isText = false := by
  unfold first at h
  -- A blank stands for no token, so that four kinds of lexemes are left.
  split_ifs at h with hsep hstart hdigit hquote
  · cases h
    exact spelled_word hstart List.all_takeWhile
  · cases h
    exact spelled_number _
  · split at h
    · cases h
      exact ⟨trivial, rfl⟩
    · cases h
      exact spelled_sign c
  · cases h
    exact spelled_sign c

/-- The tokens of the body of a tag are spelled as they should be, and none of them is text. -/
theorem spelled_of_mem_tagTokens {cs : List Char} {t : Token} (h : t ∈ tagTokens cs) :
    t.Spelled ∧ t.isText = false := by
  fun_induction ofTagBody cs with
  | case1 =>
    rw [tagTokens_nil] at h
    cases h
  | case2 c cs _ ih =>
    rw [tagTokens_cons, List.mem_append] at h
    rcases h with h | h
    · exact spelled_first (Option.mem_toList.1 h)
    · exact ih h

end Tags

/-! ### Tokens of sources -/

/-- The tokens of a segment are spelled as they should be. Text is found in a text only. -/
theorem spelled_of_mem_tokens {s : Segment} {t : Token} (h : t ∈ s.tokens) :
    t.Spelled ∧ (t.isText = false ∨ ∃ cs, s = .text cs ∧ t = .text (String.ofList cs)) := by
  cases s with
  | text cs =>
    obtain rfl := List.mem_singleton.1 h
    exact ⟨trivial, .inr ⟨cs, rfl, rfl⟩⟩
  | comment body => cases h
  | tag form body =>
    have htag : Segment.tokens (.tag form body) =
        Lexeme.openToken form :: tagTokens body ++ [.tagClose] := by
      simp [Segment.tokens, Lexeme.ofSegment, tagTokens]
    simp only [htag, List.cons_append, List.mem_cons, List.mem_append, List.not_mem_nil,
      or_false] at h
    rcases h with rfl | h | rfl
    · cases form <;> exact ⟨trivial, .inl rfl⟩
    · obtain ⟨hs, ht⟩ := spelled_of_mem_tagTokens h
      exact ⟨hs, .inl ht⟩
    · exact ⟨trivial, .inl rfl⟩
  | unclosed opener body =>
    obtain rfl := List.mem_singleton.1 h
    exact ⟨trivial, .inl rfl⟩

/-- Text among the tokens of a segment is the segment. -/
theorem eq_text_of_mem_tokens {segment : Segment} {s : String} (h : .text s ∈ segment.tokens) :
    segment = .text s.toList := by
  obtain ⟨-, ht | ⟨cs, rfl, e⟩⟩ := spelled_of_mem_tokens h
  · cases ht
  · cases e
    rw [String.toList_ofList]

/-- The tokens of a source are spelled as they should be. -/
theorem spelled_of_mem_sourceTokens {cs : List Char} {t : Token} (h : t ∈ sourceTokens cs) :
    t.Spelled := by
  rw [sourceTokens_eq, List.mem_flatMap] at h
  obtain ⟨s, -, h⟩ := h
  exact (spelled_of_mem_tokens h).1

/-! ### Texts -/

/-- The texts among the tokens have a property, which can depend on whether the text is the last
token. -/
def TextsFit (P : Bool → String → Prop) (ts : List Token) : Prop :=
  ∀ before s after, ts = before ++ .text s :: after → P after.isEmpty s

section Texts

variable {P : Bool → String → Prop} {xs ys : List Token}

/-- Leaving out tokens at the beginning changes nothing for the texts after them. -/
theorem TextsFit.right (h : TextsFit P (xs ++ ys)) : TextsFit P ys := by
  intro before s after e
  exact h (xs ++ before) s after (by rw [e, List.append_assoc])

/-- Leaving out the first token changes nothing for the texts after it. -/
theorem TextsFit.tail {t : Token} (h : TextsFit P (t :: ys)) : TextsFit P ys := by
  have hright : TextsFit P ([t] ++ ys) := h
  exact hright.right

/-- A text among tokens that stand in front of others, or among these. -/
theorem textsFit_append (hx : ∀ before s after, xs = before ++ .text s :: after →
    P (after ++ ys).isEmpty s) (hy : TextsFit P ys) : TextsFit P (xs ++ ys) := by
  intro before s after e
  rcases List.append_eq_append_iff.1 e with ⟨as, rfl, h⟩ | ⟨as, rfl, h⟩
  · exact hy as s after h
  · cases as with
    | nil => exact hy [] s after h.symm
    | cons a as =>
      obtain ⟨rfl, rfl⟩ := List.cons.inj h
      exact hx before s as rfl

/-- A property of the texts that the lexer finds in a source is one of the texts among the tokens. A
text can be the last token and still be followed by a comment. -/
theorem textsFit_tokens {segments : List Segment} (hP : ∀ l s, P false s → P l s)
    (h : ∀ before cs after, segments = before ++ .text cs :: after →
      P after.isEmpty (String.ofList cs)) :
    TextsFit P (segments.flatMap Segment.tokens) := by
  induction segments with
  | nil =>
    intro before s after e
    simp at e
  | cons segment segments ih =>
    have ih := ih fun before cs after e =>
      h (segment :: before) cs after (by rw [e, List.cons_append])
    refine textsFit_append ?_ ih
    intro before s after e
    have hmem : .text s ∈ segment.tokens := by simp [e]
    obtain rfl := eq_text_of_mem_tokens hmem
    -- The text is the only token of its segment, so that it is last if its segment is.
    obtain ⟨-, rfl⟩ : before = [] ∧ after = [] := by
      cases before with
      | nil => exact ⟨rfl, (List.cons.inj e).2.symm⟩
      | cons b before => simp [Segment.tokens, Lexeme.ofSegment] at e
    have hlast := h [] s.toList segments rfl
    rw [String.ofList_toList] at hlast
    cases segments with
    | nil => exact hlast
    | cons s' segments => exact hP _ _ hlast

end Texts

/-! ### Trees -/

namespace Grammar

variable {ts : List (Located Token)} {P : Bool → String → Prop}

/-- The names of steps are identifiers. -/
theorem Steps.isIdentifier {names : List String} (h : Steps ts names)
    (hs : ∀ t ∈ items ts, t.Spelled) : ∀ name ∈ names, isIdentifier name = true := by
  induction h with
  | nil => nofun
  | cons _ ih =>
    simp only [items_cons, List.forall_mem_cons] at hs ⊢
    exact ⟨hs.2.1, ih hs.2.2⟩

/-- An operand is well-formed if its tokens are spelled as they should be. -/
theorem Argument.wellFormed {o : Operand} (h : Argument ts o) (hs : ∀ t ∈ items ts, t.Spelled) :
    o.WellFormed := by
  cases h with
  | str => trivial
  | int => exact hs _ List.mem_cons_self
  | path hsteps =>
    simp only [items_cons, List.forall_mem_cons] at hs
    exact ⟨hs.1, hsteps.isIdentifier hs.2⟩

/-- Operands are well-formed if their tokens are spelled as they should be. -/
theorem Arguments.wellFormed {args : List Operand} (h : Arguments ts args)
    (hs : ∀ t ∈ items ts, t.Spelled) : ∀ o ∈ args, o.WellFormed := by
  induction h with
  | nil => nofun
  | last ha => simpa using ha.wellFormed hs
  | cons ha _ ih =>
    simp only [items_append, items_cons, List.forall_mem_append, List.forall_mem_cons] at hs ⊢
    exact ⟨ha.wellFormed hs.1, ih hs.2.2⟩

/-- An expression is well-formed if its tokens are spelled as they should be. -/
theorem Expression.wellFormed {e : Expr} (h : Expression ts e) (hs : ∀ t ∈ items ts, t.Spelled) :
    e.WellFormed := by
  cases h with
  | operand ha => exact ha.wellFormed hs
  | call hargs =>
    simp only [items_append, items_cons, List.forall_mem_append, List.forall_mem_cons] at hs
    exact ⟨hs.1.1, hargs.wellFormed hs.1.2.2⟩

/-- Only the empty template has no nodes. -/
theorem Nodes.beq_nil {b : Body} (h : Nodes ts b) : (b == .nil) = (items ts).isEmpty := by
  cases h <;> simp [mark, items]

/-- The tree of tokens that are spelled as they should be has well-formed expressions, and texts as
they are among the tokens. -/
theorem Nodes.fits {b : Body} (h : Nodes ts b) {k : List Token} (hs : ∀ t ∈ items ts, t.Spelled)
    (ht : TextsFit P (items ts ++ k)) : b.Fits P k.isEmpty := by
  induction h generalizing k with
  | nil => trivial
  | text hrest ih =>
    simp only [items_cons, List.forall_mem_cons, List.cons_append] at hs ht
    have hlast := ht [] _ _ rfl
    refine ⟨?_, ih hs.2 ht.tail⟩
    -- The text is the last token if no node and nothing else comes after it.
    have hempty : ∀ xs : List Token, (xs ++ k).isEmpty = (k.isEmpty && xs.isEmpty) := by
      intro xs
      cases xs <;> simp
    rw [hrest.beq_nil, ← hempty]
    exact hlast
  | output he _ ih | raw he _ ih =>
    simp only [items_cons, items_append, List.cons_append, List.forall_mem_cons,
      List.forall_mem_append, List.append_assoc] at hs ht
    obtain ⟨-, hes, -, hts⟩ := hs
    exact ⟨he.wellFormed hes, ih hts ht.tail.right.tail⟩
  | conditional he _ _ ihx ih =>
    simp only [items_cons, items_append, List.cons_append, List.forall_mem_cons,
      List.forall_mem_append, List.append_assoc] at hs ht
    obtain ⟨-, -, hes, -, hxs, -, hts⟩ := hs
    have hx := ht.tail.tail.right.tail
    exact ⟨he.wellFormed hes, ihx hxs hx, trivial, ih hts hx.right.right⟩
  | alternative he _ _ _ ihx ihy ih =>
    simp only [items_cons, items_append, List.cons_append, List.forall_mem_cons,
      List.forall_mem_append, List.append_assoc] at hs ht
    obtain ⟨-, -, hes, -, hxs, -, hys, -, hts⟩ := hs
    -- Neither branch is at the end of the template: a block follows it.
    have hx := ht.tail.tail.right.tail
    have hy := hx.right.right
    exact ⟨he.wellFormed hes, ihx hxs hx, ihy hys hy, ih hts hy.right.right⟩

/-- The names of steps are no text. -/
theorem Steps.isText {names : List String} (h : Steps ts names) :
    ∀ t ∈ items ts, t.isText = false := by
  induction h with
  | nil => nofun
  | cons _ ih =>
    simp only [items_cons, List.forall_mem_cons]
    exact ⟨rfl, rfl, ih⟩

/-- No text is part of an operand. -/
theorem Argument.isText {o : Operand} (h : Argument ts o) : ∀ t ∈ items ts, t.isText = false := by
  cases h with
  | str => simp [items, Token.isText]
  | int => simp [items, Token.isText]
  | path hsteps =>
    simp only [items_cons, List.forall_mem_cons]
    exact ⟨rfl, hsteps.isText⟩

/-- No text is part of an operand of a call. -/
theorem Arguments.isText {args : List Operand} (h : Arguments ts args) :
    ∀ t ∈ items ts, t.isText = false := by
  induction h with
  | nil => nofun
  | last ha => exact ha.isText
  | cons ha _ ih =>
    simp only [items_append, items_cons, List.forall_mem_append, List.forall_mem_cons]
    exact ⟨ha.isText, rfl, ih⟩

/-- No text is part of an expression. -/
theorem Expression.isText {e : Expr} (h : Expression ts e) : ∀ t ∈ items ts, t.isText = false := by
  cases h with
  | operand ha => exact ha.isText
  | call hargs =>
    simp only [items_append, items_cons, List.forall_mem_append, List.forall_mem_cons]
    exact ⟨⟨rfl, rfl, hargs.isText⟩, rfl, nofun⟩

/-- A text is no part of an expression. -/
theorem Expression.text_not_mem {e : Expr} (h : Expression ts e) (s : String) :
    .text s ∉ items ts :=
  fun hs => nomatch h.isText _ hs

/-- A keyword is no text. -/
theorem text_ne_opening (s : String) (negated : Bool) : .text s ≠ opening negated := by
  cases negated <;> nofun

/-- What holds of the texts of a tree holds of the texts among its tokens. -/
theorem Nodes.of_text_mem {Q : String → Prop} {b : Body} (h : Nodes ts b) {isLast : Bool}
    (hb : b.Fits (fun _ s => Q s) isLast) {s : String} (hs : .text s ∈ items ts) : Q s := by
  induction h generalizing isLast with
  | nil => cases hs
  | text _ ih =>
    obtain ⟨htext, hrest⟩ := hb
    rcases List.mem_cons.1 hs with hs | hs
    · cases hs
      exact htext
    · exact ih hrest hs
  | output he _ ih | raw he _ ih =>
    have hes := he.text_not_mem s
    simp only [List.cons_append, items_cons, items_append, List.mem_cons, reduceCtorEq,
      List.mem_append, hes, false_or] at hs
    exact ih hb.2 hs
  | conditional he _ _ ihx ih =>
    have hes := he.text_not_mem s
    obtain ⟨-, hx, -, hrest⟩ := hb
    simp only [List.cons_append, mark, List.append_assoc, List.nil_append, items_cons, items_append,
      List.mem_cons, reduceCtorEq, text_ne_opening, List.mem_append, hes, false_or] at hs
    rcases hs with hs | hs
    · exact ihx hx hs
    · exact ih hrest hs
  | alternative he _ _ _ ihx ihy ih =>
    have hes := he.text_not_mem s
    obtain ⟨-, hx, hy, hrest⟩ := hb
    simp only [List.cons_append, mark, List.append_assoc, List.nil_append, items_cons, items_append,
      List.mem_cons, reduceCtorEq, text_ne_opening, List.mem_append, hes, false_or] at hs
    rcases hs with hs | hs | hs
    · exact ihx hx hs
    · exact ihy hy hs
    · exact ih hrest hs

end Grammar

end Stencil
