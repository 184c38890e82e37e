import Stencil.Proofs.Printing.Text
import Stencil.Proofs.Printing.Words

/-!
# Printed trees

The source of a tree is read as the tokens of the tree, if its expressions are well-formed and its
texts are literal. Main statement: `sourceTokens_source`, with whatever follows the tree in the
source.
-/

namespace Stencil

/-- The tokens of a source, without their places. -/
def sourceTokens (cs : List Char) : List Token := (Lexeme.ofSource cs).filterMap (·.token?)

/-- The tokens of a segment. -/
def Segment.tokens (s : Segment) : List Token := (Lexeme.ofSegment s).filterMap (·.token?)

theorem sourceTokens_eq (cs : List Char) :
    sourceTokens cs = (Segment.split cs).flatMap Segment.tokens :=
  List.filterMap_flatMap

/-- The tokens of lexemes, without the places at which they are found. -/
theorem items_locate (start : Nat) (ls : List Lexeme) :
    Grammar.items (Lexeme.locate start ls) = ls.filterMap (·.token?) := by
  induction ls generalizing start with
  | nil => rfl
  | cons l ls ih =>
    rw [Lexeme.locate]
    cases h : l.token? <;> simp [h, ih]

/-- The tokens of a source with their places, and without them. -/
theorem items_tokenize (source : String) :
    Grammar.items (tokenize source) = sourceTokens source.toList :=
  items_locate 0 _

namespace Body

/-- A body whose expressions are well-formed and whose texts have a property; `isLast` tells whether
the template ends with it. -/
def Fits (P : Bool → String → Prop) (isLast : Bool) : Body → Prop
  | .nil => True
  | .text _ s rest => P (isLast && rest == .nil) s ∧ rest.Fits P isLast
  | .output _ e rest => e.item.WellFormed ∧ rest.Fits P isLast
  | .raw _ e rest => e.item.WellFormed ∧ rest.Fits P isLast
  | .conditional _ _ e thenBranch elseBranch rest =>
    e.item.WellFormed ∧ thenBranch.Fits P false ∧ elseBranch.Fits P false ∧ rest.Fits P isLast

/-- The well-formed bodies are those with plain texts. -/
theorem wellFormed_iff_fits {isLast : Bool} {b : Body} :
    b.WellFormed isLast ↔ b.Fits PlainText isLast := by
  induction b generalizing isLast with
  | nil => exact Iff.rfl
  | text span s rest ih => exact and_congr_right fun _ => ih
  | output span e rest ih => exact and_congr_right fun _ => ih
  | raw span e rest ih => exact and_congr_right fun _ => ih
  | conditional span negated e x y rest ihx ihy ih =>
    exact and_congr_right fun _ => and_congr ihx (and_congr ihy ih)

/-- A body fits a weaker property. -/
theorem Fits.imp {P Q : Bool → String → Prop} (h : ∀ l s, P l s → Q l s) {isLast : Bool}
    {b : Body} (hb : b.Fits P isLast) : b.Fits Q isLast := by
  induction b generalizing isLast with
  | nil => exact trivial
  | text span s rest ih => exact ⟨h _ _ hb.1, ih hb.2⟩
  | output span e rest ih => exact ⟨hb.1, ih hb.2⟩
  | raw span e rest ih => exact ⟨hb.1, ih hb.2⟩
  | conditional span negated e x y rest ihx ihy ih =>
    exact ⟨hb.1, ihx hb.2.1, ihy hb.2.2.1, ih hb.2.2.2⟩

/-- A body whose texts are read as they stand. -/
def Printable (isLast : Bool) (b : Body) : Prop :=
  b.Fits (fun l s => Segment.Literal l s.toList) isLast

/-- The source of a conditional. -/
theorem source_conditional (span : Span) (negated : Bool) (e : Located Expr) (x y rest : Body) :
    (conditional span negated e x y rest).source =
      TagForm.block.around ((if negated then "unless " else "if ").toList ++ e.item.source) ++
        x.source ++ (if y = .nil then [] else TagForm.block.around "else".toList ++ y.source) ++
        TagForm.block.around "end".toList ++ rest.source := by
  cases y <;> simp [source]

end Body

/-- The character with which a tag closes. -/
def TagForm.mark : TagForm → Char
  | .output => '}'
  | .raw => '}'
  | .block => '%'

/-- There are two characters with which tags close. -/
theorem TagForm.mark_mem (form : TagForm) : form.mark ∈ ['}', '%'] := by
  cases form <;> decide

section Tags

open Segment

variable {form : TagForm} {cs k : List Char}

/-- The body of a tag ends where the tag does. -/
theorem body_around (hq : Quiet form.mark cs) (k : List Char) :
    Segment.body form.mark (' ' :: cs ++ ' ' :: form.closer ++ k) =
      (' ' :: cs ++ [' '], form.closer ++ k) := by
  have hblank : Quiet form.mark [' '] := quiet_sign form.mark_mem (by decide)
  have hstop : Segment.body form.mark (form.closer ++ k) = ([], form.closer ++ k) := by
    cases form <;> simp [Segment.body, TagForm.mark, TagForm.closer]
  have h := (hblank.append hq).append hblank (form.closer ++ k)
  rw [hstop] at h
  simpa using h

/-- A tag is a segment of its own. -/
theorem split_around (hq : Quiet form.mark cs) (k : List Char) :
    split (form.around cs ++ k) = .tag form (' ' :: cs ++ [' ']) :: split k := by
  -- The opening tells the form, and the body stops in front of what closes that form.
  have hb := body_around hq k
  have hfirst : first '{' ((form.around cs ++ k).drop 1) = (.tag form (' ' :: cs ++ [' ']), k) := by
    cases form with
    | output =>
      have hb : Segment.body '}' _ = _ := hb
      show afterBraces (' ' :: cs ++ ' ' :: TagForm.output.closer ++ k) = _
      rw [afterBraces, hb]
      rfl
    | raw =>
      have hb : Segment.body '}' _ = _ := hb
      show afterRawBraces (' ' :: cs ++ ' ' :: TagForm.raw.closer ++ k) = _
      rw [afterRawBraces, hb]
      rfl
    | block =>
      have hb : Segment.body '%' _ = _ := hb
      show afterPercent (' ' :: cs ++ ' ' :: TagForm.block.closer ++ k) = _
      rw [afterPercent, hb]
      rfl
  have hcons : form.around cs ++ k = '{' :: (form.around cs ++ k).drop 1 := by cases form <;> rfl
  rw [hcons, split_cons, hfirst]
  rfl

/-- A tag is read as its opening, the tokens of its body, and its end. -/
theorem sourceTokens_around (hq : Quiet form.mark cs) (k : List Char) :
    sourceTokens (form.around cs ++ k) =
      Lexeme.openToken form :: tagTokens (cs ++ [' ']) ++ .tagClose :: sourceTokens k := by
  have htag : Segment.tokens (.tag form (' ' :: cs ++ [' '])) =
      Lexeme.openToken form :: tagTokens (' ' :: (cs ++ [' '])) ++ [.tagClose] := by
    simp [Segment.tokens, Lexeme.ofSegment, tagTokens]
  calc sourceTokens (form.around cs ++ k)
      = (split (form.around cs ++ k)).flatMap Segment.tokens := sourceTokens_eq _
    _ = Segment.tokens (.tag form (' ' :: cs ++ [' '])) ++ sourceTokens k := by
      rw [split_around hq, List.flatMap_cons, sourceTokens_eq]
    _ = Lexeme.openToken form :: tagTokens (cs ++ [' ']) ++ .tagClose :: sourceTokens k := by
      rw [htag, tagTokens_blank, List.append_assoc]
      rfl

/-- A tag begins with no text. -/
theorem apart_around (hq : Quiet form.mark cs) (k : List Char) : Apart (form.around cs ++ k) := by
  intro t rest h
  cases (split_around hq k).symm.trans h

/-- The empty comment is a segment of its own. -/
theorem split_comment_append (k : List Char) :
    split (emptyComment ++ k) = .comment [] :: split k := by
  show split ('{' :: '#' :: '#' :: '}' :: k) = _
  rw [split_cons]
  rfl

/-- A comment begins with no text. -/
theorem apart_comment (k : List Char) : Apart (emptyComment ++ k) := by
  intro t rest h
  cases (split_comment_append k).symm.trans h

/-- The empty comment stands for no token. -/
theorem sourceTokens_comment (k : List Char) :
    sourceTokens (emptyComment ++ k) = sourceTokens k := by
  rw [sourceTokens_eq, split_comment_append, List.flatMap_cons, ← sourceTokens_eq]
  rfl

/-- A text that is literal is a token. -/
theorem sourceTokens_text {isLast : Bool} {s : String} (hs : Literal isLast s.toList)
    (hk : Apart k) (hl : isLast = true → k = []) :
    sourceTokens (s.toList ++ k) = .text s :: sourceTokens k := by
  rw [sourceTokens_eq, hs.2 k hk hl, List.flatMap_cons, ← sourceTokens_eq]
  simp [Segment.tokens, Lexeme.ofSegment]

variable {e : Expr}

/-- What follows the body of a tag is no part of a word. -/
theorem endsWord_blank : EndsWord [' '] := endsWord_cons rfl []

/-- A tag with an expression is read as the tokens of the expression. -/
theorem sourceTokens_expr (form : TagForm) (he : e.WellFormed) (k : List Char) :
    sourceTokens (form.around e.source ++ k) =
      Lexeme.openToken form :: e.tokens ++ .tagClose :: sourceTokens k := by
  rw [sourceTokens_around (quiet_expr form.mark_mem he), tagTokens_expr he endsWord_blank,
    tagTokens_blank, tagTokens_nil, List.append_nil]

section Keywords

variable (c : Char) (cs : List Char)
variable (hc : Lexeme.isIdentStart c = true) (hcs : cs.all Lexeme.isIdentPart = true)

include hc hcs

/-- A keyword closes no tag. -/
theorem quiet_keyword : Quiet TagForm.block.mark (c :: cs) := by
  apply quiet_word TagForm.block.mark_mem
  intro d hd
  rcases List.mem_cons.1 hd with rfl | hd
  · exact isIdentPart_of_isIdentStart hc
  · exact List.all_eq_true.1 hcs d hd

/-- A block with nothing but a keyword is read as such a block. -/
theorem sourceTokens_mark (k : List Char) :
    sourceTokens (TagForm.block.around (c :: cs) ++ k) =
      markTokens (Lexeme.word (c :: cs)) ++ sourceTokens k := by
  rw [sourceTokens_around (quiet_keyword c cs hc hcs), tagTokens_word hc hcs endsWord_blank,
    tagTokens_blank, tagTokens_nil]
  rfl

/-- A keyword and an expression close no tag. -/
theorem quiet_keyword_expr (he : e.WellFormed) :
    Quiet TagForm.block.mark (c :: cs ++ ' ' :: e.source) := by
  have hblank : Quiet TagForm.block.mark [' '] := quiet_sign TagForm.block.mark_mem (by decide)
  exact (quiet_keyword c cs hc hcs).append (hblank.append (quiet_expr TagForm.block.mark_mem he))

/-- A keyword and an expression are read as such. -/
theorem tagTokens_keyword_expr (he : e.WellFormed) :
    tagTokens (c :: cs ++ ' ' :: e.source ++ [' ']) = Lexeme.word (c :: cs) :: e.tokens := by
  have hrest : EndsWord (' ' :: (e.source ++ [' '])) := endsWord_cons rfl _
  rw [List.append_assoc]
  show tagTokens (c :: cs ++ ' ' :: (e.source ++ [' '])) = _
  rw [tagTokens_word hc hcs hrest, tagTokens_blank, tagTokens_expr he endsWord_blank,
    tagTokens_blank, tagTokens_nil, List.append_nil]

end Keywords

/-- The keyword and the condition of a conditional close no tag. -/
theorem quiet_opening (negated : Bool) (he : e.WellFormed) :
    Quiet TagForm.block.mark ((if negated then "unless " else "if ").toList ++ e.source) := by
  cases negated with
  | false => exact quiet_keyword_expr 'i' "f".toList rfl rfl he
  | true => exact quiet_keyword_expr 'u' "nless".toList rfl rfl he

/-- The keyword and the condition of a conditional are read as such. -/
theorem tagTokens_opening (negated : Bool) (he : e.WellFormed) :
    tagTokens ((if negated then "unless " else "if ").toList ++ e.source ++ [' ']) =
      Grammar.opening negated :: e.tokens := by
  cases negated with
  | false => exact tagTokens_keyword_expr 'i' "f".toList rfl rfl he
  | true => exact tagTokens_keyword_expr 'u' "nless".toList rfl rfl he

/-- The block that opens a conditional is read as its keyword and its condition. -/
theorem sourceTokens_opening (negated : Bool) (he : e.WellFormed) (k : List Char) :
    sourceTokens (TagForm.block.around
        ((if negated then "unless " else "if ").toList ++ e.source) ++ k) =
      .blockOpen :: Grammar.opening negated :: e.tokens ++ .tagClose :: sourceTokens k := by
  rw [sourceTokens_around (quiet_opening negated he), tagTokens_opening negated he]
  rfl

/-- The block in front of a second branch is read as such a block. -/
theorem sourceTokens_else (k : List Char) :
    sourceTokens (TagForm.block.around "else".toList ++ k) =
      markTokens .kwElse ++ sourceTokens k :=
  sourceTokens_mark 'e' "lse".toList rfl rfl k

/-- The block at the end of a conditional is read as such a block. -/
theorem sourceTokens_end (k : List Char) :
    sourceTokens (TagForm.block.around "end".toList ++ k) =
      markTokens .kwEnd ++ sourceTokens k :=
  sourceTokens_mark 'e' "nd".toList rfl rfl k

end Tags

namespace Body

open Segment

variable {b : Body} {isLast : Bool} {k : List Char}

/-- What is put between a text and the nodes after it. -/
theorem source_text (span : Span) (s : String) (rest : Body) (k : List Char) :
    (text span s rest).source ++ k =
      s.toList ++ ((if rest.startsWithText then emptyComment else []) ++ (rest.source ++ k)) := by
  simp only [source, List.append_assoc]

/-- A tree that does not start with a text is printed so that no text begins its source. -/
theorem apart_source (hb : b.Printable isLast) (hs : b.startsWithText = false) (hk : Apart k) :
    Apart (b.source ++ k) := by
  cases b with
  | nil => exact hk
  | text span s rest => cases hs
  | output span e rest =>
    rw [source, List.append_assoc]
    exact apart_around (quiet_expr TagForm.output.mark_mem hb.1) _
  | raw span e rest =>
    rw [source, List.append_assoc]
    exact apart_around (quiet_expr TagForm.raw.mark_mem hb.1) _
  | conditional span negated e x y rest =>
    simp only [source_conditional, List.append_assoc]
    exact apart_around (quiet_opening negated hb.1) _

/-- No text begins what follows a text. -/
theorem apart_after_text (hb : b.Printable isLast) (hk : Apart k) :
    Apart ((if b.startsWithText then emptyComment else []) ++ (b.source ++ k)) := by
  cases hs : b.startsWithText with
  | true => exact apart_comment _
  | false => exact apart_source hb hs hk

/-- The comment that keeps two texts apart leaves the tokens as they are. -/
theorem sourceTokens_after_text (b : Body) (cs : List Char) :
    sourceTokens ((if b.startsWithText then emptyComment else []) ++ cs) = sourceTokens cs := by
  cases b.startsWithText with
  | true => exact sourceTokens_comment cs
  | false => rfl

/-- Nothing follows a text with which a template ends. -/
theorem eq_nil_after_text (h : (isLast && b == nil) = true) (hl : isLast = true → k = []) :
    (if b.startsWithText then emptyComment else []) ++ (b.source ++ k) = [] := by
  simp only [Bool.and_eq_true, beq_iff_eq] at h
  rw [h.2, hl h.1]
  rfl

/-- The source of a tree is read as the tokens of the tree, and then what follows is read. -/
theorem sourceTokens_source (hb : b.Printable isLast) (hk : Apart k) (hl : isLast = true → k = []) :
    sourceTokens (b.source ++ k) = b.tokens ++ sourceTokens k := by
  induction b generalizing isLast k with
  | nil => rfl
  | text span s rest ih =>
    obtain ⟨hs, hrest⟩ := hb
    -- Nothing, a tag, or an empty comment in front of another text keeps the text apart.
    rw [source_text, sourceTokens_text hs (apart_after_text hrest hk) (eq_nil_after_text · hl),
      sourceTokens_after_text, ih hrest hk hl]
    rfl
  | output span e rest ih =>
    obtain ⟨he, hrest⟩ := hb
    rw [source, List.append_assoc, sourceTokens_expr .output he, ih hrest hk hl]
    simp [tokens, Lexeme.openToken]
  | raw span e rest ih =>
    obtain ⟨he, hrest⟩ := hb
    rw [source, List.append_assoc, sourceTokens_expr .raw he, ih hrest hk hl]
    simp [tokens, Lexeme.openToken]
  | conditional span negated e x y rest ihx ihy ih =>
    obtain ⟨he, hx, hy, hrest⟩ := hb
    have hend : ∀ cs, Apart (TagForm.block.around "end".toList ++ cs) :=
      apart_around (quiet_keyword 'e' "nd".toList rfl rfl)
    have helse : ∀ cs, Apart (TagForm.block.around "else".toList ++ cs) :=
      apart_around (quiet_keyword 'e' "lse".toList rfl rfl)
    -- A branch never ends the template: the block behind it keeps its last text apart.
    have hinner : ∀ {cs : List Char}, false = true → cs = [] := fun h =>
      absurd h Bool.false_ne_true
    rw [source_conditional, tokens]
    by_cases hnil : y = .nil
    · simp only [if_pos hnil, List.append_assoc, List.nil_append]
      rw [sourceTokens_opening negated he, ihx hx (hend _) hinner, sourceTokens_end,
        ih hrest hk hl]
      simp
    · simp only [if_neg hnil, List.append_assoc]
      rw [sourceTokens_opening negated he, ihx hx (helse _) hinner, sourceTokens_else,
        ihy hy (hend _) hinner, sourceTokens_end, ih hrest hk hl]
      simp

end Body

end Stencil
