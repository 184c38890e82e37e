import Stencil.Proofs.Joining.Segments
import Stencil.Proofs.Lexing.Spelling
import Stencil.Proofs.Printing.Sources
import Stencil.Proofs.Reading.Faults

/-!
# Segments that no template has

A source is refused if an opening in it is never closed, if a tag has no body, or if the body of a tag
begins with a brace. Main statement: `not_faulty_of_parse`.
-/

namespace Stencil

namespace Grammar

variable {ts us : List (Located Token)} {xs ys : List Token}

/-! ### What stands in tags -/

/-- Steps are made of tokens that can stand in a tag. -/
theorem Steps.isInner {names : List String} (h : Steps ts names) :
    ∀ t ∈ items ts, t.isInner = true := by
  induction h with
  | nil => nofun
  | cons _ ih => exact List.forall_mem_cons.2 ⟨rfl, List.forall_mem_cons.2 ⟨rfl, ih⟩⟩

/-- An operand is made of tokens that can stand in a tag. -/
theorem Argument.isInner {o : Operand} (h : Argument ts o) : ∀ t ∈ items ts, t.isInner = true := by
  cases h with
  | str => exact List.forall_mem_singleton.2 rfl
  | int => exact List.forall_mem_singleton.2 rfl
  | path h => exact List.forall_mem_cons.2 ⟨rfl, h.isInner⟩

/-- Operands are made of tokens that can stand in a tag. -/
theorem Arguments.isInner {args : List Operand} (h : Arguments ts args) :
    ∀ t ∈ items ts, t.isInner = true := by
  induction h with
  | nil => nofun
  | last h => exact h.isInner
  | cons h _ ih =>
    rw [items_append, List.forall_mem_append]
    exact ⟨h.isInner, List.forall_mem_cons.2 ⟨rfl, ih⟩⟩

/-- An expression is made of tokens that can stand in a tag, and of one at least. -/
theorem Expression.isInner {e : Expr} (h : Expression ts e) :
    items ts ≠ [] ∧ ∀ t ∈ items ts, t.isInner = true := by
  cases h with
  | operand h =>
    refine ⟨?_, h.isInner⟩
    cases h <;> exact List.cons_ne_nil _ _
  | call h =>
    refine ⟨List.cons_ne_nil _ _, ?_⟩
    rw [items_append, List.forall_mem_append]
    refine ⟨?_, List.forall_mem_singleton.2 rfl⟩
    exact List.forall_mem_cons.2 ⟨rfl, List.forall_mem_cons.2 ⟨rfl, h.isInner⟩⟩

/-! ### Tags have a body -/

/-- Whether a token has just opened a tag; nothing if the next token closes the tag at once. -/
def openedTag (opened : Bool) : Token → Option Bool
  | .tagClose => if opened then none else some false
  | t => some t.isOpener

/-- What can stand in a tag is a body for it. -/
theorem foldlM_openedTag {opened : Bool} (hne : xs ≠ []) (hxs : ∀ t ∈ xs, t.isInner = true) :
    xs.foldlM openedTag opened = some false := by
  induction xs generalizing opened with
  | nil => exact absurd rfl hne
  | cons t xs ih =>
    obtain ⟨ht, hxs⟩ := List.forall_mem_cons.1 hxs
    have hstep : openedTag opened t = some false := by
      cases t <;> first | rfl | cases ht
    rw [List.foldlM_cons, hstep]
    cases xs with
    | nil => rfl
    | cons u us => exact ih (List.cons_ne_nil u us) hxs

/-- A tag with an expression is closed behind a body. -/
theorem Expression.foldlM_openedTag {e : Expr} (h : Expression ts e) (opened : Bool)
    (xs : List Token) :
    (items ts ++ .tagClose :: xs).foldlM openedTag opened = xs.foldlM openedTag false := by
  obtain ⟨hne, hinner⟩ := h.isInner
  rw [List.foldlM_append, Grammar.foldlM_openedTag hne hinner]
  rfl

/-- The block that opens a conditional has its keyword behind it. -/
theorem opening_foldlM_openedTag (negated : Bool) (xs : List Token) :
    (.blockOpen :: opening negated :: xs).foldlM openedTag false = xs.foldlM openedTag false := by
  cases negated with
  | false => rfl
  | true => rfl

/-- The tags of a template have bodies. -/
theorem Nodes.foldlM_openedTag {b : Body} (h : Nodes ts b) (xs : List Token) :
    (items ts ++ xs).foldlM openedTag false = xs.foldlM openedTag false := by
  induction h generalizing xs with
  | nil => rfl
  | text _ ih => exact ih xs
  | output he _ ih | raw he _ ih =>
    simp only [List.cons_append, items_cons, items_append, List.append_assoc]
    exact (he.foldlM_openedTag true _).trans (ih xs)
  | conditional he _ _ ihx ih =>
    simp only [List.cons_append, items_cons, items_append, List.append_assoc]
    rw [opening_foldlM_openedTag, he.foldlM_openedTag, ihx]
    exact ih xs
  | alternative he _ _ _ ihx ihy ih =>
    simp only [List.cons_append, items_cons, items_append, List.append_assoc]
    rw [opening_foldlM_openedTag, he.foldlM_openedTag, ihx]
    -- The block with `else` and the one at the end hold their keywords.
    exact (ihy _).trans (ih xs)

/-- No tag of a template is closed by the token behind the one that opens it. -/
theorem Nodes.not_closed_at_once {b : Body} (h : Nodes ts b) {o : Token} (ho : o.isOpener = true)
    (e : items ts = xs ++ o :: .tagClose :: ys) : False := by
  have hrun := h.foldlM_openedTag []
  rw [List.append_nil, e] at hrun
  obtain ⟨s₁, s₂, -, hopen, hclose⟩ := foldlM_split hrun
  have hs₂ : s₂ = true := by
    cases o with
    | outputOpen | rawOpen | blockOpen => exact (Option.some.inj hopen).symm
    | _ => cases ho
  subst hs₂
  cases hclose

end Grammar

namespace Segment

/-- The tokens of a tag. -/
theorem tokens_tag (form : TagForm) (body : List Char) :
    tokens (.tag form body) = Lexeme.openToken form :: tagTokens body ++ [.tagClose] := by
  simp [tokens, Lexeme.ofSegment, tagTokens]

/-- The tokens of a segment stand among those of the source. -/
theorem exists_items_of_mem_split {source : String} {s : Segment} (h : s ∈ split source.toList) :
    ∃ xs ys, Grammar.items (tokenize source) = xs ++ (s.tokens ++ ys) := by
  obtain ⟨before, after, h⟩ := List.append_of_mem h
  refine ⟨before.flatMap tokens, after.flatMap tokens, ?_⟩
  rw [items_tokenize, sourceTokens_eq, h, List.flatMap_append, List.flatMap_cons]

/-- A brace in the body of a tag is no token of the language. -/
theorem tagTokens_brace (cs : List Char) :
    tagTokens ('{' :: cs) = .unknown "\x7b" :: tagTokens cs := by
  rw [tagTokens_cons]
  rfl

end Segment

open Segment

/-- A source that is parsed has no faulty segment. -/
theorem not_faulty_of_parse {source : String} {b : Body} (h : parse source = .ok b) :
    ∀ s ∈ split source.toList, s.isFaulty = false := by
  intro s hs
  have hn := nodes_of_parse h
  obtain ⟨xs, ys, hitems⟩ := exists_items_of_mem_split hs
  rw [← Bool.not_eq_true]
  intro hfault
  unfold isFaulty at hfault
  split at hfault
  · rename_i opener body
    refine hn.not_fault (.unclosed (String.ofList opener) ?_)
    show _ ∈ Grammar.items _
    rw [hitems]
    simp [tokens, Lexeme.ofSegment]
  · rename_i form
    rw [tokens_tag, tagTokens_nil] at hitems
    refine hn.not_closed_at_once ?_ hitems
    cases form <;> rfl
  · refine hn.not_fault (.unknown "\x7b" ?_)
    show _ ∈ Grammar.items _
    rw [hitems, tokens_tag, tagTokens_brace]
    simp
  · cases hfault

end Stencil
