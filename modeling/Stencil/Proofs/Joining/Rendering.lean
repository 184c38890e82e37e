import Stencil.Template.Evaluation

/-!
# What joined bodies print

A body with the nodes of two bodies prints what the first one prints and then what the second one
does; if one of them fails then so does it, and the first one fails first. Main statements:
`joins_append`, on bodies that are put together, and `joins_text`, on two texts that become one.
-/

namespace Stencil

/-- The markup of two pieces of markup after one another. -/
theorem Markup.join_append (ps qs : List Markup) :
    Markup.join (ps ++ qs) = ⟨(Markup.join ps).html ++ (Markup.join qs).html⟩ := by
  simp [Markup.join]

namespace Body

/-- A body that says what two others say, one after the other. -/
structure Joins (c a b : Body) : Prop where
  /-- It calls the helpers that these call. -/
  helpers : c.helpers = a.helpers ++ b.helpers
  /-- It prints what these print, or fails as the first of them that fails. -/
  render : ∀ scope, c.render scope = do
    let m ← a.render scope
    let n ← b.render scope
    return ⟨m.html ++ n.html⟩

variable {scope : Scope} {a b c : Body}

/-- The pieces of a conditional are those of the branch that it takes, and then those of the rest. -/
theorem pieces_conditional (scope : Scope) (span : Span) (negated : Bool) (e : Located Expr)
    (x y rest : Body) :
    (conditional span negated e x y rest).pieces scope = do
      let r ← e.item.eval scope
      let branch ← (if r.isTruthy != negated then x else y).pieces scope
      let more ← rest.pieces scope
      return branch ++ more := by
  rw [pieces]
  refine congrArg (e.item.eval scope >>= ·) (funext fun r => ?_)
  split
  · rfl
  · rfl

/-- The pieces of a body with the nodes of two bodies are those of the first and then those of the
second. -/
theorem pieces_append (scope : Scope) (a b : Body) :
    (a.append b).pieces scope = do
      let ps ← a.pieces scope
      let qs ← b.pieces scope
      return ps ++ qs := by
  induction a with
  | nil =>
    rw [append, pieces]
    cases b.pieces scope <;> rfl
  | text span s rest ih | output span e rest ih | raw span e rest ih =>
    simp only [append, pieces, ih, bind_assoc, pure_bind, List.cons_append]
  | conditional span negated e x y rest ihx ihy ih =>
    simp only [append, pieces_conditional, ih, bind_assoc, pure_bind, List.append_assoc]

/-- The expressions of a body with the nodes of two bodies are those of both. -/
theorem expressions_append (a b : Body) :
    (a.append b).expressions = a.expressions ++ b.expressions := by
  induction a with
  | nil => rfl
  | text span s rest ih => exact ih
  | output span e rest ih | raw span e rest ih => exact congrArg (e :: ·) ih
  | conditional span negated e x y rest ihx ihy ih => simp [append, expressions, ih]

/-- Rendering joins the pieces. -/
theorem render_eq_bind (scope : Scope) (b : Body) :
    b.render scope = b.pieces scope >>= fun ps => return Markup.join ps := by
  rw [render]
  cases b.pieces scope <;> rfl

/-- A body with the nodes of two bodies says what they say. -/
theorem joins_append (a b : Body) : (a.append b).Joins a b := by
  refine ⟨?_, fun scope => ?_⟩
  · rw [helpers, expressions_append, List.filterMap_append]
    rfl
  · simp only [render_eq_bind, pieces_append, bind_assoc, pure_bind, Markup.join_append]

/-- A text that is made of two says what they say, between the nodes before and behind them. -/
theorem joins_text (p q r : Span) (s t : String) (a b : Body) :
    (a.append (.text p (s ++ t) b)).Joins (a.append (.text q s .nil)) (.text r t b) := by
  refine ⟨?_, fun scope => ?_⟩
  · simp only [helpers, expressions_append, expressions, List.append_nil]
    exact List.filterMap_append
  · have hnone : (.ok [] : Except Failure (List Markup)) = pure [] := rfl
    have hjoin : ∀ ps qs : List Markup, Markup.join (ps ++ ⟨s ++ t⟩ :: qs) =
        ⟨(Markup.join (ps ++ [⟨s⟩])).html ++ (Markup.join (⟨t⟩ :: qs)).html⟩ := by
      intro ps qs
      simp [Markup.join, String.append_assoc]
    simp only [render_eq_bind, pieces_append, pieces, hnone, bind_assoc, pure_bind, hjoin]

/-! ### Places -/

/-- What a body prints does not depend on its places. -/
theorem pieces_mapSpans (f : Span → Span) (scope : Scope) (b : Body) :
    (b.mapSpans f).pieces scope = b.pieces scope := by
  induction b with
  | nil => rfl
  | text span s rest ih | output span e rest ih | raw span e rest ih =>
    simp only [mapSpans, pieces, ih]
  | conditional span negated e x y rest ihx ihy ih =>
    simp only [mapSpans, pieces, ihx, ihy, ih]

/-- Which helpers a body calls does not depend on its places. -/
theorem helpers_mapSpans (f : Span → Span) (b : Body) : (b.mapSpans f).helpers = b.helpers := by
  simp only [helpers]
  induction b with
  | nil => rfl
  | text span s rest ih => exact ih
  | output span e rest ih | raw span e rest ih =>
    simp only [mapSpans, expressions, List.filterMap_cons, ih]
  | conditional span negated e x y rest ihx ihy ih =>
    simp only [mapSpans, expressions, List.cons_append, List.filterMap_cons, List.filterMap_append,
      ihx, ihy, ih]

/-- Bodies that are the same but for their places print the same and call the same helpers. -/
theorem same_of_unplaced (e : a.unplaced = b.unplaced) :
    a.helpers = b.helpers ∧ ∀ scope, a.render scope = b.render scope := by
  constructor
  · rw [← helpers_mapSpans (fun _ => ⟨0, 0⟩) a, ← helpers_mapSpans (fun _ => ⟨0, 0⟩) b]
    exact congrArg helpers e
  · intro scope
    rw [render, render, ← pieces_mapSpans (fun _ => ⟨0, 0⟩) scope a,
      ← pieces_mapSpans (fun _ => ⟨0, 0⟩) scope b]
    exact congrArg (fun x => (pieces scope x).map Markup.join) e

/-- What a body says does not depend on places, neither its own nor those of what it is put together
from. -/
theorem Joins.of_unplaced {a' b' c' : Body} (h : c.Joins a b) (ha : a'.unplaced = a.unplaced)
    (hb : b'.unplaced = b.unplaced) (hc : c'.unplaced = c.unplaced) : c'.Joins a' b' := by
  obtain ⟨hah, har⟩ := same_of_unplaced ha
  obtain ⟨hbh, hbr⟩ := same_of_unplaced hb
  obtain ⟨hch, hcr⟩ := same_of_unplaced hc
  refine ⟨?_, fun scope => ?_⟩
  · rw [hah, hbh, hch, h.helpers]
  · rw [hcr, h.render]
    simp only [har, hbr]

end Body

end Stencil
