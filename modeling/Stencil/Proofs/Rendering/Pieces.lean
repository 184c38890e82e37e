import Mathlib.Logic.Basic
import Stencil.Handler

/-!
# What rendering that succeeds has done

A body is rendered node by node, and fails with the first node that fails. Main statements: for each
kind of node, what the pieces of a body that begins with it are made of, and `compileHtml_eq_ok`, by
which a compiled template is the body of its source.
-/

namespace Stencil

/-- Two steps succeed if both do. -/
theorem bind_eq_ok {ε α β : Type} {x : Except ε α} {f : α → Except ε β} {b : β} :
    x >>= f = .ok b ↔ ∃ a, x = .ok a ∧ f a = .ok b := by
  constructor
  · intro h
    cases x with
    | error e => cases h
    | ok a => exact ⟨a, rfl, h⟩
  · rintro ⟨a, rfl, h⟩
    exact h

/-- A result is changed if there is one. -/
theorem map_eq_ok {ε α β : Type} {x : Except ε α} {f : α → β} {b : β} :
    x.map f = .ok b ↔ ∃ a, x = .ok a ∧ f a = b := by
  cases x with
  | error e => simp [Except.map]
  | ok a => simp [Except.map]

/-- The compiled form of a source is that of its body, whose helpers all exist. -/
theorem Handler.compileHtml_eq_ok {source : String} {routine : Routine} :
    Handler.compileHtml source = .ok routine ↔
      ∃ b, parse source = .ok b ∧ b.unknownHelper? = none ∧
        (fun scope => b.render scope) = routine := by
  rw [compileHtml]
  cases parse source with
  | error e => simp
  | ok b => cases h : b.unknownHelper? <;> simp [h]

namespace Body

variable {scope : Scope} {rest : Body} {ps : List Markup}

/-- A text is the first piece. -/
theorem pieces_text_eq_ok {span : Span} {s : String} :
    (text span s rest).pieces scope = .ok ps ↔
      ∃ more, rest.pieces scope = .ok more ∧ ⟨s⟩ :: more = ps := by
  simp only [pieces, bind_eq_ok, pure, Except.pure, Except.ok.injEq]

/-- What an expression prints between double braces is the first piece. -/
theorem pieces_output_eq_ok {span : Span} {e : Located Expr} :
    (output span e rest).pieces scope = .ok ps ↔
      ∃ r, e.item.eval scope = .ok r ∧
        ∃ more, rest.pieces scope = .ok more ∧ r.escaped :: more = ps := by
  simp only [pieces, bind_eq_ok, pure, Except.pure, Except.ok.injEq]

/-- What an expression prints between triple braces is the first piece. -/
theorem pieces_raw_eq_ok {span : Span} {e : Located Expr} :
    (raw span e rest).pieces scope = .ok ps ↔
      ∃ r, e.item.eval scope = .ok r ∧
        ∃ more, rest.pieces scope = .ok more ∧ ⟨r.text⟩ :: more = ps := by
  simp only [pieces, bind_eq_ok, pure, Except.pure, Except.ok.injEq]

/-- The pieces of the branch that a conditional takes are the first ones. -/
theorem pieces_conditional_eq_ok {span : Span} {negated : Bool} {e : Located Expr}
    {thenBranch elseBranch : Body} :
    (conditional span negated e thenBranch elseBranch rest).pieces scope = .ok ps ↔
      ∃ r, e.item.eval scope = .ok r ∧
        ∃ branch, (if r.isTruthy != negated then thenBranch else elseBranch).pieces scope =
            .ok branch ∧
          ∃ more, rest.pieces scope = .ok more ∧ branch ++ more = ps := by
  rw [pieces, bind_eq_ok]
  refine exists_congr fun r => and_congr_right fun _ => ?_
  -- Both branches go on in the same way.
  by_cases h : (r.isTruthy != negated) = true
  · simp only [if_pos h, bind_eq_ok, pure, Except.pure, Except.ok.injEq]
  · simp only [if_neg h, bind_eq_ok, pure, Except.pure, Except.ok.injEq]

/-- What a body prints is its pieces after one another. -/
theorem render_eq_ok {b : Body} {m : Markup} :
    b.render scope = .ok m ↔ ∃ ps, b.pieces scope = .ok ps ∧ Markup.join ps = m :=
  map_eq_ok

end Body

end Stencil
