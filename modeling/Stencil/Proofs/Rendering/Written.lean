import Stencil.Proofs.Joining.Rendering
import Stencil.Proofs.Printing.RoundTrip
import Stencil.Proofs.Rendering.Pieces

/-!
# Templates known by their trees

What a template prints does not depend on how it is written, but only on the tree as which it is read.
Main statements: `isReadFrom_of_tokens`, by which tokens are enough to know the tree, and
`Body.IsReadFrom.compileHtml_eq`, by which a template compiles to the rendering of its tree.
-/

namespace Stencil

variable {source : String} {b : Body} {scope : Scope}

/-- The source is read as the tree, but for the places. -/
def Body.IsReadFrom (b : Body) (source : String) : Prop :=
  ∃ b', parse source = .ok b' ∧ b'.unplaced = b.unplaced

/-- A source with the tokens of a tree is read as the tree. -/
theorem isReadFrom_of_tokens (h : sourceTokens source.toList = b.tokens) : b.IsReadFrom source := by
  obtain ⟨b', hn, hb⟩ := Grammar.exists_nodes ((items_tokenize source).trans h)
  exact ⟨b', parse_of_nodes hn, hb⟩

/-- A source compiles to the rendering of the tree as which it is read, if the helpers exist that the
tree calls. -/
theorem Body.IsReadFrom.compileHtml_eq (h : b.IsReadFrom source)
    (hknown : b.unknownHelper? = none) :
    Handler.compileHtml source = .ok fun scope => b.render scope := by
  obtain ⟨b', hparse, hb⟩ := h
  obtain ⟨hhelpers, hrender⟩ := Body.same_of_unplaced hb
  refine Handler.compileHtml_eq_ok.2 ⟨b', hparse, ?_, funext hrender⟩
  rw [unknownHelper?, hhelpers]
  exact hknown

/-- A source that is read as a tree has a compiled form. -/
theorem Body.IsReadFrom.compiles (h : b.IsReadFrom source) (hknown : b.unknownHelper? = none) :
    ∃ routine, Handler.compileHtml source = .ok routine ∧
      ∀ scope, routine scope = b.render scope :=
  ⟨_, h.compileHtml_eq hknown, fun _ => rfl⟩

/-- What a template prints in a scope, if it can be compiled. -/
def Handler.printHtml (source : String) (scope : Scope) : Except Failure Markup := do
  let routine ← compileHtml source
  routine scope

/-- A source prints what the tree prints as which it is read. -/
theorem Body.IsReadFrom.printHtml_eq (h : b.IsReadFrom source) (hknown : b.unknownHelper? = none)
    (scope : Scope) : Handler.printHtml source scope = b.render scope := by
  obtain ⟨routine, hroutine, hrender⟩ := h.compiles hknown
  rw [Handler.printHtml, hroutine, ← hrender]
  rfl

/-! ### Single expressions -/

/-- The template that prints an expression. -/
def outputTemplate (inside : String) : String := "\x7b\x7b " ++ inside ++ " \x7d\x7d"

/-- The characters of the template for an expression. -/
theorem toList_outputTemplate (inside : String) :
    (outputTemplate inside).toList = TagForm.output.around inside.toList := by
  simp [outputTemplate, TagForm.around, TagForm.opener, TagForm.closer]

/-- The template for an expression is read as the expression. -/
theorem isReadFrom_outputTemplate {e : Expr} {inside : String}
    (hquiet : Quiet TagForm.output.mark inside.toList)
    (htokens : tagTokens (inside.toList ++ [' ']) = e.tokens) :
    (Body.output ⟨0, 0⟩ ⟨e, ⟨0, 0⟩⟩ .nil).IsReadFrom (outputTemplate inside) := by
  have h := sourceTokens_around hquiet []
  rw [List.append_nil, htokens, sourceTokens_eq [], Segment.split, List.flatMap_nil] at h
  apply isReadFrom_of_tokens
  rw [toList_outputTemplate]
  exact h

/-- A template of a single expression between double braces prints the result of the expression. -/
theorem render_single {e : Expr} {r : Result} (h : e.eval scope = .ok r) (p q : Span) :
    (Body.output p ⟨e, q⟩ .nil).render scope = .ok r.escaped :=
  Body.render_eq_ok.2 ⟨[r.escaped], Body.pieces_output_eq_ok.2 ⟨r, h, [], rfl, rfl⟩, by
    simp [Markup.join]⟩

end Stencil
