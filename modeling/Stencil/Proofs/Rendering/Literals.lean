import Stencil.Proofs.Printing.Literals
import Stencil.Proofs.Rendering.Written

/-!
# Templates of a single literal

A literal between double braces is printed as the value for which it stands, whichever of its forms it
has. Main statements: `IsLiteral.isReadFrom`, on how the template is read, and `IsLiteral.compiles`, on
what it prints.
-/

namespace Stencil

variable {cs : List Char} {o : Operand}

/-- The template for a literal is read as what the literal stands for. -/
theorem IsLiteral.isReadFrom (h : IsLiteral cs o) :
    (Body.output ⟨0, 0⟩ ⟨.operand o, ⟨0, 0⟩⟩ .nil).IsReadFrom
      (outputTemplate (String.ofList cs)) := by
  apply isReadFrom_outputTemplate
  · rw [String.toList_ofList]
    exact h.quiet TagForm.output.mark_mem
  · rw [String.toList_ofList, h.tagTokens_append endsWord_blank, tagTokens_blank, tagTokens_nil,
      List.append_nil]
    rfl

/-- The template for a literal compiles, and prints the text of its value in every scope. -/
theorem IsLiteral.compiles (h : IsLiteral cs o) {v : Value}
    (hv : ∀ scope, o.eval scope = .ok (.value v)) :
    Handler.compileHtml (outputTemplate (String.ofList cs)) = .ok fun _ => .ok (.ofText v.text) := by
  have hprinted : ∀ scope, (Body.output ⟨0, 0⟩ ⟨.operand o, ⟨0, 0⟩⟩ .nil).render scope =
      .ok (.ofText v.text) := fun scope =>
    render_single (show (Expr.operand o).eval scope = .ok (.value v) from hv scope) _ _
  rw [h.isReadFrom.compileHtml_eq rfl, funext hprinted]

end Stencil
