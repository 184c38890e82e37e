import Stencil.Template.Grammar

/-!
# The tokens of a tree

Each tree has a sequence of tokens that describes it, without places. Main statement:
`exists_nodes`, by which tokens at any places, if they are those of a tree, are derivable, and
describe a tree that says the same.
-/

namespace Stencil

/-- The tokens of an operand. -/
def Operand.tokens : Operand → List Token
  | .path root steps => .ident root :: steps.flatMap fun name => [.dot, .ident name]
  | .str s => [.str s]
  | .int n => [.int n]

/-- The tokens of operands, with a comma between them. -/
def Operand.listTokens : List Operand → List Token
  | [] => []
  | [o] => o.tokens
  | o :: os => o.tokens ++ .comma :: listTokens os

/-- The tokens of an expression. -/
def Expr.tokens : Expr → List Token
  | .operand o => o.tokens
  | .call helper args =>
    .ident helper :: .parenOpen :: Operand.listTokens args ++ [.parenClose]

/-- The tokens of a block with nothing but a keyword. -/
def markTokens (keyword : Token) : List Token := [.blockOpen, keyword, .tagClose]

namespace Body

/-- The tokens of a body. -/
def tokens : Body → List Token
  | .nil => []
  | .text _ s rest => .text s :: rest.tokens
  | .output _ e rest => .outputOpen :: e.item.tokens ++ .tagClose :: rest.tokens
  | .raw _ e rest => .rawOpen :: e.item.tokens ++ .tagClose :: rest.tokens
  | .conditional _ negated e thenBranch elseBranch rest =>
    .blockOpen :: Grammar.opening negated :: e.item.tokens ++ .tagClose :: thenBranch.tokens ++
      (if elseBranch = .nil then [] else markTokens .kwElse ++ elseBranch.tokens) ++
      markTokens .kwEnd ++ rest.tokens

end Body

namespace Grammar

/-- The tokens, whatever their places. -/
def items (ts : List (Located Token)) : List Token := ts.map (·.item)

@[simp] theorem items_append (ts us : List (Located Token)) :
    items (ts ++ us) = items ts ++ items us :=
  List.map_append

@[simp] theorem items_cons (t : Located Token) (ts : List (Located Token)) :
    items (t :: ts) = t.item :: items ts :=
  rfl

variable {ts : List (Located Token)}

/-- Located tokens fall apart as their items do. -/
theorem items_eq_append {xs ys : List Token} (h : items ts = xs ++ ys) :
    ∃ us vs, ts = us ++ vs ∧ items us = xs ∧ items vs = ys :=
  List.map_eq_append_iff.1 h

/-- Located tokens begin as their items do. -/
theorem items_eq_cons {x : Token} {ys : List Token} (h : items ts = x :: ys) :
    ∃ p vs, ts = ⟨x, p⟩ :: vs ∧ items vs = ys := by
  obtain ⟨t, vs, rfl, rfl, hv⟩ := List.map_eq_cons_iff.1 h
  exact ⟨t.span, vs, rfl, hv⟩

/-- Without items there are no located tokens. -/
theorem items_eq_nil (h : items ts = []) : ts = [] := List.map_eq_nil_iff.1 h

/-- The tokens of steps are derivable. -/
theorem steps_of_items {names : List String}
    (h : items ts = names.flatMap fun name => [.dot, .ident name]) : Steps ts names := by
  induction names generalizing ts with
  | nil =>
    cases items_eq_nil h
    exact .nil
  | cons name names ih =>
    obtain ⟨p, us, rfl, h₁⟩ := items_eq_cons h
    obtain ⟨q, vs, rfl, h₂⟩ := items_eq_cons h₁
    exact .cons (ih h₂)

/-- The tokens of an operand are derivable. -/
theorem argument_of_items {o : Operand} (h : items ts = o.tokens) : Argument ts o := by
  cases o with
  | path root steps =>
    obtain ⟨p, us, rfl, h₁⟩ := items_eq_cons h
    exact .path (steps_of_items h₁)
  | str s =>
    obtain ⟨p, us, rfl, h₁⟩ := items_eq_cons h
    cases items_eq_nil h₁
    exact .str
  | int n =>
    obtain ⟨p, us, rfl, h₁⟩ := items_eq_cons h
    cases items_eq_nil h₁
    exact .int

/-- The tokens of operands are derivable. -/
theorem arguments_of_items {args : List Operand} (h : items ts = Operand.listTokens args) :
    Arguments ts args := by
  fun_induction Operand.listTokens args generalizing ts with
  | case1 =>
    cases items_eq_nil h
    exact .nil
  | case2 o => exact .last (argument_of_items h)
  | case3 o os _ ih =>
    obtain ⟨us, vs, rfl, hu, hv⟩ := items_eq_append h
    obtain ⟨p, ws, rfl, hw⟩ := items_eq_cons hv
    exact .cons (argument_of_items hu) (ih hw)

/-- The tokens of an expression are derivable. -/
theorem expression_of_items {e : Expr} (h : items ts = e.tokens) : Expression ts e := by
  cases e with
  | operand o => exact .operand (argument_of_items h)
  | call helper args =>
    obtain ⟨us, vs, rfl, hu, hv⟩ := items_eq_append h
    obtain ⟨p, us, rfl, hu₁⟩ := items_eq_cons hu
    obtain ⟨q, us, rfl, hu₂⟩ := items_eq_cons hu₁
    obtain ⟨r, vs, rfl, hv₁⟩ := items_eq_cons hv
    cases items_eq_nil hv₁
    exact .call (arguments_of_items hu₂)

/-- The tokens of a block with nothing but a keyword are such a block. -/
theorem mark_of_items {keyword : Token} (h : items ts = markTokens keyword) :
    ∃ x y z, ts = mark keyword x y z := by
  obtain ⟨x, us, rfl, h₁⟩ := items_eq_cons h
  obtain ⟨y, us, rfl, h₂⟩ := items_eq_cons h₁
  obtain ⟨z, us, rfl, h₃⟩ := items_eq_cons h₂
  cases items_eq_nil h₃
  exact ⟨x, y, z, rfl⟩

/-- The tokens of a tag, without the one that opens it, are an expression and the end of the tag. -/
theorem tag_of_items {e : Expr} {xs : List Token} (h : items ts = e.tokens ++ .tagClose :: xs) :
    ∃ es q us, ts = es ++ ⟨.tagClose, q⟩ :: us ∧ Expression es e ∧ items us = xs := by
  obtain ⟨es, us, rfl, he, hu⟩ := items_eq_append h
  obtain ⟨q, us, rfl, hu₁⟩ := items_eq_cons hu
  exact ⟨es, q, us, rfl, expression_of_items he, hu₁⟩

/-- The tokens of a tree are derivable, and describe a tree that says the same. -/
theorem exists_nodes {b : Body} (h : items ts = b.tokens) :
    ∃ b', Nodes ts b' ∧ b'.unplaced = b.unplaced := by
  induction b generalizing ts with
  | nil =>
    cases items_eq_nil h
    exact ⟨.nil, .nil, rfl⟩
  | text span s rest ih =>
    obtain ⟨p, us, rfl, h₁⟩ := items_eq_cons h
    obtain ⟨b', hn, hb⟩ := ih h₁
    exact ⟨_, .text hn, congrArg (Body.text ⟨0, 0⟩ s) hb⟩
  | output span e rest ih =>
    obtain ⟨p, us, rfl, h₁⟩ := items_eq_cons h
    obtain ⟨es, q, us, rfl, he, h₂⟩ := tag_of_items h₁
    obtain ⟨b', hn, hb⟩ := ih h₂
    exact ⟨_, .output he hn, congrArg (Body.output ⟨0, 0⟩ ⟨e.item, ⟨0, 0⟩⟩) hb⟩
  | raw span e rest ih =>
    obtain ⟨p, us, rfl, h₁⟩ := items_eq_cons h
    obtain ⟨es, q, us, rfl, he, h₂⟩ := tag_of_items h₁
    obtain ⟨b', hn, hb⟩ := ih h₂
    exact ⟨_, .raw he hn, congrArg (Body.raw ⟨0, 0⟩ ⟨e.item, ⟨0, 0⟩⟩) hb⟩
  | conditional span negated e x y rest ihx ihy ih =>
    simp only [Body.tokens, List.cons_append, List.append_assoc] at h
    obtain ⟨p, us, rfl, h₁⟩ := items_eq_cons h
    obtain ⟨q, us, rfl, h₂⟩ := items_eq_cons h₁
    obtain ⟨es, r, us, rfl, he, h₃⟩ := tag_of_items h₂
    obtain ⟨xs, us, rfl, hx, h₄⟩ := items_eq_append h₃
    obtain ⟨ys, us, rfl, hy, h₅⟩ := items_eq_append h₄
    obtain ⟨ms, us, rfl, hm, h₆⟩ := items_eq_append h₅
    obtain ⟨x₁, y₁, z₁, rfl⟩ := mark_of_items hm
    obtain ⟨x', hnx, hbx⟩ := ihx hx
    obtain ⟨rest', hn, hb⟩ := ih h₆
    -- Without a second branch there is no block in front of one.
    split at hy
    · rename_i hnil
      subst hnil
      cases items_eq_nil hy
      have hnodes := @Nodes.conditional p q r x₁ y₁ z₁ negated _ _ _ _ _ _ he hnx hn
      refine ⟨_, by simpa using hnodes, ?_⟩
      show Body.conditional ⟨0, 0⟩ negated ⟨e.item, ⟨0, 0⟩⟩ x'.unplaced .nil rest'.unplaced = _
      rw [hbx, hb]
      rfl
    · obtain ⟨ms, ys, rfl, hm', hy'⟩ := items_eq_append hy
      obtain ⟨u, v, w, rfl⟩ := mark_of_items hm'
      obtain ⟨y', hny, hby⟩ := ihy hy'
      have hnodes := @Nodes.alternative p q r u v w x₁ y₁ z₁ negated _ _ _ _ _ _ _ _ he hnx hny hn
      refine ⟨_, by simpa using hnodes, ?_⟩
      show Body.conditional ⟨0, 0⟩ negated ⟨e.item, ⟨0, 0⟩⟩ x'.unplaced y'.unplaced
        rest'.unplaced = _
      rw [hbx, hby, hb]
      rfl

end Grammar

end Stencil
