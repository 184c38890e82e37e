import Mathlib.Data.List.Basic
import Stencil.Handler
import Stencil.Proofs.Lexing.Places
import Stencil.Proofs.Reading.Sound

/-!
# Calls in templates

A template is compiled only if each helper exists that it calls anywhere. Main statements:
`pairwise_expressions`, by which the expressions of a template are listed in the order in which they
stand in its source; `unknownHelper?_eq_none`, by which an unknown helper is found exactly if one is
called; and `calls_of_unknownHelper?`, by which it is the one that is called first.
-/

namespace Stencil

/-- The names of the helpers. -/
def helperNames : List String := ["url", "upcase", "downcase", "default"]

/-- A name has a helper exactly if it is one of the four. -/
theorem Helper.isNone_ofName? {name : String} :
    (Helper.ofName? name).isNone = true ↔ name ∉ helperNames := by
  rw [Helper.ofName?, helperNames]
  split_ifs with h₁ h₂ h₃ h₄
  case neg => simp [h₁, h₂, h₃, h₄]
  all_goals
    subst name
    decide

namespace Body

/-- The expression stands in the body, at any depth: it is printed, or it is the condition of a
conditional. -/
def Contains (e : Located Expr) : Body → Prop
  | .nil => False
  | .text _ _ rest => rest.Contains e
  | .output _ x rest => e = x ∨ rest.Contains e
  | .raw _ x rest => e = x ∨ rest.Contains e
  | .conditional _ _ x thenBranch elseBranch rest =>
    e = x ∨ thenBranch.Contains e ∨ elseBranch.Contains e ∨ rest.Contains e

/-- The body calls the helper of a name at a place, in some branch or outside of branches. -/
def Calls (b : Body) (name : String) (span : Span) : Prop :=
  ∃ args, b.Contains ⟨.call name args, span⟩

/-- The expressions that are listed are those that the body contains. -/
theorem mem_expressions {b : Body} {e : Located Expr} : e ∈ b.expressions ↔ b.Contains e := by
  induction b with
  | nil => simp [expressions, Contains]
  | text span s rest ih => exact ih
  | output span x rest ih | raw span x rest ih => simp only [expressions, Contains, List.mem_cons, ih]
  | conditional span negated x y z rest ihy ihz ih =>
    simp only [expressions, Contains, List.cons_append, List.append_assoc, List.mem_cons,
      List.mem_append, ihy, ihz, ih]

/-- An expression calls a helper if it is a call of it. -/
theorem helper?_eq_some {e : Expr} {name : String} :
    e.helper? = some name ↔ ∃ args, e = .call name args := by
  cases e with
  | operand o => simp [Expr.helper?]
  | call helper args => simp [Expr.helper?]

/-- No unknown helper is found exactly if none is called. -/
theorem unknownHelper?_eq_none {b : Body} :
    b.unknownHelper? = none ↔ ∀ name span, b.Calls name span → name ∈ helperNames := by
  simp only [unknownHelper?, helpers, List.find?_eq_none, Helper.isNone_ofName?, not_not,
    List.mem_filterMap, mem_expressions, helper?_eq_some]
  constructor
  · rintro h name span ⟨args, hcall⟩
    exact h name ⟨_, hcall, args, rfl⟩
  · rintro h name ⟨⟨_, span⟩, hcall, args, rfl⟩
    exact h name span ⟨args, hcall⟩

end Body

namespace Grammar

/-- Each token ends before the next one begins. -/
def InOrder (ts : List (Located Token)) : Prop :=
  ts.Pairwise fun t u => t.span.stop ≤ u.span.start

/-- The tokens of a source follow one another. -/
theorem inOrder_tokenize (source : String) : InOrder (tokenize source) :=
  Lexeme.pairwise_locate 0 _

section Order

variable {t : Located Token} {ts us : List (Located Token)} {es fs : List (Located Expr)}

theorem InOrder.tail (h : InOrder (t :: ts)) : InOrder ts := (List.pairwise_cons.1 h).2

theorem InOrder.left (h : InOrder (ts ++ us)) : InOrder ts := (List.pairwise_append.1 h).1

theorem InOrder.right (h : InOrder (ts ++ us)) : InOrder us := (List.pairwise_append.1 h).2.1

/-- The place begins with one of the tokens and ends with one of them. -/
def Within (ts : List (Located Token)) (span : Span) : Prop :=
  (∃ t ∈ ts, span.start = t.span.start) ∧ ∃ t ∈ ts, span.stop = t.span.stop

/-- A place within tokens is within more of them. -/
theorem Within.mono {span : Span} (h : Within ts span) (hsub : ts ⊆ us) : Within us span := by
  obtain ⟨⟨t, ht, hstart⟩, u, hu, hstop⟩ := h
  exact ⟨⟨t, hsub ht, hstart⟩, u, hsub hu, hstop⟩

/-- Expressions among tokens, in the order of these. -/
structure Listed (ts : List (Located Token)) (es : List (Located Expr)) : Prop where
  /-- Each expression has its place within the tokens. -/
  within : ∀ e ∈ es, Within ts e.span
  /-- Each expression ends before the next one begins. -/
  inOrder : es.Pairwise fun e f => e.span.stop ≤ f.span.start

/-- An expression is listed among its own tokens. -/
theorem Expression.listed {e : Expr} (h : Expression ts e) : Listed ts [⟨e, extent ts⟩] := by
  refine ⟨?_, List.pairwise_singleton _ _⟩
  intro f hf
  rw [List.mem_singleton.1 hf]
  have hne : ts ≠ [] := by
    rintro rfl
    cases h with
    | operand h => cases h
  constructor
  · exact ⟨ts.head hne, List.head_mem hne, by simp [extent, List.head?_eq_some_head hne]⟩
  · exact ⟨ts.getLast hne, List.getLast_mem hne,
      by simp [extent, List.getLast?_eq_some_getLast hne]⟩

/-- A token without an expression in front changes nothing. -/
theorem Listed.cons (h : Listed ts es) (t : Located Token) : Listed (t :: ts) es :=
  ⟨fun e he => (h.within e he).mono (List.subset_cons_self t ts), h.inOrder⟩

/-- Expressions among tokens come before those among later tokens. -/
theorem Listed.append (hes : Listed ts es) (hfs : Listed us fs) (h : InOrder (ts ++ us)) :
    Listed (ts ++ us) (es ++ fs) := by
  constructor
  · intro e he
    rcases List.mem_append.1 he with he | he
    · exact (hes.within e he).mono (List.subset_append_left ts us)
    · exact (hfs.within e he).mono (List.subset_append_right ts us)
  · refine List.pairwise_append.2 ⟨hes.inOrder, hfs.inOrder, fun e he f hf => ?_⟩
    obtain ⟨-, t, ht, hstop⟩ := hes.within e he
    obtain ⟨⟨u, hu, hstart⟩, -⟩ := hfs.within f hf
    rw [hstop, hstart]
    exact (List.pairwise_append.1 h).2.2 t ht u hu

/-- The expression of a tag is listed before those of what follows the tag. -/
theorem Expression.listed_tag {e : Expr} {q : Span} (he : Expression ts e)
    (h : InOrder (ts ++ ⟨.tagClose, q⟩ :: us)) (ih : InOrder us → Listed us fs) :
    Listed (ts ++ ⟨.tagClose, q⟩ :: us) (⟨e, extent ts⟩ :: fs) :=
  he.listed.append ((ih h.right.tail).cons _) h

/-- The expressions of a branch are listed before those of what follows the block at its end. -/
theorem Listed.append_mark {keyword : Token} {x y z : Span} (hes : InOrder ts → Listed ts es)
    (hfs : InOrder us → Listed us fs) (h : InOrder (ts ++ (mark keyword x y z ++ us))) :
    Listed (ts ++ (mark keyword x y z ++ us)) (es ++ fs) :=
  (hes h.left).append ((((hfs h.right.tail.tail.tail).cons _).cons _).cons _) h

/-- The expressions of a body are listed in the order in which they stand among its tokens. -/
theorem Nodes.listed {b : Body} (h : Nodes ts b) (hts : InOrder ts) : Listed ts b.expressions := by
  induction h with
  | nil => exact ⟨by simp [Body.expressions], .nil⟩
  | text _ ih => exact (ih hts.tail).cons _
  | output he _ ih => exact (he.listed_tag hts.tail ih).cons _
  | raw he _ ih => exact (he.listed_tag hts.tail ih).cons _
  | conditional he _ _ ihx ih =>
    simp only [Body.expressions, List.cons_append, List.append_nil, List.append_assoc] at hts ⊢
    refine ((he.listed_tag hts.tail.tail fun hx => ?_).cons _).cons _
    exact .append_mark ihx ih hx
  | alternative he _ _ _ ihx ihy ih =>
    simp only [Body.expressions, List.cons_append, List.append_assoc] at hts ⊢
    refine ((he.listed_tag hts.tail.tail fun hx => ?_).cons _).cons _
    exact .append_mark ihx (fun hy => .append_mark ihy ih hy) hx

end Order

end Grammar

section Compiling

variable {source : String} {b : Body}

/-- The expressions of a template are listed in the order in which they stand in its source. -/
theorem pairwise_expressions (h : parse source = .ok b) :
    b.expressions.Pairwise fun e f => e.span.stop ≤ f.span.start :=
  ((nodes_of_parse h).listed (Grammar.inOrder_tokenize source)).inOrder

/-- The unknown helper that is found is called in front of every other one. -/
theorem calls_of_unknownHelper? {name : String} (h : parse source = .ok b)
    (hb : b.unknownHelper? = some name) :
    ∃ span, b.Calls name span ∧ name ∉ helperNames ∧
      ∀ other place, b.Calls other place → other ∉ helperNames →
        other = name ∧ place = span ∨ span.stop ≤ place.start := by
  rw [Body.unknownHelper?, Body.helpers, List.find?_filterMap] at hb
  obtain ⟨⟨e, span⟩, hfind, he⟩ := Option.bind_eq_some_iff.1 hb
  obtain ⟨args, rfl⟩ := Body.helper?_eq_some.1 he
  obtain ⟨hunknown, before, after, hsplit, hbefore⟩ := List.find?_eq_some_iff_append.1 hfind
  have horder := pairwise_expressions h
  rw [hsplit] at horder
  refine ⟨span, ⟨args, ?_⟩, Helper.isNone_ofName?.1 hunknown, ?_⟩
  · rw [← Body.mem_expressions, hsplit]
    exact List.mem_append_right _ List.mem_cons_self
  · rintro other place ⟨args', hcall⟩ hother
    rw [← Body.mem_expressions, hsplit] at hcall
    -- A call in front of the one that was found is one of a helper that exists.
    rcases List.mem_append.1 hcall with hmem | hmem
    · have hknown := hbefore _ hmem
      simp [Expr.helper?, Helper.isNone_ofName?.2 hother] at hknown
    · rcases List.mem_cons.1 hmem with heq | hmem
      · cases heq
        exact .inl ⟨rfl, rfl⟩
      · have hlater := (List.pairwise_append.1 horder).2.1
        exact .inr ((List.pairwise_cons.1 hlater).1 _ hmem)

/-- What is left to decide of a template that has been parsed is whether its helpers exist. -/
theorem compileHtml_of_parse (h : parse source = .ok b) :
    Handler.compileHtml source =
      match b.unknownHelper? with
      | some name => .error (.unknownHelper "" name)
      | none => .ok fun scope => b.render scope := by
  cases hb : b.unknownHelper? with
  | none => simp only [Handler.compileHtml, h, hb]
  | some name => simp only [Handler.compileHtml, h, hb]

end Compiling

end Stencil
