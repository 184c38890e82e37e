import Stencil.Handler
import Stencil.Proofs.Joining.Rendering
import Stencil.Proofs.Joining.Trees
import Stencil.Proofs.Printing.RoundTrip
import Stencil.Proofs.Reading.Stuck
import Stencil.Proofs.Rendering.Pieces

/-!
# Texts in letters

In how many parts a text comes does not matter to what a template says. Main statements:
`exists_parse_of_letters` and `compileHtml_of_letters`, by which two sources whose tokens are the same once
each text is taken apart into its letters are both templates, or neither is, and compile to the same
routine.
-/

namespace Stencil

/-- The letters of a text, each of which is a text; any other token by itself. -/
def Token.letters : Token → List Token
  | .text s => s.toList.map fun c => .text (String.singleton c)
  | t => [t]

/-- Only a text has other letters than itself. -/
theorem Token.letters_of_isText {t : Token} (h : t.isText = false) : t.letters = [t] := by
  cases t with
  | text s => cases h
  | _ => rfl

namespace Grammar

variable {ts us : List (Located Token)} {s : Progress}

/-- The tokens with each text in letters, which have the place of the text. -/
def letters (ts : List (Located Token)) : List (Located Token) :=
  ts.flatMap fun t => t.item.letters.map fun u => ⟨u, t.span⟩

@[simp] theorem letters_append (ts us : List (Located Token)) :
    letters (ts ++ us) = letters ts ++ letters us :=
  List.flatMap_append

/-- Texts in letters in front of other tokens. -/
theorem letters_cons_text (s : String) (p : Span) (ts : List (Located Token)) :
    letters (⟨.text s, p⟩ :: ts) =
      (s.toList.map fun c => ⟨.text (String.singleton c), p⟩) ++ letters ts := by
  simp [letters, Token.letters]

/-- A token that is no text stands in front of others as it is. -/
theorem letters_cons {t : Located Token} (h : t.item.isText = false) (ts : List (Located Token)) :
    letters (t :: ts) = t :: letters ts := by
  simp [letters, Token.letters_of_isText h]

/-- Tokens that are no texts stand as they are. -/
theorem letters_of_isText (h : ∀ t ∈ items ts, t.isText = false) : letters ts = ts := by
  induction ts with
  | nil => rfl
  | cons t ts ih =>
    obtain ⟨ht, hts⟩ := List.forall_mem_cons.1 h
    rw [letters_cons ht, ih hts]

/-- The letters of tokens do not depend on places. -/
theorem items_letters (ts : List (Located Token)) :
    items (letters ts) = (items ts).flatMap Token.letters := by
  simp [items, letters, List.map_flatMap, List.flatMap_map, Function.comp_def]

/-! ### Reading letters -/

/-- A text can come between nodes, and leaves the progress as it is. -/
theorem step_text (s : Progress) (t : String) :
    s.step (.text t) = if s.position = .nodes then some s else none := by
  obtain ⟨opened, position⟩ := s
  cases position <;> rfl

/-- Letters of a text that is not empty can come where the text can. -/
theorem run_letters_text {cs : List Char} (hne : cs ≠ []) (p : Span) :
    s.run (cs.map fun c => ⟨.text (String.singleton c), p⟩) =
      if s.position = .nodes then some s else none := by
  induction cs with
  | nil => exact absurd rfl hne
  | cons c cs ih =>
    rw [List.map_cons, Progress.run_cons, step_text]
    by_cases hnodes : s.position = .nodes
    · rw [if_pos hnodes, Option.bind_some]
      cases cs with
      | nil => rfl
      | cons d cs => rw [ih (List.cons_ne_nil d cs), if_pos hnodes]
    · rw [if_neg hnodes, Option.bind_none]

/-- Tokens without empty texts lead as far in letters. -/
theorem run_letters (h : .text "" ∉ items ts) : s.run (letters ts) = s.run ts := by
  induction ts generalizing s with
  | nil => rfl
  | cons t ts ih =>
    obtain ⟨t, p⟩ := t
    rw [items_cons, List.mem_cons, not_or] at h
    obtain ⟨hne, hrest⟩ := h
    by_cases htext : ∃ u, t = .text u
    · obtain ⟨u, rfl⟩ := htext
      have hu : u.toList ≠ [] := fun e => hne (by rw [String.toList_eq_nil_iff.1 e])
      rw [letters_cons_text, Progress.run_append, run_letters_text hu, Progress.run_cons, step_text]
      by_cases hnodes : s.position = .nodes
      · simp only [if_pos hnodes, Option.bind_some, ih hrest]
      · simp only [if_neg hnodes, Option.bind_none]
    · have hno : t.isText = false := by
        cases t with
        | text u => exact absurd ⟨u, rfl⟩ htext
        | _ => rfl
      rw [letters_cons hno, Progress.run_cons, Progress.run_cons]
      simp only [ih hrest]

/-- Whether tokens lead to the end of a template does not depend on places. -/
theorem run_of_items (h : items us = items ts) : s.run us = s.run ts := by
  rw [Progress.run, Progress.run]
  exact congrArg (List.foldlM Progress.step s) h

end Grammar

/-! ### Trees in letters -/

namespace Body

/-- The body with each text in letters. -/
def letters : Body → Body
  | .nil => .nil
  | .text span s rest =>
    s.toList.foldr (fun c b => .text span (String.singleton c) b) rest.letters
  | .output span e rest => .output span e rest.letters
  | .raw span e rest => .raw span e rest.letters
  | .conditional span negated e thenBranch elseBranch rest =>
    .conditional span negated e thenBranch.letters elseBranch.letters rest.letters

end Body

namespace Grammar

/-- Letters in front of a template are texts of a template. -/
theorem Nodes.letters_text {ts : List (Located Token)} {b : Body} (h : Nodes ts b) (p : Span)
    (cs : List Char) :
    Nodes ((cs.map fun c => ⟨.text (String.singleton c), p⟩) ++ ts)
      (cs.foldr (fun c b => .text p (String.singleton c) b) b) := by
  induction cs with
  | nil => exact h
  | cons c cs ih => exact .text ih

/-- A block with nothing but a keyword has no text in it. -/
theorem letters_mark {keyword : Token} (h : keyword.isText = false) (x y z : Span) :
    Grammar.letters (mark keyword x y z) = mark keyword x y z := by
  rw [mark, letters_cons rfl, letters_cons h, letters_cons rfl]
  rfl

/-- A tag with an expression has no text in it. -/
theorem Expression.letters_tag {es : List (Located Token)} {e : Expr} (h : Expression es e)
    (q : Span) (ts : List (Located Token)) :
    Grammar.letters (es ++ ⟨.tagClose, q⟩ :: ts) = es ++ ⟨.tagClose, q⟩ :: Grammar.letters ts := by
  rw [letters_append, letters_of_isText h.isText, letters_cons rfl]

/-- The tokens of a template are those of a template in letters. -/
theorem Nodes.letters {ts : List (Located Token)} {b : Body} (h : Nodes ts b) :
    Nodes (letters ts) b.letters := by
  have hopening : ∀ (negated : Bool) (q : Span),
      (⟨opening negated, q⟩ : Located Token).item.isText = false := by
    intro negated q
    cases negated <;> rfl
  induction h with
  | nil => exact .nil
  | text _ ih =>
    rw [letters_cons_text]
    exact ih.letters_text _ _
  | output he _ ih =>
    rw [List.cons_append, letters_cons rfl, he.letters_tag]
    exact .output he ih
  | raw he _ ih =>
    rw [List.cons_append, letters_cons rfl, he.letters_tag]
    exact .raw he ih
  | @conditional p q r x y z negated es xs ts e _ _ he hx _ ihx ih =>
    simp only [List.cons_append, List.append_assoc]
    rw [letters_cons rfl, letters_cons (hopening negated q), he.letters_tag, letters_append,
      letters_append, letters_mark rfl]
    have hnodes := @Nodes.conditional p q r x y z negated _ _ _ _ _ _ he ihx ih
    simp only [List.cons_append, List.append_assoc] at hnodes
    exact hnodes
  | @alternative p q r u v w x y z negated es xs ys ts e _ _ _ he hx hy _ ihx ihy ih =>
    simp only [List.cons_append, List.append_assoc]
    rw [letters_cons rfl, letters_cons (hopening negated q), he.letters_tag, letters_append,
      letters_append, letters_mark rfl, letters_append, letters_append, letters_mark rfl]
    have hnodes := @Nodes.alternative p q r u v w x y z negated _ _ _ _ _ _ _ _ he ihx ihy ih
    simp only [List.cons_append, List.append_assoc] at hnodes
    exact hnodes

end Grammar

/-! ### Rendering letters -/

/-- The markup of a piece in front of others. -/
theorem Markup.join_cons (p : Markup) (ps : List Markup) :
    Markup.join (p :: ps) = ⟨p.html ++ (Markup.join ps).html⟩ := by
  simp [Markup.join]

namespace Body

/-- A text is printed in front of the rest. -/
theorem render_text (scope : Scope) (span : Span) (s : String) (rest : Body) :
    (text span s rest).render scope = do
      let n ← rest.render scope
      return ⟨s ++ n.html⟩ := by
  simp only [render_eq_bind, pieces, bind_assoc, pure_bind, Markup.join_cons]

/-- The result of an expression is printed in front of the rest. -/
theorem render_output (scope : Scope) (span : Span) (e : Located Expr) (rest : Body) :
    (output span e rest).render scope = do
      let r ← e.item.eval scope
      let n ← rest.render scope
      return ⟨r.escaped.html ++ n.html⟩ := by
  simp only [render_eq_bind, pieces, bind_assoc, pure_bind, Markup.join_cons]

/-- The text of an expression is printed in front of the rest. -/
theorem render_raw (scope : Scope) (span : Span) (e : Located Expr) (rest : Body) :
    (raw span e rest).render scope = do
      let r ← e.item.eval scope
      let n ← rest.render scope
      return ⟨r.text ++ n.html⟩ := by
  simp only [render_eq_bind, pieces, bind_assoc, pure_bind, Markup.join_cons]

/-- The branch that a conditional takes is printed in front of the rest. -/
theorem render_conditional (scope : Scope) (span : Span) (negated : Bool) (e : Located Expr)
    (x y rest : Body) :
    (conditional span negated e x y rest).render scope = do
      let r ← e.item.eval scope
      let m ← (if r.isTruthy != negated then x else y).render scope
      let n ← rest.render scope
      return ⟨m.html ++ n.html⟩ := by
  simp only [render_eq_bind, pieces_conditional, bind_assoc, pure_bind, Markup.join_append]

/-- Letters are printed in front of the rest as the text that they make up. -/
theorem render_letters_text (scope : Scope) (span : Span) (cs : List Char) (rest : Body) :
    (cs.foldr (fun c b => text span (String.singleton c) b) rest).render scope = do
      let n ← rest.render scope
      return ⟨String.ofList cs ++ n.html⟩ := by
  induction cs with
  | nil =>
    have hempty : ∀ n : Markup, (⟨String.ofList [] ++ n.html⟩ : Markup) = n := by
      intro n
      rw [String.ofList_nil, String.empty_append]
    simp only [List.foldr_nil, hempty, bind_pure]
  | cons c cs ih =>
    have hcons : ∀ t : String, String.singleton c ++ (String.ofList cs ++ t) =
        String.ofList (c :: cs) ++ t := by
      intro t
      rw [← String.append_assoc, String.singleton_eq_ofList, ← String.ofList_append]
      rfl
    simp only [List.foldr_cons, render_text, ih, bind_assoc, pure_bind, hcons]

/-- A body prints the same in letters. -/
theorem render_letters (scope : Scope) (b : Body) : b.letters.render scope = b.render scope := by
  induction b with
  | nil => rfl
  | text span s rest ih =>
    rw [letters, render_letters_text, render_text, ih, String.ofList_toList]
  | output span e rest ih => rw [letters, render_output, render_output, ih]
  | raw span e rest ih => rw [letters, render_raw, render_raw, ih]
  | conditional span negated e x y rest ihx ihy ih =>
    have hbranch : ∀ taken : Bool, (if taken then x.letters else y.letters).render scope =
        (if taken then x else y).render scope := by
      intro taken
      cases taken with
      | true => exact ihx
      | false => exact ihy
    rw [letters, render_conditional, render_conditional, ih]
    simp only [hbranch]

/-- A body calls the same helpers in letters. -/
theorem helpers_letters (b : Body) : b.letters.helpers = b.helpers := by
  have htext : ∀ (span : Span) (cs : List Char) (rest : Body),
      (cs.foldr (fun c b => text span (String.singleton c) b) rest).expressions =
        rest.expressions := by
    intro span cs rest
    induction cs with
    | nil => rfl
    | cons c cs ih => exact ih
  have hexpressions : b.letters.expressions = b.expressions := by
    induction b with
    | nil => rfl
    | text span s rest ih => exact (htext span s.toList rest.letters).trans ih
    | output span e rest ih | raw span e rest ih => exact congrArg (e :: ·) ih
    | conditional span negated e x y rest ihx ihy ih => simp only [letters, expressions, ihx, ihy, ih]
  rw [helpers, hexpressions, helpers]

end Body

/-! ### Sources with the same letters -/

variable {a b : String}

/-- A source has no empty text. -/
theorem empty_text_not_mem (source : String) : .text "" ∉ Grammar.items (tokenize source) := by
  intro h
  obtain ⟨before, after, hsplit⟩ := List.append_of_mem (text_mem_items.1 h)
  obtain ⟨ds, hds⟩ := Segment.exists_suffix_of_split hsplit
  exact Segment.ne_nil_of_split hds rfl

/-- A source is a template if another one is that has the same tokens in letters, and says the same. -/
theorem exists_parse_of_letters {x : Body} (hx : parse a = .ok x)
    (h : (Grammar.items (tokenize a)).flatMap Token.letters =
      (Grammar.items (tokenize b)).flatMap Token.letters) :
    ∃ y, parse b = .ok y ∧ y.helpers = x.helpers ∧ ∀ scope, y.render scope = x.render scope := by
  have hnodes := nodes_of_parse hx
  rw [← Grammar.items_letters, ← Grammar.items_letters] at h
  -- Texts in letters lead to the end of a template as they do when they are whole.
  have hrun := Grammar.exists_nodes_iff_run.1 ⟨x, hnodes⟩
  rw [← Grammar.run_letters (empty_text_not_mem a), Grammar.run_of_items h,
    Grammar.run_letters (empty_text_not_mem b)] at hrun
  obtain ⟨y, hy⟩ := Grammar.exists_nodes_iff_run.2 hrun
  obtain ⟨z, hz, hunplaced⟩ := hnodes.letters.of_items h.symm
  cases hz.unique hy.letters
  obtain ⟨hhelpers, hrender⟩ := Body.same_of_unplaced hunplaced
  refine ⟨y, parse_of_nodes hy, ?_, fun scope => ?_⟩
  · rw [← Body.helpers_letters y, hhelpers, Body.helpers_letters]
  · rw [← Body.render_letters scope y, hrender, Body.render_letters]

/-- Sources that have the same tokens in letters compile to the same routine, if they do at all. -/
theorem compileHtml_of_letters {f : Routine} (hf : Handler.compileHtml a = .ok f)
    (h : (Grammar.items (tokenize a)).flatMap Token.letters =
      (Grammar.items (tokenize b)).flatMap Token.letters) : Handler.compileHtml b = .ok f := by
  obtain ⟨x, hx, hknown, rfl⟩ := Handler.compileHtml_eq_ok.1 hf
  obtain ⟨y, hy, hhelpers, hrender⟩ := exists_parse_of_letters hx h
  refine Handler.compileHtml_eq_ok.2 ⟨y, hy, ?_, funext hrender⟩
  rwa [Body.unknownHelper?, hhelpers]

end Stencil
