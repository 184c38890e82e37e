import Stencil.Proofs.Joining.Rendering
import Stencil.Proofs.Rendering.Calls
import Stencil.Proofs.Rendering.Escaping

/-!
# How rendering can fail

A template that has been compiled evaluates the expressions that it comes to, and fails with what one
of them lacks: an attribute, or the address of a route. Main statements: `Expr.lacks_of_eval`, by
which an expression whose helpers exist fails in no other way; `exists_render_iff`, by which a body is
rendered exactly if each expression that it comes to has a result; and
`helpers_are_checked_by_compiling`.
-/

namespace Stencil

/-- The operands of an expression. -/
def Expr.operands : Expr → List Operand
  | .operand o => [o]
  | .call _ args => args

/-- What an expression lacks in a scope, told as the failure that comes of it: an attribute that it
names, or the address of a route that it asks for. -/
inductive Expr.Lacks (scope : Scope) (e : Expr) : Failure → Prop
  | attribute {root : String} {steps : List String} :
      .path root steps ∈ e.operands → scope.attributes.find? root = none →
      Lacks scope e (.undefinedAttribute scope.component root)
  | route {args : List Operand} {results : List Result} {name : String} :
      e = .call "url" args → Operand.evalAll scope args = .ok results →
      name = (results.head?.getD (.value .null)).text →
      scope.routes.urlFor name (results.tail.map Result.param) = none →
      Lacks scope e (.unknownRoute name)

section Expressions

variable {scope : Scope} {f : Failure}

/-- Two steps fail if the first does, or the second after the first has succeeded. -/
theorem bind_eq_error {ε α β : Type} {x : Except ε α} {g : α → Except ε β} {e : ε} :
    x >>= g = .error e ↔ x = .error e ∨ ∃ a, x = .ok a ∧ g a = .error e := by
  cases x with
  | error e' => simp [bind, Except.bind]
  | ok a => simp [bind, Except.bind]

/-- An operand fails if it is a path whose attribute is not there. -/
theorem Operand.eval_eq_error {o : Operand} (h : o.eval scope = .error f) :
    ∃ root steps, o = .path root steps ∧ scope.attributes.find? root = none ∧
      f = .undefinedAttribute scope.component root := by
  cases o with
  | str s => cases h
  | int n => cases h
  | path root steps =>
    rw [eval] at h
    split at h
    · cases h
    · rw [Scope.lookup] at h
      cases hroot : scope.attributes.find? root with
      | some v =>
        rw [hroot] at h
        cases h
      | none =>
        rw [hroot] at h
        cases h
        exact ⟨root, steps, rfl, hroot, rfl⟩

/-- Operands fail if one of them does. -/
theorem Operand.evalAll_eq_error {os : List Operand} (h : Operand.evalAll scope os = .error f) :
    ∃ o ∈ os, o.eval scope = .error f := by
  induction os with
  | nil => cases h
  | cons o os ih =>
    rcases bind_eq_error.1 h with h | ⟨r, -, h⟩
    · exact ⟨o, List.mem_cons_self, h⟩
    · rcases bind_eq_error.1 h with h | ⟨rs, -, h⟩
      · obtain ⟨o', ho', hf⟩ := ih h
        exact ⟨o', List.mem_cons_of_mem _ ho', hf⟩
      · cases h

/-- The one helper that fails is `url`, when there is no address. -/
theorem Helper.apply_eq_error {helper : Helper} {first : Result} {others : List Result}
    (h : helper.apply scope first others = .error f) :
    helper = .url ∧ scope.routes.urlFor first.text (others.map Result.param) = none ∧
      f = .unknownRoute first.text := by
  cases helper with
  | url =>
    rw [apply] at h
    cases hurl : scope.routes.urlFor first.text (others.map Result.param) with
    | some address =>
      rw [hurl] at h
      cases h
    | none =>
      rw [hurl] at h
      cases h
      exact ⟨rfl, rfl, rfl⟩
  | upcase => cases h
  | downcase => cases h
  | default => cases h

/-- The helper `url` has its name from itself alone. -/
theorem Helper.ofName?_eq_url {name : String} (h : Helper.ofName? name = some .url) :
    name = "url" := by
  rw [ofName?] at h
  split_ifs at h with hname
  · exact hname
  all_goals cases h

/-- An expression whose helper exists fails with what it lacks. -/
theorem Expr.lacks_of_eval {e : Expr} (hknown : ∀ name, e.helper? = some name → name ∈ helperNames)
    (h : e.eval scope = .error f) : e.Lacks scope f := by
  cases e with
  | operand o =>
    obtain ⟨root, steps, rfl, hroot, rfl⟩ := Operand.eval_eq_error h
    exact .attribute (List.mem_singleton.2 rfl) hroot
  | call name args =>
    rcases bind_eq_error.1 h with h | ⟨results, hresults, h⟩
    · obtain ⟨o, ho, hf⟩ := Operand.evalAll_eq_error h
      obtain ⟨root, steps, rfl, hroot, rfl⟩ := Operand.eval_eq_error hf
      exact .attribute ho hroot
    · cases hhelper : Helper.ofName? name with
      | none => exact absurd (hknown name rfl) (Helper.isNone_ofName?.1 (by rw [hhelper]; rfl))
      | some helper =>
        rw [hhelper] at h
        obtain ⟨rfl, hurl, rfl⟩ := Helper.apply_eq_error h
        obtain rfl := Helper.ofName?_eq_url hhelper
        exact .route rfl hresults rfl hurl

end Expressions

namespace Body

/-- The expressions that are evaluated when a body is rendered, in the order of the template, as long
as none fails: those of a branch only if the branch is taken. -/
def evaluated (scope : Scope) : Body → List (Located Expr)
  | .nil => []
  | .text _ _ rest => rest.evaluated scope
  | .output _ e rest => e :: rest.evaluated scope
  | .raw _ e rest => e :: rest.evaluated scope
  | .conditional _ negated e thenBranch elseBranch rest =>
    e :: (match e.item.holds? scope negated with
      | some true => thenBranch.evaluated scope
      | some false => elseBranch.evaluated scope
      | none => []) ++ rest.evaluated scope

variable {scope : Scope} {f : Failure}

/-- What is evaluated stands in the body. -/
theorem contains_of_mem_evaluated {b : Body} {e : Located Expr} (h : e ∈ b.evaluated scope) :
    b.Contains e := by
  induction b with
  | nil => cases h
  | text span s rest ih => exact ih h
  | output span x rest ih | raw span x rest ih =>
    rcases List.mem_cons.1 h with rfl | h
    · exact .inl rfl
    · exact .inr (ih h)
  | conditional span negated x y z rest ihy ihz ih =>
    rcases List.mem_cons.1 h with rfl | h
    · exact .inl rfl
    · rcases List.mem_append.1 h with h | h
      · split at h
        · exact .inr (.inl (ihy h))
        · exact .inr (.inr (.inl (ihz h)))
        · cases h
      · exact .inr (.inr (.inr (ih h)))

/-- A conditional whose condition has a result evaluates the condition, the branch that it takes, and
what follows. -/
theorem evaluated_conditional {span : Span} {negated : Bool} {e : Located Expr} {x y rest : Body}
    {r : Result} (h : e.item.eval scope = .ok r) :
    (conditional span negated e x y rest).evaluated scope =
      e :: ((if r.isTruthy != negated then x else y).evaluated scope ++ rest.evaluated scope) := by
  rw [evaluated, holds?_eq_some negated h]
  cases r.isTruthy != negated with
  | true => rfl
  | false => rfl

/-- A body that fails does so with an expression that it evaluates. -/
theorem exists_of_pieces_eq_error {b : Body} (h : b.pieces scope = .error f) :
    ∃ e ∈ b.evaluated scope, e.item.eval scope = .error f := by
  induction b with
  | nil => cases h
  | text span s rest ih =>
    rcases bind_eq_error.1 h with h | ⟨more, -, h⟩
    · exact ih h
    · cases h
  | output span e rest ih | raw span e rest ih =>
    rcases bind_eq_error.1 h with h | ⟨r, -, h⟩
    · exact ⟨e, List.mem_cons_self, h⟩
    · rcases bind_eq_error.1 h with h | ⟨more, -, h⟩
      · obtain ⟨e', he', hf⟩ := ih h
        exact ⟨e', List.mem_cons_of_mem _ he', hf⟩
      · cases h
  | conditional span negated e x y rest ihx ihy ih =>
    rw [pieces_conditional] at h
    rcases bind_eq_error.1 h with h | ⟨r, hr, h⟩
    · exact ⟨e, List.mem_cons_self, h⟩
    · rw [evaluated_conditional hr]
      rcases bind_eq_error.1 h with h | ⟨branch, -, h⟩
      · -- The branch that failed is the one that was taken.
        have hbranch : ∃ e' ∈ (if r.isTruthy != negated then x else y).evaluated scope,
            e'.item.eval scope = .error f := by
          by_cases ht : (r.isTruthy != negated) = true
          · rw [if_pos ht] at h ⊢
            exact ihx h
          · rw [if_neg ht] at h ⊢
            exact ihy h
        obtain ⟨e', he', hf⟩ := hbranch
        exact ⟨e', List.mem_cons_of_mem _ (List.mem_append_left _ he'), hf⟩
      · rcases bind_eq_error.1 h with h | ⟨more, -, h⟩
        · obtain ⟨e', he', hf⟩ := ih h
          exact ⟨e', List.mem_cons_of_mem _ (List.mem_append_right _ he'), hf⟩
        · cases h

/-- A body that is rendered has evaluated its expressions, each to a result. -/
theorem eval_of_pieces_eq_ok {b : Body} {ps : List Markup} (h : b.pieces scope = .ok ps) :
    ∀ e ∈ b.evaluated scope, ∃ r, e.item.eval scope = .ok r := by
  induction b generalizing ps with
  | nil => simp [evaluated]
  | text span s rest ih =>
    obtain ⟨more, hm, -⟩ := pieces_text_eq_ok.1 h
    exact ih hm
  | output span e rest ih =>
    obtain ⟨r, hr, more, hm, -⟩ := pieces_output_eq_ok.1 h
    exact List.forall_mem_cons.2 ⟨⟨r, hr⟩, ih hm⟩
  | raw span e rest ih =>
    obtain ⟨r, hr, more, hm, -⟩ := pieces_raw_eq_ok.1 h
    exact List.forall_mem_cons.2 ⟨⟨r, hr⟩, ih hm⟩
  | conditional span negated e x y rest ihx ihy ih =>
    obtain ⟨r, hr, branch, hbr, more, hm, -⟩ := pieces_conditional_eq_ok.1 h
    rw [evaluated_conditional hr]
    refine List.forall_mem_cons.2 ⟨⟨r, hr⟩, List.forall_mem_append.2 ⟨?_, ih hm⟩⟩
    by_cases ht : (r.isTruthy != negated) = true
    · rw [if_pos ht] at hbr ⊢
      exact ihx hbr
    · rw [if_neg ht] at hbr ⊢
      exact ihy hbr

/-- Rendering a body fails as its pieces do. -/
theorem render_eq_error {b : Body} : b.render scope = .error f ↔ b.pieces scope = .error f := by
  rw [render]
  cases b.pieces scope with
  | error f' => simp [Except.map]
  | ok ps => simp [Except.map]

/-- A body whose helpers exist fails with what an expression lacks that it evaluates. -/
theorem exists_lacks_of_render {b : Body} (hb : b.unknownHelper? = none)
    (h : b.render scope = .error f) :
    ∃ e ∈ b.evaluated scope, e.item.eval scope = .error f ∧ e.item.Lacks scope f := by
  obtain ⟨e, he, hf⟩ := exists_of_pieces_eq_error (render_eq_error.1 h)
  refine ⟨e, he, hf, Expr.lacks_of_eval (fun name hname => ?_) hf⟩
  obtain ⟨args, hargs⟩ := helper?_eq_some.1 hname
  have hcall : b.Contains ⟨.call name args, e.span⟩ := hargs ▸ contains_of_mem_evaluated he
  exact unknownHelper?_eq_none.1 hb name e.span ⟨args, hcall⟩

/-- A body is rendered exactly if each expression that it evaluates has a result. -/
theorem exists_render_iff {b : Body} :
    (∃ m, b.render scope = .ok m) ↔
      ∀ e ∈ b.evaluated scope, ∃ r, e.item.eval scope = .ok r := by
  constructor
  · rintro ⟨m, hm⟩
    obtain ⟨ps, hps, -⟩ := render_eq_ok.1 hm
    exact eval_of_pieces_eq_ok hps
  · intro h
    cases hp : b.pieces scope with
    | ok ps => exact ⟨Markup.join ps, render_eq_ok.2 ⟨ps, hp, rfl⟩⟩
    | error f =>
      obtain ⟨e, he, hf⟩ := exists_of_pieces_eq_error hp
      obtain ⟨r, hr⟩ := h e he
      rw [hf] at hr
      cases hr

end Body

/-- A template that can be parsed is compiled if and only if each helper exists that it calls
anywhere, and the failure names the unknown helper that is called first. Once compiled it is rendered,
in whatever scope, if and only if each expression has a result that is evaluated there, which those
in branches not taken are not; and it fails only with an attribute or a route that one of these
expressions lacks. -/
theorem helpers_are_checked_by_compiling {source : String} {b : Body} (kind : String)
    (h : parse source = .ok b) :
    ((∃ f, Handler.html.call ⟨source, kind⟩ = .error f) ↔
      ∃ name span, b.Calls name span ∧ name ∉ helperNames) ∧
    (∀ f, Handler.html.call ⟨source, kind⟩ = .error f →
      ∃ name span, b.Calls name span ∧ name ∉ helperNames ∧ f = .unknownHelper "" name ∧
        ∀ other place, b.Calls other place → other ∉ helperNames →
          other = name ∧ place = span ∨ span.stop ≤ place.start) ∧
    ∀ routine, Handler.html.call ⟨source, kind⟩ = .ok routine → ∀ scope,
      ((∃ m, routine scope = .ok m) ↔
        ∀ e ∈ b.evaluated scope, ∃ r, e.item.eval scope = .ok r) ∧
      ∀ f, routine scope = .error f →
        ∃ e ∈ b.evaluated scope, e.item.eval scope = .error f ∧ e.item.Lacks scope f := by
  have hcall : Handler.html.call ⟨source, kind⟩ = _ := compileHtml_of_parse h
  rw [hcall]
  cases hb : b.unknownHelper? with
  | some name =>
    obtain ⟨span, hcalls, hunknown, hfirst⟩ := calls_of_unknownHelper? h hb
    refine ⟨⟨fun _ => ⟨name, span, hcalls, hunknown⟩, fun _ => ⟨_, rfl⟩⟩, ?_, ?_⟩
    · rintro f ⟨⟩
      exact ⟨name, span, hcalls, hunknown, rfl, hfirst⟩
    · rintro routine ⟨⟩
  | none =>
    refine ⟨⟨?_, ?_⟩, ?_, ?_⟩
    · rintro ⟨f, ⟨⟩⟩
    · rintro ⟨name, span, hcalls, hunknown⟩
      exact absurd (Body.unknownHelper?_eq_none.1 hb name span hcalls) hunknown
    · rintro f ⟨⟩
    · rintro routine ⟨⟩ scope
      exact ⟨Body.exists_render_iff, fun f hf => Body.exists_lacks_of_render hb hf⟩

/-- An unknown helper is found in a branch, in front of another one; and an attribute that is missing
in a branch makes rendering fail only when the branch is taken. -/
theorem helpers_are_checked_by_compiling_branches :
    (∃ span, Body.Calls
        (.conditional ⟨0, 29⟩ false ⟨.operand (.path "a" []), ⟨6, 7⟩⟩
          (.output ⟨10, 20⟩ ⟨.call "f" [.path "b" []], ⟨13, 17⟩⟩ .nil) .nil
          (.output ⟨29, 38⟩ ⟨.call "g" [], ⟨32, 35⟩⟩ .nil)) "f" span ∧
        span.stop ≤ 32) ∧
      ∃ routine,
        Handler.html.call ⟨"\x7b% if a %\x7d\x7b\x7b url(b) \x7d\x7d\x7b% end %\x7d", "html"⟩ =
          .ok routine ∧
        (∃ m, routine ⟨"Box", ⟨[("a", .bool false)]⟩, none, .empty⟩ = .ok m) ∧
        ∃ e : Located Expr, e.item.Lacks ⟨"Box", ⟨[("a", .bool true)]⟩, none, .empty⟩
          (.undefinedAttribute "Box" "b") := by
  constructor
  · have hparse : parse
        "\x7b% if a %\x7d\x7b\x7b f(b) \x7d\x7d\x7b% end %\x7d\x7b\x7b g() \x7d\x7d" =
        .ok (.conditional ⟨0, 29⟩ false ⟨.operand (.path "a" []), ⟨6, 7⟩⟩
          (.output ⟨10, 20⟩ ⟨.call "f" [.path "b" []], ⟨13, 17⟩⟩ .nil) .nil
          (.output ⟨29, 38⟩ ⟨.call "g" [], ⟨32, 35⟩⟩ .nil)) := by
      apply parse_of_nodes
      have tokens : tokenize
          "\x7b% if a %\x7d\x7b\x7b f(b) \x7d\x7d\x7b% end %\x7d\x7b\x7b g() \x7d\x7d" =
        [⟨.blockOpen, ⟨0, 2⟩⟩, ⟨.kwIf, ⟨3, 5⟩⟩, ⟨.ident "a", ⟨6, 7⟩⟩, ⟨.tagClose, ⟨8, 10⟩⟩,
          ⟨.outputOpen, ⟨10, 12⟩⟩, ⟨.ident "f", ⟨13, 14⟩⟩, ⟨.parenOpen, ⟨14, 15⟩⟩,
          ⟨.ident "b", ⟨15, 16⟩⟩, ⟨.parenClose, ⟨16, 17⟩⟩, ⟨.tagClose, ⟨18, 20⟩⟩,
          ⟨.blockOpen, ⟨20, 22⟩⟩, ⟨.kwEnd, ⟨23, 26⟩⟩, ⟨.tagClose, ⟨27, 29⟩⟩,
          ⟨.outputOpen, ⟨29, 31⟩⟩, ⟨.ident "g", ⟨32, 33⟩⟩, ⟨.parenOpen, ⟨33, 34⟩⟩,
          ⟨.parenClose, ⟨34, 35⟩⟩, ⟨.tagClose, ⟨36, 38⟩⟩] := by
        decide +kernel
      rw [tokens]
      change Grammar.Nodes (⟨.blockOpen, ⟨0, 2⟩⟩ :: ⟨Grammar.opening false, ⟨3, 5⟩⟩ :: _) _
      exact .conditional (.operand (.path .nil)) (.output (.call (.last (.path .nil))) .nil)
        (.output (.call .nil) .nil)
    obtain ⟨-, hfirst, -⟩ := helpers_are_checked_by_compiling "html" hparse
    obtain ⟨name, span, hcalls, -, hname, hbefore⟩ := hfirst _ (compileHtml_of_parse hparse)
    cases hname
    rcases hbefore "g" ⟨32, 35⟩ ⟨[], .inr (.inr (.inr (.inl rfl)))⟩ (by decide) with ⟨h, -⟩ | h
    · exact absurd h (by decide)
    · exact ⟨span, hcalls, h⟩
  · have hparse : parse "\x7b% if a %\x7d\x7b\x7b url(b) \x7d\x7d\x7b% end %\x7d" =
        .ok (.conditional ⟨0, 31⟩ false ⟨.operand (.path "a" []), ⟨6, 7⟩⟩
          (.output ⟨10, 22⟩ ⟨.call "url" [.path "b" []], ⟨13, 19⟩⟩ .nil) .nil .nil) := by
      apply parse_of_nodes
      have tokens : tokenize "\x7b% if a %\x7d\x7b\x7b url(b) \x7d\x7d\x7b% end %\x7d" =
        [⟨.blockOpen, ⟨0, 2⟩⟩, ⟨.kwIf, ⟨3, 5⟩⟩, ⟨.ident "a", ⟨6, 7⟩⟩, ⟨.tagClose, ⟨8, 10⟩⟩,
          ⟨.outputOpen, ⟨10, 12⟩⟩, ⟨.ident "url", ⟨13, 16⟩⟩, ⟨.parenOpen, ⟨16, 17⟩⟩,
          ⟨.ident "b", ⟨17, 18⟩⟩, ⟨.parenClose, ⟨18, 19⟩⟩, ⟨.tagClose, ⟨20, 22⟩⟩,
          ⟨.blockOpen, ⟨22, 24⟩⟩, ⟨.kwEnd, ⟨25, 28⟩⟩, ⟨.tagClose, ⟨29, 31⟩⟩] := by
        decide +kernel
      rw [tokens]
      change Grammar.Nodes (⟨.blockOpen, ⟨0, 2⟩⟩ :: ⟨Grammar.opening false, ⟨3, 5⟩⟩ :: _) _
      exact .conditional (.operand (.path .nil)) (.output (.call (.last (.path .nil))) .nil) .nil
    have hcall : Handler.html.call ⟨_, "html"⟩ = _ := compileHtml_of_parse hparse
    obtain ⟨-, -, hrun⟩ := helpers_are_checked_by_compiling "html" hparse
    refine ⟨_, hcall, ?_, ?_⟩
    · refine (hrun _ hcall _).1.2 fun e he => ?_
      rw [List.mem_singleton.1 he]
      exact ⟨_, rfl⟩
    · obtain ⟨e, -, -, hlacks⟩ := (hrun _ hcall ⟨"Box", ⟨[("a", .bool true)]⟩, none, .empty⟩).2
        (.undefinedAttribute "Box" "b") rfl
      exact ⟨e, hlacks⟩

end Stencil
