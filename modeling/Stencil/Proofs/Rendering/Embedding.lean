import Mathlib.Data.String.Basic
import Stencil.Proofs.Joining.Rendering
import Stencil.Proofs.Rendering.Evaluated
import Stencil.Proofs.Views.Stages

/-!
# Content is embedded as it stands

A template does not look into the content that was captured for it: as long as that is not blank it
takes the same branches, has the same values and prints the content in the same places. What is
computed from content in this way is called uniform, and steps that are uniform can be put together
(`Uniform.bind`). Main statements: `Body.uniform_pieces`, on the pieces that a body prints, and
`content_is_embedded_verbatim`, by which a template prints fixed texts with the content between them.
-/

namespace Stencil

/-- The scope with content that was captured. -/
def Scope.withContent (scope : Scope) (m : Markup) : Scope := { scope with content := some m }

/-- Goes the same way for all content that is not blank: it fails with one failure, or comes to what
`fill` makes of the content and of one and the same shape. -/
def Uniform {α σ : Type} (fill : Markup → σ → α) (run : Markup → Except Failure α) : Prop :=
  (∃ f, ∀ m, m.isBlank = false → run m = .error f) ∨
    ∃ shape, ∀ m, m.isBlank = false → run m = .ok (fill m shape)

/-- The result of the given shape: a value, or else the content. -/
def Result.fill (m : Markup) : Option Value → Result
  | none => .markup m
  | some v => .value v

/-- The results of the given shapes. -/
def Result.fillAll (m : Markup) (shapes : List (Option Value)) : List Result :=
  shapes.map (Result.fill m)

/-- The expression asks for the address of a route, with the content among its arguments. -/
def Expr.LinksContent (e : Expr) : Prop :=
  ∃ args, e = .call "url" args ∧ .path contentName [] ∈ args

section Uniform

variable {α β σ τ : Type} {fill : Markup → σ → α} {fill' : Markup → τ → β}
  {run run' : Markup → Except Failure α}

/-- A failure that does not depend on the content. -/
theorem Uniform.error (f : Failure) : Uniform fill fun _ => .error f :=
  .inl ⟨f, fun _ _ => rfl⟩

/-- A result of one shape. -/
theorem Uniform.ok (shape : σ) : Uniform fill fun m => .ok (fill m shape) :=
  .inr ⟨shape, fun _ _ => rfl⟩

/-- Only content that is not blank matters. -/
theorem Uniform.congr (h : Uniform fill run) (heq : ∀ m, m.isBlank = false → run' m = run m) :
    Uniform fill run' := by
  rcases h with ⟨f, hf⟩ | ⟨shape, hshape⟩
  · exact .inl ⟨f, fun m hm => (heq m hm).trans (hf m hm)⟩
  · exact .inr ⟨shape, fun m hm => (heq m hm).trans (hshape m hm)⟩

/-- Two steps are uniform if the first is, and the second for each shape that the first can come to. -/
theorem Uniform.bind {next : Markup → α → Except Failure β} (h : Uniform fill run)
    (hnext : ∀ shape, Uniform fill' fun m => next m (fill m shape)) :
    Uniform fill' fun m => run m >>= next m := by
  rcases h with ⟨f, hf⟩ | ⟨shape, hshape⟩
  · refine (Uniform.error f).congr fun m hm => ?_
    rw [hf m hm]
    rfl
  · refine (hnext shape).congr fun m hm => ?_
    rw [hshape m hm]
    rfl

end Uniform

/-! ### Expressions -/

section Expressions

variable {scope : Scope}

/-- An operand that is not the content does not depend on it. -/
theorem Operand.eval_withContent {o : Operand} (h : o ≠ .path contentName []) (m : Markup) :
    o.eval (scope.withContent m) = o.eval scope := by
  cases o with
  | str s => rfl
  | int n => rfl
  | path root steps =>
    have hbare : ¬ (root = contentName ∧ steps = []) := by
      rintro ⟨rfl, rfl⟩
      exact h rfl
    rw [eval, eval, if_neg hbare, if_neg hbare]
    rfl

/-- An operand that is not the content evaluates to a value. -/
theorem Operand.exists_value_of_eval {o : Operand} {r : Result} (h : o ≠ .path contentName [])
    (hr : o.eval scope = .ok r) : ∃ v, r = .value v := by
  cases o with
  | str s =>
    cases hr
    exact ⟨_, rfl⟩
  | int n =>
    cases hr
    exact ⟨_, rfl⟩
  | path root steps =>
    have hbare : ¬ (root = contentName ∧ steps = []) := by
      rintro ⟨rfl, rfl⟩
      exact h rfl
    rw [eval, if_neg hbare] at hr
    obtain ⟨v, -, rfl⟩ := map_eq_ok.1 hr
    exact ⟨v, rfl⟩

/-- An operand is the content or independent of it. -/
theorem Operand.uniform_eval (scope : Scope) (o : Operand) :
    Uniform Result.fill fun m => o.eval (scope.withContent m) := by
  by_cases h : o = .path contentName []
  · subst h
    exact .ok none
  · simp only [eval_withContent h]
    cases hr : o.eval scope with
    | error f => exact .error f
    | ok r =>
      obtain ⟨v, rfl⟩ := exists_value_of_eval h hr
      exact .ok (some v)

/-- Operands are evaluated in the same way whatever the content. -/
theorem Operand.uniform_evalAll (scope : Scope) (os : List Operand) :
    Uniform Result.fillAll fun m => Operand.evalAll (scope.withContent m) os := by
  induction os with
  | nil => exact .ok []
  | cons o os ih =>
    refine (o.uniform_eval scope).bind fun shape => ih.bind fun shapes => ?_
    exact .ok (shape :: shapes)

/-- Operands that are not the content do not depend on it. -/
theorem Operand.evalAll_withContent {os : List Operand} (h : .path contentName [] ∉ os) (m : Markup) :
    Operand.evalAll (scope.withContent m) os = Operand.evalAll scope os := by
  induction os with
  | nil => rfl
  | cons o os ih =>
    rw [List.mem_cons, not_or] at h
    rw [evalAll, evalAll, eval_withContent (Ne.symm h.1), ih h.2]

/-- The first of some results, null if there is none. -/
theorem Result.head?_fillAll (m : Markup) (shapes : List (Option Value)) :
    (fillAll m shapes).head?.getD (.value .null) = fill m (shapes.head?.getD (some .null)) := by
  cases shapes with
  | nil => rfl
  | cons shape shapes => rfl

/-- The results behind the first of some results. -/
theorem Result.tail_fillAll (m : Markup) (shapes : List (Option Value)) :
    (fillAll m shapes).tail = fillAll m shapes.tail := by
  cases shapes with
  | nil => rfl
  | cons shape shapes => rfl

/-- A helper other than `url` hands the content on as it stands, or does without it. -/
theorem Helper.uniform_apply {helper : Helper} (h : helper ≠ .url) (scope : Scope)
    (first : Option Value) (others : List (Option Value)) :
    Uniform Result.fill fun m =>
      helper.apply (scope.withContent m) (.fill m first) (Result.fillAll m others) := by
  cases helper with
  | url => exact absurd rfl h
  | upcase =>
    cases first with
    | none => exact .ok none
    | some v => exact Uniform.ok (some (Value.str (Text.upper v.text)))
  | downcase =>
    cases first with
    | none => exact .ok none
    | some v => exact Uniform.ok (some (Value.str (Text.lower v.text)))
  | default =>
    cases first with
    | none =>
      -- Content that is not blank is taken before its replacement.
      refine (Uniform.ok none).congr fun m hm => ?_
      simp [apply, Result.fill, Result.isTruthy, hm]
    | some v =>
      simp only [apply, Result.fill, Result.isTruthy, Result.head?_fillAll]
      cases v.isBlank with
      | false => exact .ok (some v)
      | true => exact .ok _

/-- An address is a value. -/
theorem Helper.exists_value_of_url {first r : Result} {others : List Result}
    (h : Helper.url.apply scope first others = .ok r) : ∃ v, r = .value v := by
  rw [apply] at h
  split at h
  · cases h
    exact ⟨_, rfl⟩
  · cases h

/-- An expression that does not ask for an address by the content is the content, or independent of
it. -/
theorem Expr.uniform_eval {e : Expr} (he : ¬ e.LinksContent) (scope : Scope) :
    Uniform Result.fill fun m => e.eval (scope.withContent m) := by
  cases e with
  | operand o => exact o.uniform_eval scope
  | call name args =>
    by_cases hname : name = "url"
    · subst hname
      have hargs : .path contentName [] ∉ args := fun hmem => he ⟨args, rfl, hmem⟩
      have hsame : ∀ m,
          (call "url" args).eval (scope.withContent m) = (call "url" args).eval scope := by
        intro m
        rw [eval, eval, Operand.evalAll_withContent hargs]
        rfl
      simp only [hsame]
      cases hr : (call "url" args).eval scope with
      | error f => exact .error f
      | ok r =>
        obtain ⟨results, -, happly⟩ := bind_eq_ok.1 hr
        obtain ⟨v, rfl⟩ := Helper.exists_value_of_url happly
        exact .ok (some v)
    · refine (Operand.uniform_evalAll scope args).bind fun shapes => ?_
      cases hhelper : Helper.ofName? name with
      | none => exact .error _
      | some helper =>
        have hurl : helper ≠ .url := by
          rintro rfl
          exact hname (Helper.ofName?_eq_url hhelper)
        simp only [Result.head?_fillAll, Result.tail_fillAll]
        exact Helper.uniform_apply hurl scope _ _

end Expressions

/-! ### Bodies -/

/-- The pieces of the given shapes: markup of its own, or else the content. -/
def Markup.fillAll (m : Markup) (shapes : List (Option Markup)) : List Markup :=
  shapes.map fun shape => shape.getD m

section Bodies

variable {scope : Scope}

/-- Whether a condition holds does not depend on content that is not blank. -/
theorem Result.isTruthy_fill {m : Markup} (hm : m.isBlank = false) (shape : Option Value) :
    (fill m shape).isTruthy = (shape.map fun v => !v.isBlank).getD true := by
  cases shape with
  | none =>
    rw [fill, isTruthy, hm]
    rfl
  | some v => rfl

/-- Between double braces a result prints its own text, or else the content. -/
theorem Result.escaped_fill (m : Markup) (shape : Option Value) :
    (fill m shape).escaped = (shape.map fun v => .ofText v.text).getD m := by
  cases shape with
  | none => rfl
  | some v => rfl

/-- Between triple braces too. -/
theorem Result.text_fill (m : Markup) (shape : Option Value) :
    (⟨(fill m shape).text⟩ : Markup) = (shape.map fun v => ⟨v.text⟩).getD m := by
  cases shape with
  | none => rfl
  | some v => rfl

/-- A body that asks for no address by the content prints pieces of the same shapes whatever the
content. -/
theorem Body.uniform_pieces {b : Body} (hb : ∀ e, b.Contains e → ¬ e.item.LinksContent)
    (scope : Scope) : Uniform Markup.fillAll fun m => b.pieces (scope.withContent m) := by
  induction b with
  | nil => exact .ok []
  | text span s rest ih =>
    refine (ih hb).bind fun shapes => ?_
    exact .ok (some ⟨s⟩ :: shapes)
  | output span e rest ih =>
    have he := Expr.uniform_eval (hb e (.inl rfl)) scope
    refine he.bind fun shape => (ih fun x hx => hb x (.inr hx)).bind fun shapes => ?_
    simp only [Result.escaped_fill]
    exact .ok ((shape.map fun v => .ofText v.text) :: shapes)
  | raw span e rest ih =>
    have he := Expr.uniform_eval (hb e (.inl rfl)) scope
    refine he.bind fun shape => (ih fun x hx => hb x (.inr hx)).bind fun shapes => ?_
    simp only [Result.text_fill]
    exact .ok ((shape.map fun v => ⟨v.text⟩) :: shapes)
  | conditional span negated e x y rest ihx ihy ih =>
    have he := Expr.uniform_eval (hb e (.inl rfl)) scope
    have hx := ihx fun x hx => hb x (.inr (.inl hx))
    have hy := ihy fun x hx => hb x (.inr (.inr (.inl hx)))
    have hrest := ih fun x hx => hb x (.inr (.inr (.inr hx)))
    simp only [pieces_conditional]
    refine he.bind fun shape => ?_
    -- The branch that is taken is the same for all content.
    have hbranch : Uniform Markup.fillAll fun m =>
        (if (shape.map fun v => !v.isBlank).getD true != negated then x else y).pieces
          (scope.withContent m) := by
      split
      · exact hx
      · exact hy
    have htaken : Uniform Markup.fillAll fun m =>
        (if (Result.fill m shape).isTruthy != negated then x else y).pieces (scope.withContent m) :=
      hbranch.congr fun m hm => by rw [Result.isTruthy_fill hm]
    refine htaken.bind fun branch => hrest.bind fun more => ?_
    simp only [Markup.fillAll, ← List.map_append]
    exact .ok (branch ++ more)

/-- Pieces of given shapes, put together, are fixed texts with the content between them. -/
theorem Markup.exists_intercalate (shapes : List (Option Markup)) :
    ∃ texts : List String, texts ≠ [] ∧
      ∀ m : Markup, Markup.join (fillAll m shapes) = ⟨m.html.intercalate texts⟩ := by
  -- A piece of its own goes before the first text, and the content opens a new one.
  induction shapes with
  | nil => exact ⟨[""], by simp, fun m => rfl⟩
  | cons shape shapes ih =>
    obtain ⟨texts, hne, hjoin⟩ := ih
    obtain ⟨first, rest, rfl⟩ := List.exists_cons_of_ne_nil hne
    have hhtml : ∀ m, (Markup.join (fillAll m shapes)).html = m.html.intercalate (first :: rest) :=
      fun m => congrArg Markup.html (hjoin m)
    cases shape with
    | none =>
      refine ⟨"" :: first :: rest, by simp, fun m => ?_⟩
      rw [String.intercalate_cons_cons, ← hhtml]
      simp [Markup.join, fillAll]
    | some p =>
      refine ⟨(p.html ++ first) :: rest, by simp, fun m => ?_⟩
      rw [String.intercalate_cons_append, ← hhtml]
      simp [Markup.join, fillAll]

end Bodies

/-- Prints fixed texts with the content between them, whatever the content, as long as it is not
blank. -/
def Routine.Embeds (routine : Routine) (scope : Scope) (texts : List String) : Prop :=
  ∀ m : Markup, m.isBlank = false →
    routine (scope.withContent m) = .ok ⟨m.html.intercalate texts⟩

/-- A body that asks for no address by the content fails with one failure for all content, or embeds
it. -/
theorem Body.exists_embeds {b : Body} (hb : ∀ e, b.Contains e → ¬ e.item.LinksContent)
    (scope : Scope) :
    (∃ f, ∀ m, m.isBlank = false → b.render (scope.withContent m) = .error f) ∨
      ∃ texts, texts ≠ [] ∧ Routine.Embeds (fun s => b.render s) scope texts := by
  rcases Body.uniform_pieces hb scope with ⟨f, hf⟩ | ⟨shapes, hshapes⟩
  · exact .inl ⟨f, fun m hm => render_eq_error.2 (hf m hm)⟩
  · obtain ⟨texts, hne, hjoin⟩ := Markup.exists_intercalate shapes
    exact .inr ⟨texts, hne, fun m hm => render_eq_ok.2 ⟨_, hshapes m hm, hjoin m⟩⟩

/-- A component whose routine embeds content embeds what its block wrote, rendered components
included. -/
theorem render_of_embeds {r : Renderer} {i : Instance} {x : Block} {v : View} {s : Session}
    {compiled : Compiled} {attributes : Attributes} {texts : List String} {out : Markup}
    (hc : (s.ensure r i.component).1 = .ok compiled) (ha : i.attributes = .ok attributes)
    (h : compiled.routine.Embeds ⟨i.component.name, attributes, none, v.routes⟩ texts)
    (hout : (View.render r i (some x) v s).1 = .ok out)
    (hm : (Markup.join (x.writes r v.routes (s.ensure r i.component).2)).isBlank = false) :
    out = ⟨(Markup.join (x.writes r v.routes (s.ensure r i.component).2)).html.intercalate texts⟩ := by
  rw [render_of_ensure_ok hc] at hout
  obtain ⟨content, hcontent, hfinish⟩ := bind_eq_ok.1 hout
  obtain ⟨m, hcapture, rfl⟩ := map_eq_ok.1 hcontent
  rw [(x.adds_exec r).captureWith rfl] at hcapture
  obtain ⟨-, -, rfl⟩ := map_eq_ok.1 hcapture
  obtain ⟨attributes', ha', -, hroutine⟩ := holds_of_finish hfinish
  rw [ha] at ha'
  cases ha'
  exact Except.ok.inj (hroutine.symm.trans (h _ hm))

/-- A template that compiles, and that asks for no address by the content, treats all content alike
that is not blank: either it fails with one failure, or it prints fixed texts with the content between
them as it stands. So a component with such a template embeds what its block wrote, and with that the
components that were rendered there, without a change. -/
theorem content_is_embedded_verbatim {a : Adapter} {routine : Routine}
    (h : Handler.html.call a = .ok routine) :
    ∃ b, parse a.source = .ok b ∧
      ((∀ e, b.Contains e → ¬ e.item.LinksContent) → ∀ scope,
        (∃ f, ∀ m, m.isBlank = false → routine (scope.withContent m) = .error f) ∨
        ∃ texts, texts ≠ [] ∧ routine.Embeds scope texts) ∧
      ∀ r i x v s compiled attributes texts out,
        (Session.ensure r i.component s).1 = .ok compiled → compiled.routine = routine →
        i.attributes = .ok attributes →
        routine.Embeds ⟨i.component.name, attributes, none, v.routes⟩ texts →
        (View.render r i (some x) v s).1 = .ok out →
        (Markup.join (x.writes r v.routes (s.ensure r i.component).2)).isBlank = false →
        out =
          ⟨(Markup.join (x.writes r v.routes (s.ensure r i.component).2)).html.intercalate texts⟩ := by
  obtain ⟨b, hp, -, rfl⟩ := Handler.compileHtml_eq_ok.1 h
  refine ⟨b, hp, fun hb scope => Body.exists_embeds hb scope, ?_⟩
  intro r i x v s compiled attributes texts out hc hroutine ha hembeds hout hm
  rw [← hroutine] at hembeds
  exact render_of_embeds hc ha hembeds hout hm

/-- A template that prints its content in a branch as a replacement, and then unescaped. -/
def frameSource : String :=
  "\x7b% if content %\x7d<b>\x7b\x7b default(a, content) \x7d\x7d</b>\x7b% end %\x7d" ++
    "\x7b\x7b\x7b upcase(content) \x7d\x7d\x7d"

/-- The body of this template. -/
def frameBody : Body :=
  .conditional ⟨0, 57⟩ false ⟨.operand (.path "content" []), ⟨6, 13⟩⟩
    (.text ⟨16, 19⟩ "<b>"
      (.output ⟨19, 44⟩ ⟨.call "default" [.path "a" [], .path "content" []], ⟨22, 41⟩⟩
        (.text ⟨44, 48⟩ "</b>" .nil))) .nil
    (.raw ⟨57, 80⟩ ⟨.call "upcase" [.path "content" []], ⟨61, 76⟩⟩ .nil)

/-- The template has this body. -/
theorem parse_frameSource : parse frameSource = .ok frameBody := by
  apply parse_of_nodes
  have tokens : tokenize frameSource =
    [⟨.blockOpen, ⟨0, 2⟩⟩, ⟨.kwIf, ⟨3, 5⟩⟩, ⟨.ident "content", ⟨6, 13⟩⟩, ⟨.tagClose, ⟨14, 16⟩⟩,
      ⟨.text "<b>", ⟨16, 19⟩⟩, ⟨.outputOpen, ⟨19, 21⟩⟩, ⟨.ident "default", ⟨22, 29⟩⟩,
      ⟨.parenOpen, ⟨29, 30⟩⟩, ⟨.ident "a", ⟨30, 31⟩⟩, ⟨.comma, ⟨31, 32⟩⟩,
      ⟨.ident "content", ⟨33, 40⟩⟩, ⟨.parenClose, ⟨40, 41⟩⟩, ⟨.tagClose, ⟨42, 44⟩⟩,
      ⟨.text "</b>", ⟨44, 48⟩⟩, ⟨.blockOpen, ⟨48, 50⟩⟩, ⟨.kwEnd, ⟨51, 54⟩⟩, ⟨.tagClose, ⟨55, 57⟩⟩,
      ⟨.rawOpen, ⟨57, 60⟩⟩, ⟨.ident "upcase", ⟨61, 67⟩⟩, ⟨.parenOpen, ⟨67, 68⟩⟩,
      ⟨.ident "content", ⟨68, 75⟩⟩, ⟨.parenClose, ⟨75, 76⟩⟩, ⟨.tagClose, ⟨77, 80⟩⟩] := by
    decide +kernel
  rw [tokens]
  change Grammar.Nodes (⟨.blockOpen, ⟨0, 2⟩⟩ :: ⟨Grammar.opening false, ⟨3, 5⟩⟩ :: _) _
  exact .conditional (.operand (.path .nil))
    (.text (.output (.call (.cons (.path .nil) (.last (.path .nil)))) (.text .nil)))
    (.raw (.call (.last (.path .nil))) .nil)

/-- The template is compiled to the routine of this body. -/
theorem compile_frameSource (serial : Nat) :
    Source.compile Renderer.plain.handlers serial ⟨.component "Frame", "html", frameSource⟩ =
      .ok ⟨fun scope => frameBody.render scope, "html", .component "Frame", serial⟩ := by
  have hcompile : Renderer.plain.handlers.compile ⟨frameSource, "html"⟩ =
      .ok fun scope => frameBody.render scope :=
    Handler.compileHtml_eq_ok.2 ⟨_, parse_frameSource, rfl, rfl⟩
  rw [Source.compile, Source.adapter, hcompile]

/-- A component with this template. -/
def frameComponent : Component := { identity := 3, name := "Frame", template? := some frameSource }

/-- The content that the template prints through helpers is embedded, and so is what a block wrote. -/
theorem content_is_embedded_verbatim_by_helpers :
    ∃ texts : List String, texts ≠ [] ∧
      (∃ routine, Handler.html.call ⟨frameSource, "html"⟩ = .ok routine ∧
        routine.Embeds ⟨"Frame", ⟨[("a", .null)]⟩, none, .empty⟩ texts) ∧
      (View.render .plain ⟨frameComponent, .ok (.obj [("a", .null)])⟩
        (some (.markup ⟨"<hr>"⟩ .done)) {} emptySession).1 = .ok ⟨"<hr>".intercalate texts⟩ := by
  have hcall : Handler.html.call ⟨frameSource, "html"⟩ = .ok fun scope => frameBody.render scope :=
    Handler.compileHtml_eq_ok.2 ⟨_, parse_frameSource, rfl, rfl⟩
  obtain ⟨b, hb, hembeds, hrender⟩ := content_is_embedded_verbatim hcall
  cases parse_frameSource.symm.trans hb
  have hlinks : ∀ e, frameBody.Contains e → ¬ e.item.LinksContent := by
    rintro e (rfl | (rfl | hnone) | hnone | rfl | hnone) ⟨args, hargs, -⟩
    · cases hargs
    · exact absurd (Expr.call.inj hargs).1 (by decide)
    · exact hnone
    · exact hnone
    · exact absurd (Expr.call.inj hargs).1 (by decide)
    · exact hnone
  rcases hembeds hlinks ⟨"Frame", ⟨[("a", .null)]⟩, none, .empty⟩ with ⟨f, hf⟩ | ⟨texts, hne, htexts⟩
  · cases hf ⟨"<hr>"⟩ rfl
  · refine ⟨texts, hne, ⟨_, hcall, htexts⟩, ?_⟩
    have hsource : Sidecar.template Renderer.plain.settings emptySession.files frameComponent =
        .ok ⟨.component "Frame", "html", frameSource⟩ := rfl
    have hensure : (emptySession.ensure .plain frameComponent).1 =
        .ok ⟨fun scope => frameBody.render scope, "html", .component "Frame", 1⟩ := by
      rw [ensure_of_find?_eq_none rfl, Cache.compile, hsource]
      exact compile_frameSource 1
    have hout : (View.render .plain ⟨frameComponent, .ok (.obj [("a", .null)])⟩
        (some (.markup ⟨"<hr>"⟩ .done)) {} emptySession).1 = .ok ⟨"<b><hr></b><hr>"⟩ := by
      rw [render_of_ensure_ok hensure]
      rfl
    have hwrites : Markup.join ((Block.markup ⟨"<hr>"⟩ .done).writes .plain .empty
        (emptySession.ensure .plain frameComponent).2) = ⟨"<hr>"⟩ := rfl
    have hverbatim := hrender .plain ⟨frameComponent, .ok (.obj [("a", .null)])⟩ _ {} _ _
      ⟨[("a", .null)]⟩ texts _ hensure rfl rfl htexts hout
    rw [hwrites] at hverbatim
    rw [hout, hverbatim rfl]

end Stencil
