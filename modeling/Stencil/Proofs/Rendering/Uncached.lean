import Stencil.Proofs.Handlers.Configured
import Stencil.Proofs.Rendering.Embedding
import Stencil.Proofs.Rendering.Evaluated
import Stencil.Proofs.Views.Stages

/-!
# Rendering without a cache

A template can be rendered by itself, and a component renders the template that it has. What the
template sees is then the same but for a name, and the name shows only in the failure of an attribute
that is missing. Main statements: `Body.sameButName_render`, by which a body under two names comes to
the same result but for that failure, and `uncached_rendering_agrees`, on a component and its template.
-/

namespace Stencil

/-- The scope under another name. -/
def Scope.named (scope : Scope) (name : String) : Scope := { scope with component := name }

/-- The failure is that an attribute is missing. -/
def Failure.IsMissing (f : Failure) : Prop :=
  ∃ component root, f = .undefinedAttribute component root

/-- Two results that are the same, except that a missing attribute is told of one name in the first and
of another in the second. -/
inductive SameButName {α : Type} (name other : String) : Except Failure α → Except Failure α → Prop
  | ok (a : α) : SameButName name other (.ok a) (.ok a)
  | missing (root : String) :
      SameButName name other (.error (.undefinedAttribute name root))
        (.error (.undefinedAttribute other root))
  | failed {f : Failure} (h : ¬ f.IsMissing) : SameButName name other (.error f) (.error f)

section SameButName

variable {α β : Type} {name other : String} {x y : Except Failure α}

/-- Two steps come to the same if the first ones do, and the second ones from there on. -/
theorem SameButName.bind {g g' : α → Except Failure β} (h : SameButName name other x y)
    (hg : ∀ a, SameButName name other (g a) (g' a)) : SameButName name other (x >>= g) (y >>= g') := by
  cases h with
  | ok a => exact hg a
  | missing root => exact .missing root
  | failed h => exact .failed h

/-- What is made of a result is the same if the result is. -/
theorem SameButName.map (h : SameButName name other x y) (g : α → β) :
    SameButName name other (x.map g) (y.map g) := by
  cases h with
  | ok a => exact .ok (g a)
  | missing root => exact .missing root
  | failed h => exact .failed h

/-- A result that is not a missing attribute is the same under all names. -/
theorem SameButName.refl (h : ∀ f, x = .error f → ¬ f.IsMissing) : SameButName name other x x := by
  cases x with
  | ok a => exact .ok a
  | error f => exact .failed (h f rfl)

end SameButName

/-! ### Templates under two names -/

section Templates

variable {name other : String}

/-- A path leads to the same value, or its attribute is missing. -/
theorem Scope.sameButName_lookup (scope : Scope) (path : List String) :
    SameButName name other ((scope.named name).lookup path) ((scope.named other).lookup path) := by
  cases path with
  | nil => exact .ok _
  | cons root steps =>
    simp only [lookup, named]
    cases scope.attributes.find? root with
    | some v => exact .ok _
    | none => exact .missing root

/-- An operand has the same result, or its attribute is missing. -/
theorem Operand.sameButName_eval (scope : Scope) (o : Operand) :
    SameButName name other (o.eval (scope.named name)) (o.eval (scope.named other)) := by
  cases o with
  | str s => exact .ok _
  | int n => exact .ok _
  | path root steps =>
    rw [eval, eval]
    split
    · exact .ok _
    · exact (scope.sameButName_lookup (root :: steps)).map Result.value

/-- Operands have the same results, or the attribute of one of them is missing. -/
theorem Operand.sameButName_evalAll (scope : Scope) (os : List Operand) :
    SameButName name other (Operand.evalAll (scope.named name) os)
      (Operand.evalAll (scope.named other) os) := by
  induction os with
  | nil => exact .ok []
  | cons o os ih => exact (o.sameButName_eval scope).bind fun r => ih.bind fun rs => .ok (r :: rs)

/-- A helper does not see the name. -/
theorem Helper.apply_named (helper : Helper) (scope : Scope) (name : String) (first : Result)
    (others : List Result) : helper.apply (scope.named name) first others =
      helper.apply scope first others := by
  cases helper with
  | url => rfl
  | upcase => rfl
  | downcase => rfl
  | default => rfl

/-- An expression has the same result, or lacks the same. -/
theorem Expr.sameButName_eval (scope : Scope) (e : Expr) :
    SameButName name other (e.eval (scope.named name)) (e.eval (scope.named other)) := by
  cases e with
  | operand o => exact o.sameButName_eval scope
  | call callee args =>
    refine (Operand.sameButName_evalAll scope args).bind fun results => ?_
    cases Helper.ofName? callee with
    | none => exact .failed (by simp [Failure.IsMissing])
    | some helper =>
      simp only [Helper.apply_named]
      refine .refl fun f hf => ?_
      obtain ⟨-, -, rfl⟩ := Helper.apply_eq_error hf
      simp [Failure.IsMissing]

/-- A body prints the same pieces, or fails in the same way. -/
theorem Body.sameButName_pieces (scope : Scope) (b : Body) :
    SameButName name other (b.pieces (scope.named name)) (b.pieces (scope.named other)) := by
  induction b with
  | nil => exact .ok []
  | text span s rest ih => exact ih.bind fun more => .ok _
  | output span e rest ih | raw span e rest ih =>
    exact (e.item.sameButName_eval scope).bind fun r => ih.bind fun more => .ok _
  | conditional span negated e x y rest ihx ihy ih =>
    simp only [pieces_conditional]
    refine (e.item.sameButName_eval scope).bind fun r => ?_
    -- The result of the condition is the same, and so the branch is.
    have hbranch : SameButName name other
        ((if r.isTruthy != negated then x else y).pieces (scope.named name))
        ((if r.isTruthy != negated then x else y).pieces (scope.named other)) := by
      split
      · exact ihx
      · exact ihy
    exact hbranch.bind fun branch => ih.bind fun more => .ok _

/-- A body is rendered to the same, or fails in the same way. -/
theorem Body.sameButName_render (scope : Scope) (b : Body) :
    SameButName name other (b.render (scope.named name)) (b.render (scope.named other)) :=
  (b.sameButName_pieces scope).map Markup.join

end Templates

/-! ### Compiled templates -/

/-- The routine does the same under all names, except that it tells of a missing attribute by the
name. -/
def Routine.Impartial (routine : Routine) : Prop :=
  ∀ (scope : Scope) (name other : String),
    SameButName name other (routine (scope.named name)) (routine (scope.named other))

/-- The kind is one that the registry begins with, or an alias of one. -/
def Registry.HasBuiltin (r : Registry) (kind : String) : Prop :=
  ∃ last h, (last, h) ∈ builtins ∧ r.resolve kind = .ok (.of last h)

/-- The session has this template for the component: it compiles it when it is next asked to, or has
compiled it, and keeps what came of that. -/
def Session.Provides (r : Renderer) (c : Component) (source : Source) (s : Session) : Prop :=
  (s.cache.find? c = none ∧ Sidecar.template r.settings s.files c = .ok source) ∨
    ∃ serial, s.cache.find? c = some (source.compile r.handlers serial)

/-- A failure that is told with the origin of a template is what it was. -/
theorem Failure.isMissing_of_withOrigin {f : Failure} {origin : String}
    (h : (f.withOrigin origin).IsMissing) : f.IsMissing := by
  obtain ⟨component, root, h⟩ := h
  unfold withOrigin at h
  split at h
  · cases h
  · cases h
  · exact ⟨component, root, h⟩

/-- A built-in handler fails for a template, but not with a missing attribute, or compiles it to a
routine that is impartial. -/
theorem invoke_builtin_cases {last : String} {h : Handler} (hmem : (last, h) ∈ Registry.builtins)
    (a : Adapter) :
    (∃ f, ¬ f.IsMissing ∧ (Registered.of last h).invoke a = .error f) ∨
      ∃ routine : Routine, routine.Impartial ∧ (Registered.of last h).invoke a = .ok routine := by
  simp only [Registry.builtins, List.mem_cons, List.not_mem_nil, or_false, Prod.mk.injEq] at hmem
  rcases hmem with ⟨-, rfl⟩ | ⟨-, rfl⟩ | ⟨-, rfl⟩
  · have hinvoke : (Registered.of last .html).invoke a = Handler.compileHtml a.source := rfl
    rw [hinvoke, Handler.compileHtml]
    cases parse a.source with
    | error e => exact .inl ⟨.malformed "" a.source e, by simp [Failure.IsMissing], rfl⟩
    | ok b =>
      simp only
      cases b.unknownHelper? with
      | some name => exact .inl ⟨.unknownHelper "" name, by simp [Failure.IsMissing], rfl⟩
      | none =>
        exact .inr ⟨fun scope => b.render scope, fun scope _ _ => b.sameButName_render scope, rfl⟩
  · exact .inr ⟨fun _ => .ok ⟨a.source⟩, fun _ _ _ => .ok _, rfl⟩
  · exact .inr ⟨fun _ => .ok (.ofText a.source), fun _ _ _ => .ok _, rfl⟩

/-- Compiling a template of a built-in kind fails, but not with a missing attribute, or comes to a
routine that is impartial. -/
theorem compile_builtin_cases {handlers : Registry} {source : Source}
    (hkind : handlers.HasBuiltin source.kind) :
    (∃ f, ¬ f.IsMissing ∧ ∀ serial, source.compile handlers serial = .error f) ∨
      ∃ routine : Routine, routine.Impartial ∧
        ∀ serial, source.compile handlers serial =
          .ok ⟨routine, source.kind, source.origin, serial⟩ := by
  obtain ⟨last, h, hmem, hresolve⟩ := hkind
  have hcompile : handlers.compile source.adapter = (Registered.of last h).invoke source.adapter := by
    rw [Registry.compile, show source.adapter.kind = source.kind from rfl, hresolve]
    rfl
  simp only [Source.compile, hcompile]
  rcases invoke_builtin_cases hmem source.adapter with ⟨f, hf, hinvoke⟩ | ⟨routine, hroutine, hinvoke⟩
  · rw [hinvoke]
    exact .inl ⟨_, fun h => hf (Failure.isMissing_of_withOrigin h), fun serial => rfl⟩
  · rw [hinvoke]
    exact .inr ⟨routine, hroutine, fun serial => rfl⟩

section Provided

variable {r : Renderer} {s : Session} {i : Instance} {x : Option Block} {v : View} {source : Source}

/-- Asked for a component, a session compiles the template that it has for it, or has done so. -/
theorem Session.Provides.ensure {c : Component} (h : s.Provides r c source) :
    ∃ serial, (s.ensure r c).1 = source.compile r.handlers serial := by
  rcases h with ⟨hnone, hsource⟩ | ⟨serial, hkept⟩
  · refine ⟨s.cache.compilations + 1, ?_⟩
    rw [ensure_of_find?_eq_none hnone, Cache.compile, hsource]
    rfl
  · exact ⟨serial, congrArg Prod.fst (ensure_of_find? hkept)⟩

/-- A component whose rules hold is rendered like its template. -/
theorem sameButName_render {attributes : Attributes} {content : Option Markup}
    (hkind : r.handlers.HasBuiltin source.kind) (hsource : s.Provides r i.component source)
    (hattributes : i.attributes = .ok attributes)
    (hcontent : View.content r x v (s.ensure r i.component).2 = .ok content)
    (hrules : ∀ rule ∈ i.component.rules, rule.Holds attributes content)
    (hroutes : v.routes = r.routes) :
    SameButName i.component.name source.origin.text (View.render r i x v s).1
      (r.renderSource source attributes content) := by
  obtain ⟨serial, hensure⟩ := hsource.ensure
  rw [Renderer.renderSource]
  rcases compile_builtin_cases hkind with ⟨f, hf, hcompile⟩ | ⟨routine, hroutine, hcompile⟩
  · rw [hcompile] at hensure ⊢
    rw [render_of_ensure_error hensure]
    exact .failed hf
  · rw [hcompile] at hensure ⊢
    rw [render_of_ensure_ok hensure, View.complete, hcontent]
    -- The last three stages are left, of which the first two succeed.
    have hfinish : ∀ compiled : Compiled, Renderer.finish i compiled content v.routes =
        compiled.routine ⟨i.component.name, attributes, content, r.routes⟩ := by
      intro compiled
      rw [Renderer.finish, hattributes, hroutes]
      simp only [bind, Except.bind, validate_eq_ok.2 hrules]
    simp only [bind, Except.bind, hfinish]
    exact hroutine ⟨"", attributes, content, r.routes⟩ _ _

end Provided

/-- Take a template of a built-in kind, or of an alias of one, and a component that is compiled from it
or would be now; an instance of the component whose attributes satisfy the rules, with whatever content
a block writes, if any. Then the component is rendered, by the renderer or in a view of it, exactly if
the template is when it is rendered by itself with these attributes and this content, and to the same
markup; and where one fails so does the other with the same failure, except that a missing attribute is
told of the component or of the template's origin. Nothing but the answer comes of rendering a template
by itself: what has been compiled and how often stays as it was. -/
theorem uncached_rendering_agrees {r : Renderer} {files : Files} {cache : Cache} {i : Instance}
    {x : Option Block} {source : Source} {attributes : Attributes} {content : Option Markup}
    (hkind : r.handlers.HasBuiltin source.kind)
    (hsource : Session.Provides r i.component source ⟨files, cache⟩)
    (hattributes : i.attributes = .ok attributes)
    (hcontent : View.content r x (.ofRenderer r) (Session.ensure r i.component ⟨files, cache⟩).2 =
      .ok content)
    (hrules : ∀ rule ∈ i.component.rules, rule.Holds attributes content) :
    SameButName i.component.name source.origin.text (r.render files i x cache).1
        (r.renderSource source attributes content) ∧
      (∀ v, v.routes = r.routes →
        (View.render r i x v ⟨files, cache⟩).1 = (r.render files i x cache).1) ∧
      ∀ template given written next v s, (Block.source template given written next).exec r v s =
        (next (r.renderSource template given written)).exec r v s := by
  refine ⟨sameButName_render hkind hsource hattributes hcontent hrules rfl, fun v hv => ?_,
    fun _ _ _ _ _ _ => rfl⟩
  rw [View.render, framed_render r i x v (.ofRenderer r) ⟨files, cache⟩ hv]
  rfl

/-- A component whose template needs an attribute that the instance does not have fails under its name,
and its template under that of its origin. -/
theorem uncached_rendering_agrees_on_missing :
    Renderer.plain.renderSource ⟨.component "Frame", "html", frameSource⟩ {} (some ⟨"<hr>"⟩) =
        .error (.undefinedAttribute "Frame (inline)" "a") ∧
      (Renderer.plain.render emptySession.files ⟨frameComponent, .ok .null⟩
        (some (.markup ⟨"<hr>"⟩ .done)) {}).1 = .error (.undefinedAttribute "Frame" "a") := by
  have hsource : Renderer.plain.renderSource ⟨.component "Frame", "html", frameSource⟩ {}
      (some ⟨"<hr>"⟩) = .error (.undefinedAttribute "Frame (inline)" "a") := by
    rw [Renderer.renderSource, compile_frameSource]
    rfl
  obtain ⟨hsame, -⟩ := @uncached_rendering_agrees .plain emptySession.files {}
    ⟨frameComponent, .ok .null⟩ (some (.markup ⟨"<hr>"⟩ .done))
    ⟨.component "Frame", "html", frameSource⟩ {} (some ⟨"<hr>"⟩)
    ⟨"html", .html, List.mem_cons_self, rfl⟩ (.inl ⟨rfl, rfl⟩) rfl rfl (by simp [frameComponent])
  refine ⟨hsource, ?_⟩
  rw [hsource] at hsame
  generalize (Renderer.plain.render emptySession.files ⟨frameComponent, .ok .null⟩
    (some (.markup ⟨"<hr>"⟩ .done)) {}).1 = result at hsame ⊢
  cases hsame with
  | missing root => rfl
  | failed h => exact absurd ⟨_, _, rfl⟩ h

end Stencil
