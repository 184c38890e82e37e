import Stencil.Cache

/-!
# Renderers and views

A renderer has settings, handlers and routes. A view is what a block of the caller writes to: text,
markup, rendered components, and the output of inner blocks. Rendering a component takes five stages:
compile it, run its block, turn the instance into attributes, check the rules, run the routine; the
first that fails gives the failure.
-/

namespace Stencil

/-- What renders components. -/
structure Renderer where
  settings : Settings
  handlers : Registry
  routes : Routes := .empty

namespace Renderer

/-- The renderer with the built-in handlers and the aliases of the settings. -/
def ofSettings (settings : Settings) : Except Failure Renderer := do
  let handlers ← Registry.ofSettings settings
  return { settings, handlers }

/-- The renderer that has nothing but defaults. -/
def plain : Renderer := { settings := {}, handlers := .withDefaults }

/-- Compiles a component unless a result for it is kept. -/
def ensure (r : Renderer) (files : Files) (c : Component) (cache : Cache) :
    Except Failure Compiled × Cache :=
  cache.ensure r.handlers r.settings files c

/-- Renders an instance whose component has been compiled, with the content of its block. -/
def finish (i : Instance) (compiled : Compiled) (content : Option Markup) (routes : Routes) :
    Except Failure Markup := do
  let attributes ← i.attributes
  validate i.component.rules attributes content
  compiled.routine ⟨i.component.name, attributes, content, routes⟩

/-- Renders a template outside of any component, without rules and without a trace in a cache. -/
def renderSource (r : Renderer) (s : Source) (attributes : Attributes) (content : Option Markup) :
    Except Failure Markup := do
  let compiled ← s.compile r.handlers 0
  compiled.routine ⟨s.origin.text, attributes, content, r.routes⟩

end Renderer

/-- What a caller does with a view, and with the renderer behind it, step by step. Each step that yields
something goes on with it, so that a block can do otherwise when a component fails to render. The files
can be others from any step on. -/
inductive Block where
  | done
  | fail (f : Failure)
  | text (s : String) (next : Block)
  | markup (m : Markup) (next : Block)
  | url (name : String) (params : List Value) (next : Option String → Block)
  | change (files : Files) (next : Block)
  | ensure (c : Component) (next : Except Failure Compiled → Block)
  | reload (c : Component) (next : Bool → Block)
  | clear (next : Block)
  | source (s : Source) (attributes : Attributes) (content : Option Markup)
      (next : Except Failure Markup → Block)
  | render (i : Instance) (next : Except Failure Markup → Block)
  | renderWith (i : Instance) (content : Block) (next : Except Failure Markup → Block)
  | capture (content : Block) (next : Except Failure Markup → Block)
  deriving Inhabited

/-- Renders an instance into the view, and fails if that does. -/
def Block.append (i : Instance) (next : Block) : Block :=
  .render i fun
    | .ok m => .markup m next
    | .error f => .fail f

/-- What a renderer finds at some time: the files as they are then, and what it has compiled so far. -/
structure Session where
  files : Files
  cache : Cache := {}

namespace Session

/-- Compiles a component unless a result for it is kept. -/
def ensure (r : Renderer) (c : Component) (s : Session) : Except Failure Compiled × Session :=
  let (result, cache) := r.ensure s.files c s.cache
  (result, { s with cache })

/-- Drops the result of a component, and tells whether there was one. -/
def reload (c : Component) (s : Session) : Bool × Session :=
  let (dropped, cache) := s.cache.reload c
  (dropped, { s with cache })

/-- Drops all results. -/
def clear (s : Session) : Session := { s with cache := s.cache.clear }

end Session

/-- What has been written to a view, and the routes that it renders with. -/
structure View where
  output : Output := {}
  routes : Routes := .empty

/-- Something that is done with a view in a session: it succeeds or fails, and leaves both behind. -/
abbrev Action (α : Type) := View → Session → Except Failure α × View × Session

namespace View

/-- The view of a renderer to which nothing has been written. -/
def ofRenderer (r : Renderer) : View := { routes := r.routes }

/-- Runs an action on the view with an output of its own, and gives what it wrote there. What the view
held before is there again afterwards; what a failed action wrote is lost. -/
def captureWith (run : Action Unit) : Action Markup := fun v s =>
  let (result, inner, s) := run { v with output := {} } s
  (result.map fun _ => inner.output.toMarkup, { inner with output := v.output }, s)

/-- Renders an instance on a view. The action, if any, writes its content; it does not run before the
component has been compiled. -/
def renderWith (r : Renderer) (i : Instance) (content : Option (Action Unit)) : Action Markup :=
  fun v s =>
    match s.ensure r i.component with
    | (.error f, s) => (.error f, v, s)
    | (.ok compiled, s) =>
      match content with
      | none => (Renderer.finish i compiled none v.routes, v, s)
      | some run =>
        match captureWith run v s with
        | (.error f, v, s) => (.error f, v, s)
        | (.ok m, v, s) => (Renderer.finish i compiled (some m) v.routes, v, s)

end View

namespace Block

/-- Runs a block on a view in a session. The first failure that is not dealt with ends it; what was
written before stays in the view. -/
def exec (r : Renderer) : Block → Action Unit
  | .done, v, s => (.ok (), v, s)
  | .fail f, v, s => (.error f, v, s)
  | .text written next, v, s => next.exec r { v with output := v.output.text written } s
  | .markup m next, v, s => next.exec r { v with output := v.output.markup m } s
  | .url name params next, v, s => (next (v.routes.urlFor name params)).exec r v s
  | .change files next, v, s => next.exec r v { s with files }
  | .ensure c next, v, s =>
    let (result, s) := s.ensure r c
    (next result).exec r v s
  | .reload c next, v, s =>
    let (dropped, s) := s.reload c
    (next dropped).exec r v s
  | .clear next, v, s => next.exec r v s.clear
  | .source template attributes content next, v, s =>
    (next (r.renderSource template attributes content)).exec r v s
  | .render i next, v, s =>
    let (result, v, s) := View.renderWith r i none v s
    (next result).exec r v s
  | .renderWith i content next, v, s =>
    let (result, v, s) := View.renderWith r i (some (content.exec r)) v s
    (next result).exec r v s
  | .capture content next, v, s =>
    let (result, v, s) := View.captureWith (content.exec r) v s
    (next result).exec r v s

/-- Runs a block on a view with what has been compiled so far. -/
def run (r : Renderer) (files : Files) (b : Block) (v : View) (cache : Cache) :
    Except Failure Unit × View × Cache :=
  let (result, v, s) := b.exec r v { files, cache }
  (result, v, s.cache)

end Block

/-- Renders an instance on a fresh view, with the content that a block writes. -/
def Renderer.render (r : Renderer) (files : Files) (i : Instance) (content : Option Block)
    (cache : Cache) : Except Failure Markup × Cache :=
  let (result, _, s) :=
    View.renderWith r i (content.map (Block.exec r)) (.ofRenderer r) { files, cache }
  (result, s.cache)

end Stencil
