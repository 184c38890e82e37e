import Stencil.Handler
import Stencil.Settings
import Stencil.Text.Visible

/-!
# The handlers of a renderer

Handlers are registered under kinds, and further kinds can stand for one of them. Every alias is kept
with the kind of its handler, so that no chain is left to follow.
-/

namespace Stencil

/-- A handler under its kind, with the convention that it declared on registration. -/
structure Registered where
  kind : String
  convention : Convention
  handler : Handler

/-- A handler under a kind. -/
def Registered.of (kind : String) (h : Handler) : Registered := ⟨kind, h.convention, h⟩

/-- Compiles a template with the declared convention. -/
def Registered.invoke (r : Registered) (a : Adapter) : Except Failure Routine :=
  r.handler.invoke r.convention a

/-- A line that tells the kind and the convention of a handler. -/
def Registered.describe (r : Registered) : String :=
  let convention := match r.convention with
    | .unary => "Unary"
    | .binary => "Binary"
  "RegisteredHandler \x7b kind: " ++ Text.visible r.kind ++ ", convention: " ++ convention ++
    ", .. \x7d"

/-- Handlers by kind, and aliases by name with the kinds that they stand for. -/
structure Registry where
  handlers : List (String × Registered) := []
  aliases : List (String × String) := []

namespace Registry

/-- The handlers that are there to begin with. -/
def builtins : List (String × Handler) :=
  [("html", .html), ("raw", .raw), ("text", .text)]

/-- The registry of the built-in handlers. -/
def withDefaults : Registry :=
  { handlers := builtins.map fun (kind, h) => (kind, .of kind h) }

/-- Whether a kind is taken, by a handler or by an alias. -/
def isTaken (r : Registry) (kind : String) : Bool :=
  (r.handlers.lookup kind).isSome || (r.aliases.lookup kind).isSome

/-- The handler for a kind, which may be an alias. -/
def resolve (r : Registry) (kind : String) : Except Failure Registered :=
  match r.handlers.lookup ((r.aliases.lookup kind).getD kind) with
  | some h => .ok h
  | none => .error (.unknownHandler kind)

/-- Whether templates of a kind can be compiled. -/
def contains (r : Registry) (kind : String) : Bool :=
  match r.resolve kind with
  | .ok _ => true
  | .error _ => false

/-- Registers a handler for a kind that is not taken. -/
def register (r : Registry) (kind : String) (h : Handler) : Except Failure Registry :=
  if r.isTaken kind then .error (.duplicateHandler kind)
  else .ok { r with handlers := r.handlers ++ [(kind, .of kind h)] }

/-- Lets a kind that is not taken stand for another. -/
def addAlias (r : Registry) (name kind : String) : Except Failure Registry :=
  if r.isTaken name then .error (.duplicateHandler name)
  else
    match r.resolve kind with
    | .ok h => .ok { r with aliases := r.aliases ++ [(name, h.kind)] }
    | .error f => .error f

/-- All kinds that are taken, in order. -/
def kinds (r : Registry) : List String :=
  (r.handlers.map (·.1) ++ r.aliases.map (·.1)).mergeSort

/-- Compiles a template with the handler for its kind. -/
def compile (r : Registry) (a : Adapter) : Except Failure Routine := do
  let h ← r.resolve a.kind
  h.invoke a

/-- Adds aliases from the left. -/
def addAliases (r : Registry) : List (String × String) → Except Failure Registry
  | [] => .ok r
  | (name, kind) :: rest => do
    let r ← r.addAlias name kind
    r.addAliases rest

/-- Adds aliases that may stand for one another. In each round those whose kinds are known by then are
added; when there are none among those that wait, the kind of the first one is unknown. `rounds`
bounds the number of rounds. -/
def addAllAliases (r : Registry) (waiting : List (String × String)) :
    Nat → Except Failure Registry
  | 0 => .ok r
  | rounds + 1 =>
    match waiting with
    | [] => .ok r
    | (_, kind) :: _ =>
      let ready := waiting.filter fun p => r.contains p.2
      let later := waiting.filter fun p => !r.contains p.2
      if ready.isEmpty then .error (.unknownHandler kind)
      else do
        let r ← r.addAliases ready
        r.addAllAliases later rounds

/-- The built-in handlers with the aliases of some settings, in the order of their names. -/
def ofSettings (s : Settings) : Except Failure Registry :=
  withDefaults.addAllAliases (sortByName s.aliases) (s.aliases.length + 1)

end Registry

end Stencil
