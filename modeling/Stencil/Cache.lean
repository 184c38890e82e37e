import Stencil.Registry
import Stencil.Sidecar

/-!
# Compiled components

A component is compiled when it is first needed, and what came of it, a routine or a failure, is kept
until it is dropped.
-/

namespace Stencil

/-- A compiled template. The serial number tells which compilation it came from. -/
structure Compiled where
  routine : Routine
  kind : String
  origin : Origin
  serial : Nat

/-- What has been compiled, by the identities of components, and how many compilations there were. -/
structure Cache where
  results : List (Nat × Except Failure Compiled) := []
  compilations : Nat := 0

/-- Where a component is between being unknown and being compiled. -/
inductive CompileState where
  | uncompiled
  | compiled
  | failed
  deriving DecidableEq, Repr

/-- Compiles the text of a template; a failure names the template's origin. -/
def Source.compile (handlers : Registry) (serial : Nat) (s : Source) : Except Failure Compiled :=
  match handlers.compile s.adapter with
  | .ok routine => .ok ⟨routine, s.kind, s.origin, serial⟩
  | .error f => .error (f.withOrigin s.origin.text)

namespace Cache

/-- Finds and compiles the template of a component. -/
def compile (handlers : Registry) (settings : Settings) (files : Files) (serial : Nat)
    (c : Component) : Except Failure Compiled := do
  let s ← Sidecar.template settings files c
  s.compile handlers serial

/-- The result that is kept for a component. -/
def find? (cache : Cache) (c : Component) : Option (Except Failure Compiled) :=
  cache.results.lookup c.identity

/-- The result for a component, compiled now unless one is kept. -/
def ensure (handlers : Registry) (settings : Settings) (files : Files) (c : Component)
    (cache : Cache) : Except Failure Compiled × Cache :=
  match cache.find? c with
  | some result => (result, cache)
  | none =>
    let serial := cache.compilations + 1
    let result := compile handlers settings files serial c
    (result, ⟨(c.identity, result) :: cache.results, serial⟩)

/-- The state of a component. -/
def state (cache : Cache) (c : Component) : CompileState :=
  match cache.find? c with
  | none => .uncompiled
  | some (.ok _) => .compiled
  | some (.error _) => .failed

/-- Drops the result of a component, and tells whether there was one. -/
def reload (cache : Cache) (c : Component) : Bool × Cache :=
  ((cache.find? c).isSome, { cache with results := cache.results.filter (·.1 ≠ c.identity) })

/-- Drops all results. -/
def clear (cache : Cache) : Cache := { cache with results := [] }

/-- The number of components that have a routine. -/
def compiledCount (cache : Cache) : Nat :=
  cache.results.countP fun p =>
    match p.2 with
    | .ok _ => true
    | .error _ => false

/-- A line that tells how many results are kept and how many compilations there were. -/
def describe (cache : Cache) : String :=
  "Compiler \x7b types: " ++ toString cache.results.length ++ ", compilations: " ++
    toString cache.compilations ++ " \x7d"

end Cache

end Stencil
