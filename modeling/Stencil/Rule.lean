import Stencil.Scope
import Stencil.Value.Plain
import Stencil.Text.Case

/-!
# Rules

What a component demands of its attributes before it is rendered. The name `content` stands for what
the caller's block wrote, never for an attribute.
-/

namespace Stencil

/-- The name under which captured content is checked and printed. -/
def contentName : String := "content"

/-- What a rule demands. -/
inductive Demand where
  | presence
  | absence
  | inclusion (allowed : List Value)
  | length (least most : Option Nat)

/-- A demand on the attribute of a name. -/
structure Rule where
  name : String
  demand : Demand

/-- What a rule looks at: captured content, or the value of an attribute; either may be missing. -/
inductive Subject where
  | content (m : Option Markup)
  | value (v : Option Value)

namespace Subject

/-- Whether nothing, or nothing visible, is there. -/
def isBlank : Subject → Bool
  | .content m => (m.map Markup.isBlank).getD true
  | .value v => (v.map Value.isBlank).getD true

/-- The length that a rule bounds. Content counts the characters of the text that it shows. -/
def size : Subject → Nat
  | .content m => (m.map fun m => m.toText.length).getD 0
  | .value v => (v.map Value.size).getD 0

/-- Whether the subject is one of the values. Content is compared as the text that it shows, and only
with texts. -/
def isAmong (allowed : List Value) : Subject → Bool
  | .content (some m) => allowed.any fun v => v.same (.str m.toText)
  | .value (some v) => allowed.any fun a => a.same v
  | .content none | .value none => false

end Subject

namespace Demand

/-- Why the subject does not meet the demand. -/
def check (demand : Demand) (s : Subject) : Option FailureKind :=
  match demand with
  | .presence => if s.isBlank then some .blank else none
  | .absence => if s.isBlank then none else some .present
  | .inclusion allowed => if s.isAmong allowed then none else some .inclusion
  | .length least most =>
    match least.filter (s.size < ·) with
    | some n => some (.tooShort n)
    | none => (most.filter (· < s.size)).map .tooLong

end Demand

/-- What the name of a rule stands for. -/
def Subject.named (attributes : Attributes) (content : Option Markup) (name : String) : Subject :=
  if name = contentName then .content content else .value (attributes.find? name)

/-- The failure of one rule. -/
def Rule.failure? (attributes : Attributes) (content : Option Markup) (rule : Rule) :
    Option RuleFailure :=
  (rule.demand.check (.named attributes content rule.name)).map fun kind => ⟨rule.name, kind⟩

/-- Checks every rule and fails with all failures, in the order of the rules. -/
def validate (rules : List Rule) (attributes : Attributes) (content : Option Markup) :
    Except Failure Unit :=
  match rules.filterMap (Rule.failure? attributes content) with
  | [] => .ok ()
  | failures => .error (.invalid failures)

/-- The failures of the rules on one attribute. -/
def failuresOn (name : String) (failures : List RuleFailure) : List FailureKind :=
  (failures.filter (·.name = name)).map RuleFailure.kind

end Stencil
