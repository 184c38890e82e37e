import Stencil.Proofs.Values.Named
import Stencil.Registry

/-!
# Registries stay consistent

Handlers and aliases are kept apart, and each alias directly with the kind of its handler. Main
statements: `Consistent.apply`, by which a change that succeeds keeps a registry consistent;
`Consistent.contains_iff`, by which a consistent registry can resolve exactly the kinds that are
taken; and `registry_stays_consistent`, on all sequences of changes and on what each of them answers.
-/

namespace Stencil

namespace Registry

/-- The kinds that have handlers of their own. -/
def handled (r : Registry) : List String := r.handlers.map (·.1)

/-- The kinds that are aliases. -/
def aliased (r : Registry) : List String := r.aliases.map (·.1)

/-- What holds of a registry at any time. -/
structure Consistent (r : Registry) : Prop where
  /-- No kind is taken twice, be it by handlers or by aliases. -/
  distinct : (r.handled ++ r.aliased).Nodup
  /-- Each alias stands for a kind that has a handler of its own. -/
  direct : ∀ p ∈ r.aliases, p.2 ∈ r.handled
  /-- Each handler is kept with its own kind and with the convention that it declares. -/
  declared : ∀ p ∈ r.handlers, p.2.kind = p.1 ∧ p.2.convention = p.2.handler.convention

section Resolving

variable {r : Registry} {kind name : String} {h : Registered} {f : Failure}

/-- A kind is taken if it has a handler or is an alias. -/
theorem isTaken_iff : r.isTaken kind = true ↔ kind ∈ r.handled ++ r.aliased := by
  rw [isTaken, Bool.or_eq_true, isSome_lookup_iff, isSome_lookup_iff, List.mem_append]
  rfl

/-- A kind that is not taken is new. -/
theorem not_mem_of_isTaken (h : r.isTaken kind = false) : kind ∉ r.handled ++ r.aliased := by
  rw [← isTaken_iff, h]
  exact Bool.false_ne_true

/-- A kind is resolved to the handler of the kind that it stands for. -/
theorem resolve_eq_ok :
    r.resolve kind = .ok h ↔ r.handlers.lookup ((r.aliases.lookup kind).getD kind) = some h := by
  rw [resolve]
  cases r.handlers.lookup ((r.aliases.lookup kind).getD kind) with
  | none => simp
  | some h' => simp

/-- A kind is contained if it is resolved. -/
theorem contains_eq_true : r.contains kind = true ↔ ∃ h, r.resolve kind = .ok h := by
  rw [contains]
  cases r.resolve kind with
  | error f => simp
  | ok h => simp

/-- A kind that cannot be resolved is named in the failure. -/
theorem resolve_eq_error :
    r.resolve kind = .error f ↔ r.contains kind = false ∧ f = .unknownHandler kind := by
  rw [contains, resolve]
  cases r.handlers.lookup ((r.aliases.lookup kind).getD kind) with
  | none => simp [eq_comm]
  | some h => simp

/-- A kind that has a handler is no alias. -/
theorem Consistent.lookup_aliases_eq_none (hr : r.Consistent) (hkind : kind ∈ r.handled) :
    r.aliases.lookup kind = none :=
  lookup_eq_none_iff_not_mem.2 fun halias =>
    (List.nodup_append.1 hr.distinct).2.2 kind hkind kind halias rfl

/-- A consistent registry can resolve exactly the kinds that are taken. -/
theorem Consistent.contains_iff (hr : r.Consistent) :
    r.contains kind = true ↔ kind ∈ r.handled ++ r.aliased := by
  simp only [contains_eq_true, resolve_eq_ok, ← Option.isSome_iff_exists, isSome_lookup_iff]
  rw [List.mem_append]
  cases hkind : r.aliases.lookup kind with
  | none =>
    have hnot : kind ∉ r.aliased := lookup_eq_none_iff_not_mem.1 hkind
    simp [hnot, handled]
  | some target =>
    have halias : kind ∈ r.aliased := isSome_lookup_iff.1 (by rw [hkind]; rfl)
    have htarget : target ∈ r.handled := hr.direct _ (mem_of_lookup_eq_some hkind)
    simp only [Option.getD_some, halias, or_true, iff_true]
    exact htarget

/-- A resolved handler has the kind that is looked up for it. -/
theorem Consistent.kind_eq (hr : r.Consistent) (hkind : r.resolve kind = .ok h) :
    h.kind = (r.aliases.lookup kind).getD kind :=
  (hr.declared _ (mem_of_lookup_eq_some (resolve_eq_ok.1 hkind))).1

/-- The kind of a resolved handler has a handler of its own, which is this one. -/
theorem Consistent.lookup_kind (hr : r.Consistent) (hkind : r.resolve kind = .ok h) :
    h.kind ∈ r.handled ∧ r.handlers.lookup h.kind = some h := by
  have hlookup := resolve_eq_ok.1 hkind
  rw [← hr.kind_eq hkind] at hlookup
  exact ⟨isSome_lookup_iff.1 (by rw [hlookup]; rfl), hlookup⟩

/-- The kind of a resolved handler is resolved to the same handler. -/
theorem Consistent.resolve_kind (hr : r.Consistent) (hkind : r.resolve kind = .ok h) :
    r.resolve h.kind = .ok h := by
  obtain ⟨hmem, hlookup⟩ := hr.lookup_kind hkind
  rw [resolve_eq_ok, hr.lookup_aliases_eq_none hmem]
  exact hlookup

/-- The kinds of a registry are those that are taken. -/
theorem perm_kinds (r : Registry) : r.kinds.Perm (r.handled ++ r.aliased) :=
  List.mergeSort_perm _ _

/-- The kinds of a consistent registry are in strict order. -/
theorem Consistent.pairwise_kinds (hr : r.Consistent) : r.kinds.Pairwise (· < ·) := by
  have hsorted : r.kinds.Pairwise (· ≤ ·) := List.pairwise_mergeSort' (· ≤ ·) _
  have hdistinct : r.kinds.Pairwise (· ≠ ·) := hr.distinct.perm r.perm_kinds.symm
  exact (hsorted.and hdistinct).imp fun h => lt_of_le_of_ne h.1 h.2

end Resolving

/-- A change to a registry: a handler for a new kind, or a new kind that stands for another one. -/
inductive Change where
  | register (kind : String) (h : Handler)
  | addAlias (name kind : String)

namespace Change

/-- The kind that a change would add. -/
def name : Change → String
  | .register kind _ => kind
  | .addAlias name _ => name

/-- The kind that has to be there before the change. -/
def target? : Change → Option String
  | .register _ _ => none
  | .addAlias _ kind => some kind

/-- Makes a change. -/
def apply (c : Change) (r : Registry) : Except Failure Registry :=
  match c with
  | .register kind h => r.register kind h
  | .addAlias name kind => r.addAlias name kind

/-- What the kind that a change adds is resolved to from then on. -/
def meaning (c : Change) (r : Registry) : Except Failure Registered :=
  match c with
  | .register kind h => .ok (.of kind h)
  | .addAlias _ kind => r.resolve kind

end Change

/-- The registry after a change, which is the one before if the change fails. -/
def step (r : Registry) (c : Change) : Registry :=
  match c.apply r with
  | .ok r' => r'
  | .error _ => r

/-- The registry after changes, one after another, failed ones included. -/
def after (r : Registry) (changes : List Change) : Registry := changes.foldl step r

/-- How a registry answers a change. -/
structure Answers (r : Registry) (c : Change) : Prop where
  /-- A change fails for its own kind exactly if that is handled already. -/
  duplicate : c.apply r = .error (.duplicateHandler c.name) ↔ r.contains c.name = true
  /-- It fails for another kind exactly if that is needed and is not handled. -/
  unknown : ∀ kind, c.apply r = .error (.unknownHandler kind) ↔
    r.contains c.name = false ∧ c.target? = some kind ∧ r.contains kind = false
  /-- It fails in no other way. -/
  failures : ∀ f, c.apply r = .error f →
    f = .duplicateHandler c.name ∨ ∃ kind, f = .unknownHandler kind
  /-- A change that fails leaves the registry as it is. -/
  unchanged : ∀ f, c.apply r = .error f → r.step c = r
  /-- A change that succeeds adds one kind and changes no other. -/
  added : ∀ r', c.apply r = .ok r' → r.step c = r' ∧ r'.kinds.Perm (c.name :: r.kinds) ∧
    r'.resolve c.name = c.meaning r ∧ ∀ kind, kind ≠ c.name → r'.resolve kind = r.resolve kind

section Changes

variable {r r' : Registry} {c : Change} {kind name : String} {h : Handler} {f : Failure}

/-- A handler is registered if its kind is not taken. -/
theorem register_eq_ok :
    r.register kind h = .ok r' ↔
      r.isTaken kind = false ∧ { r with handlers := r.handlers ++ [(kind, .of kind h)] } = r' := by
  rw [register]
  cases r.isTaken kind with
  | true => simp
  | false => simp

/-- A handler is refused if its kind is taken. -/
theorem register_eq_error :
    r.register kind h = .error f ↔ r.isTaken kind = true ∧ f = .duplicateHandler kind := by
  rw [register]
  cases r.isTaken kind with
  | true => simp [eq_comm]
  | false => simp

/-- An alias is kept with the kind of the handler that it stands for. -/
theorem addAlias_eq_ok :
    r.addAlias name kind = .ok r' ↔ r.isTaken name = false ∧
      ∃ h, r.resolve kind = .ok h ∧ { r with aliases := r.aliases ++ [(name, h.kind)] } = r' := by
  rw [addAlias]
  cases r.isTaken name with
  | true => simp
  | false => cases r.resolve kind <;> simp

/-- An alias is refused if it is taken, and otherwise if there is nothing to stand for. -/
theorem addAlias_eq_error :
    r.addAlias name kind = .error f ↔ r.isTaken name = true ∧ f = .duplicateHandler name ∨
      r.isTaken name = false ∧ r.contains kind = false ∧ f = .unknownHandler kind := by
  rw [addAlias, ← resolve_eq_error]
  cases r.isTaken name with
  | true => simp [eq_comm]
  | false => cases r.resolve kind <;> simp

/-- A handler takes one more kind. -/
theorem perm_register (r : Registry) (kind : String) (h : Handler) :
    (handled { r with handlers := r.handlers ++ [(kind, .of kind h)] } ++ r.aliased).Perm
      (kind :: (r.handled ++ r.aliased)) := by
  rw [handled, List.map_append, List.append_assoc]
  exact List.perm_middle

/-- An alias takes one more kind. -/
theorem perm_addAlias (r : Registry) (name kind : String) :
    (r.handled ++ aliased { r with aliases := r.aliases ++ [(name, kind)] }).Perm
      (name :: (r.handled ++ r.aliased)) := by
  rw [aliased, List.map_append, ← List.append_assoc]
  exact List.perm_append_singleton name _

/-- A handler for a kind that is not taken keeps the registry consistent. -/
theorem Consistent.register (hr : r.Consistent) (hkind : r.isTaken kind = false) (h : Handler) :
    Consistent { r with handlers := r.handlers ++ [(kind, .of kind h)] } := by
  refine ⟨?_, fun p hp => ?_, fun p hp => ?_⟩
  · exact (r.perm_register kind h).nodup_iff.2
      (List.nodup_cons.2 ⟨not_mem_of_isTaken hkind, hr.distinct⟩)
  · rw [handled, List.map_append]
    exact List.mem_append_left _ (hr.direct p hp)
  · rcases List.mem_append.1 hp with hp | hp
    · exact hr.declared p hp
    · rw [List.mem_singleton.1 hp]
      exact ⟨rfl, rfl⟩

/-- An alias that is not taken, of a kind with a handler of its own, keeps the registry consistent. -/
theorem Consistent.addAlias (hr : r.Consistent) (hname : r.isTaken name = false)
    (hkind : kind ∈ r.handled) : Consistent { r with aliases := r.aliases ++ [(name, kind)] } := by
  refine ⟨?_, fun p hp => ?_, hr.declared⟩
  · exact (r.perm_addAlias name kind).nodup_iff.2
      (List.nodup_cons.2 ⟨not_mem_of_isTaken hname, hr.distinct⟩)
  · rcases List.mem_append.1 hp with hp | hp
    · exact hr.direct p hp
    · rw [List.mem_singleton.1 hp]
      exact hkind

/-- A change that succeeds keeps a registry consistent. -/
theorem Consistent.apply (hr : r.Consistent) (hc : c.apply r = .ok r') : r'.Consistent := by
  cases c with
  | register kind h =>
    obtain ⟨hkind, rfl⟩ := register_eq_ok.1 hc
    exact hr.register hkind h
  | addAlias name kind =>
    obtain ⟨hname, h, hh, rfl⟩ := addAlias_eq_ok.1 hc
    exact hr.addAlias hname (hr.lookup_kind hh).1

/-- A change keeps a registry consistent, whether it succeeds or fails. -/
theorem Consistent.step (hr : r.Consistent) (c : Change) : (r.step c).Consistent := by
  rw [Registry.step]
  cases hc : c.apply r with
  | ok r' => exact hr.apply hc
  | error f => exact hr

/-- Any changes keep a registry consistent. -/
theorem Consistent.after (hr : r.Consistent) (changes : List Change) :
    (r.after changes).Consistent := by
  induction changes generalizing r with
  | nil => exact hr
  | cons c changes ih => exact ih (hr.step c)

/-- A registry without handlers is consistent. -/
theorem consistent_empty : Consistent {} := ⟨.nil, by simp, by simp⟩

/-- The registry of the built-in handlers is consistent. -/
theorem consistent_withDefaults : withDefaults.Consistent := by
  refine ⟨by decide, by simp [withDefaults], ?_⟩
  intro p hp
  obtain ⟨⟨kind, h⟩, -, rfl⟩ := List.mem_map.1 hp
  exact ⟨rfl, rfl⟩

/-- A new handler is what its kind is resolved to, and no other kind is resolved otherwise than
before. -/
theorem Consistent.resolve_register (hr : r.Consistent) (hkind : r.isTaken kind = false)
    (h : Handler) (other : String) :
    resolve { r with handlers := r.handlers ++ [(kind, .of kind h)] } other =
      if other = kind then .ok (.of kind h) else r.resolve other := by
  obtain ⟨hhandled, haliased⟩ := not_or.1 (List.mem_append.not.1 (not_mem_of_isTaken hkind))
  by_cases hother : other = kind
  · subst hother
    rw [if_pos rfl, resolve_eq_ok, lookup_eq_none_iff_not_mem.2 haliased]
    exact lookup_append_singleton_self hhandled
  · -- What another kind stands for has a handler already, or is that kind itself.
    have hne : (r.aliases.lookup other).getD other ≠ kind := by
      cases halias : r.aliases.lookup other with
      | none => exact hother
      | some target =>
        rintro rfl
        exact hhandled (hr.direct _ (mem_of_lookup_eq_some halias))
    rw [if_neg hother]
    simp only [resolve, lookup_append_singleton_ne hne]

/-- A new alias is resolved to what it stands for, and no other kind is resolved otherwise than
before. -/
theorem Consistent.resolve_addAlias (hr : r.Consistent) (hname : r.isTaken name = false)
    {h : Registered} (hkind : r.resolve kind = .ok h) (other : String) :
    resolve { r with aliases := r.aliases ++ [(name, h.kind)] } other =
      if other = name then .ok h else r.resolve other := by
  obtain ⟨-, haliased⟩ := not_or.1 (List.mem_append.not.1 (not_mem_of_isTaken hname))
  by_cases hother : other = name
  · subst hother
    rw [if_pos rfl, resolve_eq_ok, lookup_append_singleton_self haliased]
    exact (hr.lookup_kind hkind).2
  · rw [if_neg hother]
    simp only [resolve, lookup_append_singleton_ne hother]

/-- In a consistent registry a kind is taken exactly if it can be resolved. -/
theorem Consistent.isTaken_eq_contains (hr : r.Consistent) (kind : String) :
    r.isTaken kind = r.contains kind := by
  rw [Bool.eq_iff_iff, isTaken_iff, hr.contains_iff]

/-- A new kind is one more among the kinds. -/
theorem perm_kinds_of_perm (h : (r'.handled ++ r'.aliased).Perm (name :: (r.handled ++ r.aliased))) :
    r'.kinds.Perm (name :: r.kinds) :=
  (r'.perm_kinds.trans h).trans (r.perm_kinds.symm.cons name)

/-- A consistent registry answers the registration of a handler. -/
theorem Consistent.answers_register (hr : r.Consistent) (kind : String) (h : Handler) :
    r.Answers (.register kind h) := by
  have htaken := hr.isTaken_eq_contains kind
  refine ⟨?_, ?_, ?_, ?_, ?_⟩
  · simp only [Change.apply, Change.name, register_eq_error, htaken, and_true]
  · simp [Change.apply, Change.target?, register_eq_error]
  · intro f hf
    exact .inl (register_eq_error.1 hf).2
  · intro f hf
    rw [Registry.step, hf]
  · intro r' hr'
    refine ⟨by rw [Registry.step, hr'], ?_⟩
    obtain ⟨hkind, rfl⟩ := register_eq_ok.1 hr'
    refine ⟨perm_kinds_of_perm (r.perm_register kind h), ?_, fun other hother => ?_⟩
    · exact (hr.resolve_register hkind h kind).trans (if_pos rfl)
    · exact (hr.resolve_register hkind h other).trans (if_neg hother)

/-- A consistent registry answers the addition of an alias. -/
theorem Consistent.answers_addAlias (hr : r.Consistent) (name kind : String) :
    r.Answers (.addAlias name kind) := by
  have htaken := hr.isTaken_eq_contains name
  refine ⟨?_, ?_, ?_, ?_, ?_⟩
  · simp [Change.apply, Change.name, addAlias_eq_error, htaken]
  · intro kind'
    simp only [Change.apply, Change.name, Change.target?, addAlias_eq_error, htaken]
    constructor
    · rintro (⟨-, h⟩ | ⟨hname, hkind, h⟩)
      · cases h
      · cases h
        exact ⟨hname, rfl, hkind⟩
    · rintro ⟨hname, ⟨⟩, hkind⟩
      exact .inr ⟨hname, hkind, rfl⟩
  · intro f hf
    rcases addAlias_eq_error.1 hf with ⟨-, rfl⟩ | ⟨-, -, rfl⟩
    · exact .inl rfl
    · exact .inr ⟨kind, rfl⟩
  · intro f hf
    rw [Registry.step, hf]
  · intro r' hr'
    refine ⟨by rw [Registry.step, hr'], ?_⟩
    obtain ⟨hname, h, hh, rfl⟩ := addAlias_eq_ok.1 hr'
    refine ⟨perm_kinds_of_perm (r.perm_addAlias name h.kind), ?_, fun other hother => ?_⟩
    · exact ((hr.resolve_addAlias hname hh name).trans (if_pos rfl)).trans hh.symm
    · exact (hr.resolve_addAlias hname hh other).trans (if_neg hother)

end Changes

/-- Whatever is registered, in whatever order and with whatever failures, handlers and aliases are
kept apart, each alias directly with the kind of a handler, and each handler with its own kind and
convention. The kinds are in strict order, and they are those that can be resolved, each to a handler
whose kind is resolved to itself. And the next change is answered as it should be. -/
theorem registry_stays_consistent {start : Registry} (hstart : start = {} ∨ start = withDefaults)
    (changes : List Change) (c : Change) :
    (start.after changes).Consistent ∧
    (start.after changes).kinds.Pairwise (· < ·) ∧
    (∀ kind, kind ∈ (start.after changes).kinds ↔ (start.after changes).contains kind = true) ∧
    (∀ kind h, (start.after changes).resolve kind = .ok h →
      (start.after changes).resolve h.kind = .ok h) ∧
    (start.after changes).Answers c := by
  have hs : start.Consistent := by
    rcases hstart with rfl | rfl
    · exact consistent_empty
    · exact consistent_withDefaults
  have hr := hs.after changes
  refine ⟨hr, hr.pairwise_kinds, fun kind => ?_, fun kind h => hr.resolve_kind, ?_⟩
  · rw [(perm_kinds _).mem_iff, hr.contains_iff]
  · cases c with
    | register kind h => exact hr.answers_register kind h
    | addAlias name kind => exact hr.answers_addAlias name kind

/-- A refused handler takes nothing from the alias of the same name, and a refused alias is not
there to stand for: an alias of it is refused in turn. -/
theorem registry_stays_consistent_after_failures :
    ("htm" ∈ (withDefaults.after
      [.addAlias "htm" "html", .register "htm" .raw, .addAlias "md" "nope"]).kinds) ∧
    ("md" ∉ (withDefaults.after
      [.addAlias "htm" "html", .register "htm" .raw, .addAlias "md" "nope"]).kinds) ∧
    Change.apply (.addAlias "page" "md") (withDefaults.after
      [.addAlias "htm" "html", .register "htm" .raw, .addAlias "md" "nope"]) =
        .error (.unknownHandler "md") := by
  obtain ⟨-, -, hkinds, -, hanswers⟩ := registry_stays_consistent (.inr rfl)
    [.addAlias "htm" "html", .register "htm" .raw, .addAlias "md" "nope"] (.addAlias "page" "md")
  refine ⟨(hkinds "htm").2 rfl, fun h => ?_, (hanswers.unknown "md").2 ⟨rfl, rfl, rfl⟩⟩
  exact Bool.false_ne_true ((hkinds "md").1 h)

end Registry

end Stencil
