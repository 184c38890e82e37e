import Stencil.Proofs.Handlers.Consistent

/-!
# Rounds of aliases

Aliases that may stand for one another are added in rounds. `Settles` tells how the rounds come to an
end without counting them. Main statement: `settles_iff`, by which they always do, in one way, and
within one round more than there are aliases.
-/

namespace Stencil

namespace Registry

variable {r : Registry} {waiting : List (String × String)} {result : Except Failure Registry}
  {rounds : Nat}

/-- The aliases among those that wait whose kinds are known. -/
def ready (r : Registry) (waiting : List (String × String)) : List (String × String) :=
  waiting.filter fun p => r.contains p.2

/-- The aliases among those that wait whose kinds are not known yet. -/
def later (r : Registry) (waiting : List (String × String)) : List (String × String) :=
  waiting.filter fun p => !r.contains p.2

/-- What comes of aliases that wait: they have all been added; none is ready; one that is ready is
refused; or those that are ready are added, and the same goes for the others. -/
inductive Settles : Registry → List (String × String) → Except Failure Registry → Prop where
  | done {r : Registry} : Settles r [] (.ok r)
  | stuck {r : Registry} {name kind : String} {rest : List (String × String)} :
    r.ready ((name, kind) :: rest) = [] →
    Settles r ((name, kind) :: rest) (.error (.unknownHandler kind))
  | refused {r : Registry} {waiting : List (String × String)} {f : Failure} :
    r.addAliases (r.ready waiting) = .error f → Settles r waiting (.error f)
  | round {r r' : Registry} {waiting : List (String × String)} {result : Except Failure Registry} :
    r.ready waiting ≠ [] → r.addAliases (r.ready waiting) = .ok r' →
    Settles r' (r.later waiting) result → Settles r waiting result

/-- Each alias that waits is either ready or not. -/
theorem perm_ready_append_later (r : Registry) (waiting : List (String × String)) :
    (r.ready waiting ++ r.later waiting).Perm waiting :=
  List.filter_append_perm _ _

/-- With nothing ready, the kinds of all that wait are unknown. -/
theorem not_contains_of_stuck {p : String × String} (hstuck : r.ready waiting = [])
    (hp : p ∈ waiting) : ¬ r.contains p.2 = true := by
  intro hcontains
  have hready : p ∈ r.ready waiting := List.mem_filter.2 ⟨hp, hcontains⟩
  rw [hstuck] at hready
  cases hready

/-- Fewer aliases wait after a round in which some were ready. -/
theorem length_later_lt (h : r.ready waiting ≠ []) :
    (r.later waiting).length < waiting.length := by
  have hlength := (r.perm_ready_append_later waiting).length_eq
  have hready := List.length_pos_iff.2 h
  rw [List.length_append] at hlength
  omega

/-- With nothing ready, the kind of the first alias is unknown. -/
theorem addAllAliases_of_stuck {name kind : String} {rest : List (String × String)}
    (h : r.ready ((name, kind) :: rest) = []) :
    r.addAllAliases ((name, kind) :: rest) (rounds + 1) = .error (.unknownHandler kind) := by
  rw [addAllAliases]
  exact if_pos (List.isEmpty_iff.2 h)

/-- With some aliases ready, these are added, and then the others. -/
theorem addAllAliases_of_ready (h : r.ready waiting ≠ []) :
    r.addAllAliases waiting (rounds + 1) =
      (r.addAliases (r.ready waiting)).bind fun r' =>
        r'.addAllAliases (r.later waiting) rounds := by
  cases waiting with
  | nil => exact absurd rfl h
  | cons p rest =>
    rw [addAllAliases]
    exact if_neg (List.isEmpty_iff.not.2 h)

/-- The rounds come to an end if there can be more of them than there are aliases. -/
theorem settles_addAllAliases (h : waiting.length < rounds) :
    r.Settles waiting (r.addAllAliases waiting rounds) := by
  induction rounds generalizing r waiting with
  | zero => exact absurd h (Nat.not_lt_zero _)
  | succ rounds ih =>
    by_cases hready : r.ready waiting = []
    · cases waiting with
      | nil => exact .done
      | cons p rest =>
        rw [addAllAliases_of_stuck hready]
        exact .stuck hready
    · rw [addAllAliases_of_ready hready]
      cases hadd : r.addAliases (r.ready waiting) with
      | error f => exact .refused hadd
      | ok r' =>
        refine .round hready hadd (ih ?_)
        exact (length_later_lt hready).trans_le (Nat.le_of_lt_succ h)

/-- The rounds come to no other end. -/
theorem Settles.addAllAliases_eq (h : r.Settles waiting result) (hrounds : waiting.length < rounds) :
    r.addAllAliases waiting rounds = result := by
  induction h generalizing rounds with
  | done =>
    obtain ⟨rounds, rfl⟩ := Nat.exists_eq_add_one.2 (Nat.zero_lt_of_lt hrounds)
    rfl
  | stuck hready =>
    obtain ⟨rounds, rfl⟩ := Nat.exists_eq_add_one.2 (Nat.zero_lt_of_lt hrounds)
    exact addAllAliases_of_stuck hready
  | @refused r waiting f hadd =>
    obtain ⟨rounds, rfl⟩ := Nat.exists_eq_add_one.2 (Nat.zero_lt_of_lt hrounds)
    -- Adding nothing succeeds.
    have hready : r.ready waiting ≠ [] := fun hnil => by
      rw [hnil] at hadd
      cases hadd
    rw [addAllAliases_of_ready hready, hadd]
    rfl
  | round hready hadd _ ih =>
    obtain ⟨rounds, rfl⟩ := Nat.exists_eq_add_one.2 (Nat.zero_lt_of_lt hrounds)
    rw [addAllAliases_of_ready hready, hadd]
    exact ih ((length_later_lt hready).trans_le (Nat.le_of_lt_succ hrounds))

/-- The rounds come to exactly one end, however many more there can be than there are aliases. -/
theorem settles_iff (h : waiting.length < rounds) :
    r.Settles waiting result ↔ r.addAllAliases waiting rounds = result := by
  constructor
  · intro hsettles
    exact hsettles.addAllAliases_eq h
  · rintro rfl
    exact settles_addAllAliases h

end Registry

end Stencil
