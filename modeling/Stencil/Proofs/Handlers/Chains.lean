import Mathlib.Data.Fintype.Pigeonhole
import Mathlib.Order.Monotone.Basic
import Stencil.Proofs.Values.Named
import Stencil.Registry

/-!
# Chains of aliases

An alias in some settings stands for a kind, which may be an alias in turn. Its chain is followed until
it meets a built-in kind. Main statement: `not_leads_iff`, by which a chain that meets none ends in a
kind that nobody knows, or runs into a circle.
-/

namespace Stencil

/-- The kinds of the built-in handlers. -/
def Registry.builtinKinds : List String := builtins.map (·.1)

namespace Settings

/-- The kind that an alias stands for. A later alias replaces an earlier one of the same name. -/
def target? (s : Settings) (name : String) : Option String := s.aliases.reverse.lookup name

/-- A chain goes on with what a kind stands for, unless it has met a built-in kind. -/
def Next (s : Settings) (kind next : String) : Prop :=
  kind ∉ Registry.builtinKinds ∧ s.target? kind = some next

/-- The chain from a kind passes through another one, or is there already. -/
def Runs (s : Settings) : String → String → Prop := Relation.ReflTransGen s.Next

/-- The chain from a kind ends in a built-in one. -/
def Leads (s : Settings) (kind last : String) : Prop :=
  s.Runs kind last ∧ last ∈ Registry.builtinKinds

/-- A chain ends in a kind that is not built in and not an alias either. -/
def Dangles (s : Settings) (kind : String) : Prop :=
  kind ∉ Registry.builtinKinds ∧ s.target? kind = none

/-- A chain comes back to a kind. -/
def Circles (s : Settings) (kind : String) : Prop := Relation.TransGen s.Next kind kind

section Chains

variable {s : Settings} {kind after other last : String}

/-- A built-in kind leads to itself. -/
theorem leads_self (h : kind ∈ Registry.builtinKinds) : s.Leads kind kind :=
  ⟨Relation.ReflTransGen.refl, h⟩

/-- A kind leads where the next one does. -/
theorem Next.leads (h : s.Next kind after) (hafter : s.Leads after last) : s.Leads kind last :=
  ⟨Relation.ReflTransGen.head h hafter.1, hafter.2⟩

/-- A chain has only one way to go on. -/
theorem rightUnique_next (s : Settings) : Relator.RightUnique s.Next := by
  intro kind after other h h'
  exact Option.some.inj (h.2.symm.trans h'.2)

/-- Where a chain ends it passes through nothing else. -/
theorem Runs.eq_of_stop (h : s.Runs kind other) (hstop : ∀ after, ¬ s.Next kind after) :
    other = kind := by
  rcases Relation.ReflTransGen.cases_head h with heq | ⟨after, hafter, -⟩
  · exact heq.symm
  · exact absurd hafter (hstop after)

/-- What a chain that leads to a built-in kind passes through leads there too. -/
theorem Leads.of_runs (h : s.Leads kind last) (hruns : s.Runs kind other) : s.Leads other last := by
  rcases Relation.ReflTransGen.total_of_right_unique s.rightUnique_next h.1 hruns with hback | hon
  · have heq : other = last := Runs.eq_of_stop hback fun after hafter => hafter.1 h.2
    rw [heq]
    exact leads_self h.2
  · exact ⟨hon, h.2⟩

/-- A chain meets only one built-in kind. -/
theorem Leads.unique (h : s.Leads kind last) (h' : s.Leads kind other) : last = other :=
  Runs.eq_of_stop (h.of_runs h'.1).1 fun _ hafter => hafter.1 h'.2

/-- A chain that dangles leads nowhere. -/
theorem Dangles.not_leads (h : s.Dangles kind) : ¬ s.Leads kind last := by
  intro hleads
  have heq : last = kind := Runs.eq_of_stop hleads.1 fun after hafter => by
    cases h.2.symm.trans hafter.2
  exact h.1 (heq ▸ hleads.2)

/-- A circle goes on with a circle. -/
theorem Circles.of_next (h : s.Circles kind) (hafter : s.Next kind after) : s.Circles after := by
  obtain ⟨other, hother, hback⟩ := Relation.TransGen.head'_iff.1 h
  obtain rfl : other = after := s.rightUnique_next hother hafter
  exact Relation.TransGen.tail' hback hafter

/-- A circle leads nowhere. -/
theorem Circles.not_leads (h : s.Circles kind) : ¬ s.Leads kind last := by
  rintro ⟨hruns, hlast⟩
  induction hruns using Relation.ReflTransGen.head_induction_on with
  | refl =>
    obtain ⟨other, hother, -⟩ := Relation.TransGen.head'_iff.1 h
    exact hother.1 hlast
  | head hafter _ ih => exact ih (Circles.of_next h hafter)

/-- A kind with another one after it is one of the aliases. -/
theorem Next.mem_names (h : s.Next kind after) : kind ∈ s.aliases.map (·.1) :=
  List.mem_map_of_mem (List.mem_reverse.1 (mem_of_lookup_eq_some h.2))

/-- The kind some steps ahead on a chain. -/
def ahead (s : Settings) (kind : String) (n : Nat) : String :=
  (fun other => (s.target? other).getD other)^[n] kind

/-- A chain that always goes on passes through all the kinds ahead, one after the other. -/
theorem runs_ahead (h : ∀ other, s.Runs kind other → ∃ after, s.Next other after) (n : Nat) :
    s.Runs kind (s.ahead kind n) ∧ s.Next (s.ahead kind n) (s.ahead kind (n + 1)) := by
  have hruns : s.Runs kind (s.ahead kind n) := by
    cases n with
    | zero => exact Relation.ReflTransGen.refl
    | succ n =>
      obtain ⟨hruns, hnext⟩ := runs_ahead h n
      exact Relation.ReflTransGen.tail hruns hnext
  obtain ⟨after, hafter⟩ := h _ hruns
  have heq : s.ahead kind (n + 1) = after := by
    rw [ahead, Function.iterate_succ_apply', ← ahead, hafter.2, Option.getD_some]
  exact ⟨hruns, heq ▸ hafter⟩

/-- A chain that always goes on runs into a circle, since there are only so many aliases. -/
theorem exists_circles (h : ∀ other, s.Runs kind other → ∃ after, s.Next other after) :
    ∃ other, s.Runs kind other ∧ s.Circles other := by
  have hnext (n : Nat) := (runs_ahead h n).2
  have hpath {m n : Nat} (hlt : m < n) : Relation.TransGen s.Next (s.ahead kind m) (s.ahead kind n) :=
    Nat.rel_of_forall_rel_succ_of_lt _ (fun n => Relation.TransGen.single (hnext n)) hlt
  obtain ⟨m, n, hne, heq⟩ := Finite.exists_ne_map_eq_of_infinite
    fun n => (⟨s.ahead kind n, (hnext n).mem_names⟩ : {name // name ∈ s.aliases.map (·.1)})
  have heq : s.ahead kind m = s.ahead kind n := congrArg Subtype.val heq
  refine ⟨s.ahead kind m, (runs_ahead h m).1, ?_⟩
  rcases Nat.lt_or_gt_of_ne hne with hlt | hlt
  all_goals
    have hcircle := hpath hlt
    rwa [← heq] at hcircle

/-- A chain meets no built-in kind if it ends in a kind that nobody knows or runs into a circle. -/
theorem not_leads_iff :
    (∀ last, ¬ s.Leads kind last) ↔
      ∃ other, s.Runs kind other ∧ (s.Dangles other ∨ s.Circles other) := by
  constructor
  · intro h
    by_cases hdangles : ∃ other, s.Runs kind other ∧ s.Dangles other
    · obtain ⟨other, hruns, hother⟩ := hdangles
      exact ⟨other, hruns, .inl hother⟩
    · have hafter (other : String) (hruns : s.Runs kind other) : ∃ after, s.Next other after := by
        have hbuiltin : other ∉ Registry.builtinKinds := fun hmem => h other ⟨hruns, hmem⟩
        cases htarget : s.target? other with
        | none => exact absurd ⟨other, hruns, hbuiltin, htarget⟩ hdangles
        | some after => exact ⟨after, hbuiltin, htarget⟩
      obtain ⟨other, hruns, hother⟩ := exists_circles hafter
      exact ⟨other, hruns, .inr hother⟩
  · rintro ⟨other, hruns, hother⟩ last hleads
    rcases hother with hdangles | hcircles
    · exact hdangles.not_leads (hleads.of_runs hruns)
    · exact hcircles.not_leads (hleads.of_runs hruns)

end Chains

end Settings

end Stencil
