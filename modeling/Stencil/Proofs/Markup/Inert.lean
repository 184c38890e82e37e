import Mathlib.Tactic.SplitIfs
import Stencil.Markup.Basic

/-!
# Text that cannot be taken for markup

The signs of markup are the angle brackets and the quotes. Main statement: `inert_escapeChars`, by
which the escaped form of any text has none of them and no ampersand but those of the five entities.
The signs of an output are those of its pieces, one piece after another (`signs_join`).
-/

namespace Stencil

/-- The characters that delimit tags and their attributes. -/
def markupSigns : List Char := ['<', '>', '"', '\'']

/-- Characters of which a reader of markup shows each as it is: no sign is among them, and each
ampersand begins one of the five entities. -/
def Inert (cs : List Char) : Prop :=
  (∀ c ∈ cs, c ∉ markupSigns) ∧
    ∀ rest, '&' :: rest <:+ cs → ∃ tail ∈ entityTails, tail <+: rest

/-- The signs of markup in the order in which they stand. -/
def Markup.signs (m : Markup) : List Char := m.html.toList.filter (· ∈ markupSigns)

/-- Nothing is inert. -/
theorem inert_nil : Inert [] := by
  refine ⟨by simp, fun rest h => ?_⟩
  simp at h

/-- What ends a text with an ampersand in front does not begin within characters that are none. -/
theorem suffix_of_suffix_append {rest xs ys : List Char} (hx : '&' ∉ xs)
    (h : '&' :: rest <:+ xs ++ ys) : '&' :: rest <:+ ys := by
  induction xs with
  | nil => exact h
  | cons x xs ih =>
    rcases List.suffix_cons_iff.1 h with e | h
    · rw [List.cons.injEq] at e
      exact absurd (e.1 ▸ List.mem_cons_self) hx
    · exact ih (List.not_mem_of_not_mem_cons hx) h

/-- The rest of an entity is made of characters that stand for themselves. -/
theorem isPlain_of_mem_entityTails {tail : List Char} (h : tail ∈ entityTails) :
    ∀ c ∈ tail, isPlain c = true := by
  have hall : entityTails.all (·.all isPlain) = true := by decide
  exact List.all_eq_true.1 (List.all_eq_true.1 hall tail h)

/-- A plain character is no sign. -/
theorem not_mem_signs_of_isPlain {c : Char} (h : isPlain c = true) : c ∉ markupSigns := by
  simp_all [isPlain, markupSigns]

/-- Escaped texts are inert. -/
theorem Escaped.inert {cs : List Char} (h : Escaped cs) : Inert cs := by
  induction h with
  | nil => exact inert_nil
  | @plain c cs hc _ ih =>
    obtain ⟨hsigns, hamp⟩ := ih
    refine ⟨?_, ?_⟩
    · intro d hd
      rcases List.mem_cons.1 hd with rfl | hd
      · exact not_mem_signs_of_isPlain hc
      · exact hsigns d hd
    · intro rest hrest
      have hne : '&' ∉ [c] := by
        intro hm
        rw [← List.mem_singleton.1 hm] at hc
        cases hc
      exact hamp rest (suffix_of_suffix_append hne hrest)
  | @entity tail cs ht _ ih =>
    obtain ⟨hsigns, hamp⟩ := ih
    have hplain := isPlain_of_mem_entityTails ht
    -- An ampersand is the one of this entity, or stands behind it: an entity holds no other.
    refine ⟨?_, ?_⟩
    · intro d hd
      simp only [List.cons_append, List.mem_cons, List.mem_append] at hd
      rcases hd with rfl | hd | hd
      · decide
      · exact not_mem_signs_of_isPlain (hplain d hd)
      · exact hsigns d hd
    · intro rest hrest
      rcases List.suffix_cons_iff.1 hrest with e | hrest
      · obtain ⟨-, rfl⟩ := List.cons.inj e
        exact ⟨tail, ht, List.prefix_append tail cs⟩
      · have hne : '&' ∉ tail := fun hm => absurd (hplain _ hm) (by decide)
        exact hamp rest (suffix_of_suffix_append hne hrest)

/-- The written form of one character, with escaped text behind it, is escaped. -/
theorem escaped_escapeChar_append {cs : List Char} (c : Char) (h : Escaped cs) :
    Escaped (escapeChar c ++ cs) := by
  rw [escapeChar]
  split_ifs with h₁ h₂ h₃ h₄ h₅
  · exact .entity (by decide : ['a', 'm', 'p', ';'] ∈ entityTails) h
  · exact .entity (by decide : ['l', 't', ';'] ∈ entityTails) h
  · exact .entity (by decide : ['g', 't', ';'] ∈ entityTails) h
  · exact .entity (by decide : ['q', 'u', 'o', 't', ';'] ∈ entityTails) h
  · exact .entity (by decide : ['#', '3', '9', ';'] ∈ entityTails) h
  · exact .plain (by simp [isPlain, h₁, h₂, h₃, h₄, h₅]) h

/-- Escaping any text yields an escaped text. -/
theorem escaped_escapeChars (cs : List Char) : Escaped (escapeChars cs) := by
  induction cs with
  | nil => exact .nil
  | cons c cs ih => exact escaped_escapeChar_append c ih

/-- Escaping makes any text inert. -/
theorem inert_escapeChars (cs : List Char) : Inert (escapeChars cs) :=
  (escaped_escapeChars cs).inert

/-- Inert markup has no signs. -/
theorem Inert.signs_eq_nil {m : Markup} (h : Inert m.html.toList) : m.signs = [] := by
  rw [Markup.signs, List.filter_eq_nil_iff]
  intro c hc
  simpa using h.1 c hc

/-- The markup of a text is inert. -/
theorem inert_ofText (text : String) : Inert (Markup.ofText text).html.toList := by
  rw [Markup.ofText, escape, String.toList_ofList]
  exact inert_escapeChars _

/-- The signs of joined pieces are those of the pieces. -/
theorem Markup.signs_join (pieces : List Markup) :
    (Markup.join pieces).signs = pieces.flatMap Markup.signs := by
  rw [Markup.signs, Markup.join, String.toList_join, List.filter_flatMap, List.flatMap_map]
  rfl

end Stencil
