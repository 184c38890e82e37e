import Stencil.Proofs.Printing.Found

/-!
# Stray openings

Which openings of tags the lexer takes as text. Main statement: `hasOpener_iff_stray`, on the texts
that it finds.
-/

namespace Stencil.Segment

/-- The openings of tags that can be text, with the character after them: three braces, if they are
never closed; two braces in front of a brace that would close them, and a brace and a percent sign
in front of a percent sign, if that closes nothing. -/
def strayOpenings : List (List Char) := [['{', '{', '{'], ['{', '{', '}'], ['{', '%', '%']]

/-- Whether a stray opening is somewhere in the characters. -/
def HasStray (cs : List Char) : Prop := ∃ o ∈ strayOpenings, o <:+: cs

variable {c : Char} {cs t : List Char}

/-- The first opening of a tag in the characters: nothing is opened before it. -/
theorem exists_opening (h : hasOpener cs = true) :
    ∃ as c bs, cs = as ++ '{' :: c :: bs ∧ (c = '{' ∨ c = '%' ∨ c = '#') ∧
      hasOpener as = false ∧ as.getLast? ≠ some '{' := by
  induction cs with
  | nil => cases h
  | cons a cs ih =>
    -- The opening is at the front, or the first one of the other characters.
    by_cases hfirst : a = '{' ∧ ∃ c bs, cs = c :: bs ∧ (c = '{' ∨ c = '%' ∨ c = '#')
    · obtain ⟨rfl, c, bs, rfl, hc⟩ := hfirst
      exact ⟨[], c, bs, rfl, hc, rfl, nofun⟩
    · have hcs : hasOpener cs = true := by
        cases cs with
        | nil => simp [hasOpener] at h
        | cons d ds =>
          by_cases ha : a = '{'
          · subst ha
            simp_all [hasOpener]
          · rwa [hasOpener_cons_of_ne ha] at h
      obtain ⟨as, c, bs, rfl, hc, has, hlast⟩ := ih hcs
      refine ⟨a :: as, c, bs, rfl, hc, ?_, ?_⟩
      · cases as with
        | nil => simp [hasOpener]
        | cons d as =>
          by_cases ha : a = '{'
          · simp_all [hasOpener]
          · rwa [hasOpener_cons_of_ne ha]
      · cases as with
        | nil =>
          rintro ⟨⟩
          exact hfirst ⟨rfl, '{', _, rfl, .inl rfl⟩
        | cons d as => simpa using hlast

/-- Where an opening is text the character after it makes it a stray opening. -/
theorem stray_of_first (hc : c = '{' ∨ c = '%' ∨ c = '#') {as rest : List Char}
    (h : first '{' (c :: cs) = (.text as, rest)) :
    ∃ o ∈ strayOpenings, o <+: '{' :: c :: cs := by
  unfold first at h
  rw [if_pos rfl] at h
  split at h
  · rename_i ds e
    rw [e]
    exact ⟨_, by simp [strayOpenings], List.prefix_append ['{', '{', '{'] ds⟩
  · rename_i ds _ e
    unfold afterBraces at h
    split at h
    · cases h
    · rename_i tail _ hb
      rw [e, ← append_of_body hb]
      exact ⟨_, by simp [strayOpenings], List.prefix_append ['{', '{', '}'] tail⟩
    · cases h
  · rename_i ds e
    unfold afterPercent at h
    split at h
    · cases h
    · rename_i tail _ hb
      rw [e, ← append_of_body hb]
      exact ⟨_, by simp [strayOpenings], List.prefix_append ['{', '%', '%'] tail⟩
    · cases h
  · unfold afterHash at h
    split at h
    · cases h
    · cases h
  · rename_i h₁ h₂ h₃ h₄
    rcases hc with rfl | rfl | rfl
    · exact (h₂ _ rfl).elim
    · exact (h₃ _ rfl).elim
    · exact (h₄ _ rfl).elim

/-- A source whose first segment is put in front of others as text begins with text. -/
theorem first_text_of_split {as : List Char} {after : List Segment}
    (h : split (c :: cs) = .text as :: after) : ∃ bs rest, first c cs = (.text bs, rest) := by
  rw [split_cons] at h
  rcases cons_cases (first c cs).1 (split (first c cs).2) with ⟨bs, _, _, hs, -⟩ | ⟨hcons, -⟩
  · exact ⟨bs, _, Prod.ext hs rfl⟩
  · exact ⟨as, _, Prod.ext (List.cons.inj (hcons.symm.trans h)).1 rfl⟩

/-- A stray opening is an opening. -/
theorem HasStray.hasOpener (h : HasStray t) : hasOpener t = true := by
  have hall : ∀ o ∈ strayOpenings, Stencil.hasOpener o = true := by decide
  obtain ⟨o, ho, as, bs, rfl⟩ := h
  cases hopener : Stencil.hasOpener (as ++ o ++ bs) with
  | true => rfl
  | false =>
    exact (hasOpener_right (hasOpener_left hopener)).symm.trans (hall o ho)

/-- A text that the lexer finds has an opening of a tag in it if and only if it has a stray opening.
-/
theorem hasOpener_iff_stray {isLast : Bool} (h : Literal isLast t) :
    Stencil.hasOpener t = true ↔ HasStray t := by
  refine ⟨fun ho => ?_, HasStray.hasOpener⟩
  obtain ⟨as, c, bs, rfl, hc, has, hlast⟩ := exists_opening ho
  have hsplit := h.2 [] apart_nil fun _ => rfl
  rw [List.append_nil, split_nil] at hsplit
  -- The whole is one text, so that the source from the first opening on begins with text.
  have htext : ∃ us after, split ('{' :: c :: bs) = .text us :: after := by
    by_cases hne : as = []
    · subst hne
      exact ⟨_, _, hsplit⟩
    · rw [split_append_of_hasOpener has hne (.inr ⟨⟨_, rfl⟩, hlast⟩)] at hsplit
      rcases cons_cases (.text as) (split ('{' :: c :: bs)) with
        ⟨_, us, after, -, hs, -⟩ | ⟨hcons, -⟩
      · exact ⟨us, after, hs⟩
      · have hnil := (List.cons.inj (hcons.symm.trans hsplit)).2
        cases eq_nil_of_split hnil
  obtain ⟨us, after, htext⟩ := htext
  obtain ⟨us, rest, hfirst⟩ := first_text_of_split htext
  obtain ⟨o, ho, hprefix⟩ := stray_of_first hc hfirst
  exact ⟨o, ho, List.infix_append_of_infix_right hprefix.isInfix⟩

end Stencil.Segment
