import Stencil.Proofs.Joining.Segments

/-!
# Openings that dangle

An opening that is text only because its source ends becomes part of a tag when the right characters
are put behind the source, and no tag that is brought about in this way belongs to a template. Main
statement: `not_forall_of_dangles`, on the tags that such openings become.
-/

namespace Stencil

/-- Characters that open no tag, whatever they are put behind. -/
def OpensNothing (cs : List Char) : Prop := ∀ c ∈ cs, c ≠ '{' ∧ c ≠ '%' ∧ c ≠ '#'

/-- Behind such characters a brace in front of them opens nothing with them. -/
theorem OpensNothing.not_meets {ds : List Char} (h : OpensNothing ds) (cs : List Char) :
    ¬ MeetsAtBrace cs ds := by
  rintro ⟨-, d, hd, hopen⟩
  obtain ⟨hbrace, hpercent, hhash⟩ := h d (List.mem_of_mem_head? hd)
  rcases hopen with rfl | rfl | rfl
  · exact hbrace rfl
  · exact hpercent rfl
  · exact hhash rfl

namespace Segment

variable {c q : Char} {cs ds inside : List Char}

/-! ### Strings that are left open -/

/-- A character that no special case of a string takes is no backslash. -/
theorem ne_backslash_of_cases (h₁ : ∀ d ds, c = '\\' → cs = d :: ds → False)
    (h₂ : c = '\\' → cs = [] → False) : c ≠ '\\' := by
  rintro rfl
  cases cs with
  | nil => exact h₂ rfl rfl
  | cons d ds => exact h₁ d ds rfl rfl

/-- A string that is left open ends at a quote that is put behind it. -/
theorem run_append_quote (hq : q ≠ '\\') (h : (Quoted.run q cs).2 = []) (z : List Char) :
    Quoted.run q (cs ++ q :: z) = (cs, q :: z) := by
  fun_induction Quoted.run q cs with
  | case1 => rw [List.nil_append, run_cons_of_ne hq, if_pos rfl]
  | case2 => cases h
  | case3 c cs hc body rest e ih =>
    rw [e] at ih
    simp only [List.cons_append, Quoted.run, if_neg hc, ih h]
  | case4 => cases h
  | case5 => cases h
  | case6 c cs h₁ h₂ hc body rest e ih =>
    rw [e] at ih
    rw [List.cons_append, run_cons_of_ne (ne_backslash_of_cases h₁ h₂), if_neg hc, ih h]

/-- A string that is left open behind a backslash goes on with another character, and ends at a quote
behind that. -/
theorem run_append_escaped (hq : q ≠ '\\') (h : (Quoted.run q cs).2 = ['\\']) (z : List Char) :
    Quoted.run q (cs ++ 'x' :: q :: z) = (cs ++ ['x'], q :: z) := by
  have hclosed : Quoted.run q (q :: z) = ([], q :: z) := by
    rw [run_cons_of_ne hq, if_pos rfl]
  fun_induction Quoted.run q cs with
  | case1 => cases h
  | case2 => cases h
  | case3 c cs hc body rest e ih =>
    rw [e] at ih
    simp only [List.cons_append, Quoted.run, if_neg hc, ih h]
  | case4 => simp [Quoted.run, hclosed]
  | case5 => exact absurd (List.cons.inj h).1 hq
  | case6 c cs h₁ h₂ hc body rest e ih =>
    rw [e] at ih
    rw [List.cons_append, run_cons_of_ne (ne_backslash_of_cases h₁ h₂), if_neg hc, ih h]
    rfl

/-! ### Openings that are left open -/

/-- A closing brace opens nothing. -/
theorem opensNothing_brace : OpensNothing ['}'] :=
  List.forall_mem_singleton.2 ⟨by decide, by decide, by decide⟩

/-- Two closing braces open nothing. -/
theorem opensNothing_braces : OpensNothing ['}', '}'] :=
  List.forall_mem_cons.2 ⟨⟨by decide, by decide, by decide⟩, opensNothing_brace⟩

/-- A quote opens nothing. -/
theorem opensNothing_cons_quote (hq : isQuote q = true) (h : OpensNothing ds) :
    OpensNothing (q :: ds) := by
  refine List.forall_mem_cons.2 ⟨?_, h⟩
  refine ⟨?_, ?_, ?_⟩
  all_goals
    rintro rfl
    cases hq

/-- The body of a tag that is left open by the end of the source can be closed. -/
theorem exists_closing (h : (body '}' cs).2 = [] ∨ (body '}' cs).2 = ['\\']) :
    ∃ ds inside, OpensNothing ds ∧ body '}' (cs ++ ds) = (inside, ['}', '}']) := by
  have hstop : body '}' ['}', '}'] = ([], ['}', '}']) := by rw [body, if_pos rfl]
  fun_induction body '}' cs with
  | case1 => exact ⟨['}', '}'], [], opensNothing_braces, hstop⟩
  | case2 cs => simp at h
  | case3 cs inside c rest more rest' e' hm hq e _ ih =>
    -- The string is closed, and what is behind it is left open.
    rw [e'] at ih
    obtain ⟨ds, inside', hds, hbody⟩ := ih h
    have hrun := run_closed (ne_backslash_of_isQuote hq) e (rest ++ ds)
    refine ⟨ds, c :: inside ++ c :: inside', hds, ?_⟩
    rw [← Quoted.append_of_run e, List.cons_append, List.append_assoc, List.cons_append,
      body_quote hm hq hrun, hbody]
  | case4 c cs hm hq inside q rest e hne =>
    -- The string breaks off behind a backslash, which takes another character.
    have hbackslash : (Quoted.run c cs).2 = ['\\'] := by
      rw [e]
      simpa using h
    have hrun := run_append_escaped (ne_backslash_of_isQuote hq) hbackslash ['}', '}']
    refine ⟨['x', c, '}', '}'], c :: (cs ++ ['x']) ++ [c], ?_, ?_⟩
    · refine List.forall_mem_cons.2 ⟨by decide, ?_⟩
      exact opensNothing_cons_quote hq opensNothing_braces
    · rw [List.cons_append, body_quote hm hq hrun, hstop]
  | case5 c cs hm hq inside e =>
    have hopen : (Quoted.run c cs).2 = [] := by rw [e]
    have hrun := run_append_quote (ne_backslash_of_isQuote hq) hopen ['}', '}']
    refine ⟨[c, '}', '}'], c :: cs ++ [c], opensNothing_cons_quote hq opensNothing_braces, ?_⟩
    rw [List.cons_append, body_quote hm hq hrun, hstop]
  | case6 c cs hm hq more rest e ih =>
    rw [e] at ih
    obtain ⟨ds, inside', hds, hbody⟩ := ih h
    refine ⟨ds, c :: inside', hds, ?_⟩
    rw [List.cons_append, body_cons hm (by simpa using hq), hbody]

/-- An opening that dangles becomes part of a faulty tag. -/
theorem exists_faulty_of_danglesAt (hd : danglesAt (c :: cs) = true) :
    ∃ ds, OpensNothing ds ∧ (first c (cs ++ ds)).1.isFaulty = true := by
  unfold danglesAt at hd
  split at hd
  · rename_i e
    cases e
    exact ⟨['}'], opensNothing_brace, by decide +kernel⟩
  · rename_i e
    cases e
    exact ⟨['}'], opensNothing_brace, by decide +kernel⟩
  · rename_i es e
    cases e
    simp only [List.mem_cons, List.not_mem_nil, or_false, decide_eq_true_eq, ← or_assoc] at hd
    suffices hclose : ∃ ds inside, OpensNothing ds ∧ body '}' (es ++ ds) = (inside, ['}', '}']) by
      obtain ⟨ds, inside, hds, hbody⟩ := hclose
      refine ⟨ds, hds, ?_⟩
      show (afterRawBraces (es ++ ds)).1.isFaulty = true
      rw [afterRawBraces_eq_output hbody (by simp)]
      rfl
    rcases hd with hopen | hone
    · exact exists_closing hopen
    · refine ⟨['}'], (body '}' es).1, opensNothing_brace, ?_⟩
      have hparts : body '}' es = ((body '}' es).1, ['}']) := Prod.ext rfl hone
      exact body_append_of_ne hparts (by simp) (by simp) ['}']
  · cases hd

/-- Behind a source with an opening that dangles something can be put that makes a faulty tag of it. -/
theorem not_forall_of_dangles (hd : dangles cs = true)
    (hs : ∀ s ∈ split cs, s.isFaulty = false) :
    ∃ ds, OpensNothing ds ∧ ¬ ∀ s ∈ split (cs ++ ds), s.isFaulty = false := by
  fun_induction dangles cs with
  | case1 => cases hd
  | case2 c cs _ ih =>
    rw [split_cons, forall_not_faulty_cons] at hs
    cases hat : danglesAt (c :: cs) with
    | true =>
      obtain ⟨ds, hds, hfault⟩ := exists_faulty_of_danglesAt hat
      refine ⟨ds, hds, fun h => ?_⟩
      rw [List.cons_append, split_cons, forall_not_faulty_cons] at h
      cases hfault.symm.trans h.1
    | false =>
      rw [hat, Bool.false_or] at hd
      obtain ⟨ds, hds, hfault⟩ := ih hd hs.2
      refine ⟨ds, hds, fun h => hfault ?_⟩
      have hopen : cs = [] → hasOpener (c :: ds.take 1) = false := fun _ =>
        hasOpener_of_not_meets (hds.not_meets [c])
      rw [split_first_append hat hs.1 hopen, forall_not_faulty_cons] at h
      exact h.2

end Segment

end Stencil
