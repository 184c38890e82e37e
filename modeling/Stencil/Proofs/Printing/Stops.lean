import Stencil.Template.Segment

/-!
# Where the body of a tag stops

The lexer finds the end of a tag by reading on from its opening. Main statement: `body_stops`, by
which the place where it stops depends on nothing but one closing mark, or a backslash and a line
feed within a string, unless the source ends there.
-/

namespace Stencil

/-- Reading that has stopped in front of `rest` either came to the end of the source, or stopped at
one of the given marks, and would do so whatever followed the mark. -/
def Stops (read : List Char → List Char × List Char) (marks : List (List Char))
    (inside rest : List Char) : Prop :=
  rest = [] ∨ rest = ['\\'] ∨
    ∃ mark ∈ marks, ∃ more, rest = mark ++ more ∧
      ∀ z, read (inside ++ (mark ++ z)) = (inside, mark ++ z)

/-- A character other than a backslash ends a string or is part of it. -/
theorem run_cons_of_ne {q c : Char} (hc : c ≠ '\\') (cs : List Char) :
    Quoted.run q (c :: cs) =
      if c = q then ([], c :: cs) else (c :: (Quoted.run q cs).1, (Quoted.run q cs).2) := by
  rw [Quoted.run]
  · intro d ds h
    exact absurd h hc
  · intro h
    exact absurd h hc

/-- What stops reading in front of a closing mark: the mark, or a break within a string. -/
def stopMarks (q : Char) : List (List Char) := [[q], ['\\', '\n']]

/-- Where a string stops depends on nothing but what it stops at. -/
theorem run_stops {q : Char} (hq : q ≠ '\\') (cs : List Char) :
    Stops (Quoted.run q) (stopMarks q) (Quoted.run q cs).1 (Quoted.run q cs).2 := by
  fun_induction Quoted.run q cs with
  | case1 => exact .inl rfl
  | case2 cs =>
    refine .inr (.inr ⟨['\\', '\n'], by simp [stopMarks], cs, rfl, fun z => ?_⟩)
    simp [Quoted.run]
  -- A backslash and the character behind it are part of the string.
  | case3 c cs hc body rest e ih =>
    rw [e] at ih
    rcases ih with h | h | ⟨mark, hmark, more, h, hz⟩
    · exact .inl h
    · exact .inr (.inl h)
    · refine .inr (.inr ⟨mark, hmark, more, h, fun z => ?_⟩)
      simp only [List.cons_append, Quoted.run, if_neg hc]
      rw [hz]
  | case4 => exact .inr (.inl rfl)
  | case5 cs =>
    refine .inr (.inr ⟨[q], by simp [stopMarks], cs, rfl, fun z => ?_⟩)
    rw [List.nil_append, List.singleton_append, run_cons_of_ne hq, if_pos rfl]
  | case6 c cs h₁ h₂ hc body rest e ih =>
    have hb : c ≠ '\\' := by
      rintro rfl
      cases cs with
      | nil => exact h₂ rfl rfl
      | cons d ds => exact h₁ d ds rfl rfl
    rw [e] at ih
    rcases ih with h | h | ⟨mark, hmark, more, h, hz⟩
    · exact .inl h
    · exact .inr (.inl h)
    · refine .inr (.inr ⟨mark, hmark, more, h, fun z => ?_⟩)
      rw [List.cons_append, run_cons_of_ne hb, if_neg hc, hz]

section Body

variable {mark c : Char} {cs inside rest : List Char}

/-- A character that is neither the mark nor a quote is part of the body. -/
theorem body_cons (hm : c ≠ mark) (hq : Segment.isQuote c = false) (cs : List Char) :
    Segment.body mark (c :: cs) =
      (c :: (Segment.body mark cs).1, (Segment.body mark cs).2) := by
  rw [Segment.body, if_neg hm, if_neg (by simp [hq])]

/-- A string is part of the body. -/
theorem body_quote (hm : c ≠ mark) (hq : Segment.isQuote c = true)
    (h : Quoted.run c cs = (inside, c :: rest)) :
    Segment.body mark (c :: cs) =
      (c :: inside ++ c :: (Segment.body mark rest).1, (Segment.body mark rest).2) := by
  rw [Segment.body, if_neg hm, if_pos hq]
  split
  · rename_i e
    cases h.symm.trans e
    rw [if_pos rfl]
  · rename_i e
    cases h.symm.trans e

/-- A body ends where a string in it breaks off. -/
theorem body_broken {q : Char} (hm : c ≠ mark) (hq : Segment.isQuote c = true) (hne : q ≠ c)
    (h : Quoted.run c cs = (inside, q :: rest)) :
    Segment.body mark (c :: cs) = (c :: inside, q :: rest) := by
  rw [Segment.body, if_neg hm, if_pos hq]
  split
  · rename_i e
    cases h.symm.trans e
    rw [if_neg hne]
  · rename_i e
    cases h.symm.trans e

/-- No quote is a backslash. -/
theorem ne_backslash_of_isQuote (hq : Segment.isQuote c = true) : c ≠ '\\' := by
  rintro rfl
  cases hq

end Body

/-- A string that is closed ends at its quote, whatever follows. -/
theorem run_closed {q : Char} (hq : q ≠ '\\') {cs inside rest : List Char}
    (h : Quoted.run q cs = (inside, q :: rest)) (z : List Char) :
    Quoted.run q (inside ++ q :: z) = (inside, q :: z) := by
  have hs := run_stops hq cs
  rw [h] at hs
  rcases hs with h | h | ⟨mark, hmark, more, h, hz⟩
  · cases h
  · exact absurd (List.cons.inj h).1 hq
  · simp only [stopMarks, List.mem_cons, List.not_mem_nil, or_false] at hmark
    rcases hmark with rfl | rfl
    · exact hz z
    · exact absurd (List.cons.inj h).1 hq

/-- A string that breaks off does so at a backslash: at the end of the source, or in front of a line
feed, whatever follows. -/
theorem run_broken {q c : Char} (hq : q ≠ '\\') (hc : c ≠ q) {cs inside rest : List Char}
    (h : Quoted.run q cs = (inside, c :: rest)) :
    c :: rest = ['\\'] ∨ (∃ more, c :: rest = '\\' :: '\n' :: more) ∧
      ∀ z, Quoted.run q (inside ++ '\\' :: '\n' :: z) = (inside, '\\' :: '\n' :: z) := by
  have hs := run_stops hq cs
  rw [h] at hs
  rcases hs with h | h | ⟨mark, hmark, more, h, hz⟩
  · cases h
  · exact .inl h
  · simp only [stopMarks, List.mem_cons, List.not_mem_nil, or_false] at hmark
    rcases hmark with rfl | rfl
    · exact absurd (List.cons.inj h).1 hc
    · exact .inr ⟨⟨more, h⟩, hz⟩

/-- Where the body of a tag stops depends on nothing but what it stops at. -/
theorem body_stops (mark : Char) (cs : List Char) :
    Stops (Segment.body mark) (stopMarks mark) (Segment.body mark cs).1
      (Segment.body mark cs).2 := by
  fun_induction Segment.body mark cs with
  | case1 => exact .inl rfl
  | case2 cs =>
    refine .inr (.inr ⟨[mark], by simp [stopMarks], cs, rfl, fun z => ?_⟩)
    rw [List.nil_append, List.singleton_append, Segment.body, if_pos rfl]
  -- A string that is closed is stepped over, and one that breaks off stops the body where it does.
  | case3 cs inside c rest more rest' e' hm hq e _ ih =>
    have hrun := run_closed (ne_backslash_of_isQuote hq) e
    rw [e'] at ih
    rcases ih with h | h | ⟨stop, hstop, tail, h, hz⟩
    · exact .inl h
    · exact .inr (.inl h)
    · refine .inr (.inr ⟨stop, hstop, tail, h, fun z => ?_⟩)
      rw [List.append_assoc, List.cons_append, List.cons_append, body_quote hm hq (hrun _), hz]
  | case4 c cs hm hq inside q rest e hne =>
    rcases run_broken (ne_backslash_of_isQuote hq) hne e with h | ⟨⟨tail, h⟩, hz⟩
    · exact .inr (.inl h)
    · refine .inr (.inr ⟨['\\', '\n'], by simp [stopMarks], tail, h, fun z => ?_⟩)
      exact body_broken hm hq (Ne.symm (ne_backslash_of_isQuote hq)) (hz z)
  | case5 => exact .inl rfl
  | case6 c cs hm hq more rest e ih =>
    rw [e] at ih
    rcases ih with h | h | ⟨stop, hstop, tail, h, hz⟩
    · exact .inl h
    · exact .inr (.inl h)
    · refine .inr (.inr ⟨stop, hstop, tail, h, fun z => ?_⟩)
      rw [List.cons_append, body_cons hm (by simpa using hq), hz]

end Stencil
