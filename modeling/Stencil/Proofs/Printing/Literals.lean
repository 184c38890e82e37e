import Stencil.Proofs.Scanning.Pieces

/-!
# Literals

A string can be written between either quotes and with characters escaped that need not be, and an
integer with zeros in front. Main statements: `IsLiteral.tagTokens_append`, by which each of these forms
is read as what it stands for, and `IsLiteral.quiet`, by which none of them closes a tag.
-/

namespace Stencil

/-- Decimal digits behind an optional minus sign. -/
inductive IsNumeral : List Char → Prop
  | digits {c : Char} {cs : List Char} (hc : c.isDigit = true) (hcs : ∀ d ∈ cs, d.isDigit = true) :
      IsNumeral (c :: cs)
  | minus {c : Char} {cs : List Char} (hc : c.isDigit = true) (hcs : ∀ d ∈ cs, d.isDigit = true) :
      IsNumeral ('-' :: c :: cs)

/-- The written forms of a literal: what can stand between two quotes, and a numeral for an integer
that fits in a word. -/
inductive IsLiteral : List Char → Operand → Prop
  | string {q : Char} {inside : List Char} (hq : Segment.isQuote q = true)
      (h : Quoted.Enclosed q inside) :
      IsLiteral (q :: inside ++ [q]) (.str (String.ofList (Quoted.decode inside)))
  | numeral {cs : List Char} (h : IsNumeral cs) (hword : Word.holdsInt (Lexeme.intOfChars cs) = true) :
      IsLiteral cs (.int (Lexeme.intOfChars cs))

variable {mark q : Char} {cs inside rest : List Char} {o : Operand}

/-- A numeral is a lexeme as a whole. -/
theorem IsNumeral.exists_first (h : IsNumeral cs) (hr : EndsWord rest) :
    ∃ c ds, cs = c :: ds ∧ Lexeme.isSeparator c = false ∧
      Lexeme.first c (ds ++ rest) = (⟨some (Lexeme.number cs), cs⟩, rest) := by
  cases h with
  | digits hc hcs =>
    exact ⟨_, _, rfl, isSeparator_eq_false (.inl (isIdentPart_of_isDigit hc)),
      first_number (.inl hc) hcs hr⟩
  | minus hc hcs =>
    exact ⟨_, _, rfl, rfl,
      first_number (.inr ⟨rfl, List.cons_ne_nil _ _⟩) (List.forall_mem_cons.2 ⟨hc, hcs⟩) hr⟩

/-- A numeral is read as a whole. -/
theorem IsNumeral.tagTokens_append (h : IsNumeral cs) (hr : EndsWord rest) :
    tagTokens (cs ++ rest) = Lexeme.number cs :: tagTokens rest := by
  obtain ⟨c, ds, rfl, -, hfirst⟩ := h.exists_first hr
  rw [List.cons_append, tagTokens_cons, hfirst]
  rfl

/-- Digits close no tag. -/
theorem quiet_digits (hm : mark ∈ ['}', '%']) (h : ∀ d ∈ cs, d.isDigit = true) : Quiet mark cs :=
  quiet_word hm fun d hd => isIdentPart_of_isDigit (h d hd)

/-- A numeral closes no tag. -/
theorem IsNumeral.quiet (h : IsNumeral cs) (hm : mark ∈ ['}', '%']) : Quiet mark cs := by
  cases h with
  | digits hc hcs => exact quiet_digits hm (List.forall_mem_cons.2 ⟨hc, hcs⟩)
  | minus hc hcs =>
    exact (quiet_sign hm (by decide)).append (quiet_digits hm (List.forall_mem_cons.2 ⟨hc, hcs⟩))

/-- A string is read as a whole, whichever quotes it stands between. -/
theorem tagTokens_enclosed (hq : Segment.isQuote q = true) (h : Quoted.Enclosed q inside)
    (rest : List Char) :
    tagTokens (q :: inside ++ q :: rest) =
      .str (String.ofList (Quoted.decode inside)) :: tagTokens rest := by
  have hbody : Quoted.body? q (inside ++ q :: rest) = some (inside, rest) := by
    simp [Quoted.body?, h.run_append (ne_backslash_of_isQuote hq)]
  have hfirst : Lexeme.first q (inside ++ q :: rest) =
      (⟨some (.str (String.ofList (Quoted.decode inside))), q :: inside ++ [q]⟩, rest) := by
    have hq' := hq
    simp only [Segment.isQuote, Bool.or_eq_true, decide_eq_true_eq] at hq'
    unfold Lexeme.first
    -- A quote is none of the characters for which the lexer looks before.
    rcases hq' with rfl | rfl
    · rw [if_neg (by decide), if_neg (by decide), if_neg (by simp), if_pos hq, hbody]
    · rw [if_neg (by decide), if_neg (by decide), if_neg (by simp), if_pos hq, hbody]
  rw [List.cons_append, tagTokens_cons, hfirst]
  rfl

/-- A string closes no tag. -/
theorem quiet_enclosed (hm : mark ∈ ['}', '%']) (hq : Segment.isQuote q = true)
    (h : Quoted.Enclosed q inside) : Quiet mark (q :: inside ++ [q]) := by
  intro z
  have hne : q ≠ mark := by
    rintro rfl
    simp only [List.mem_cons, List.not_mem_nil, or_false] at hm
    rcases hm with rfl | rfl
    · cases hq
    · cases hq
  have happend : q :: inside ++ [q] ++ z = q :: (inside ++ q :: z) := by simp
  rw [happend, body_quote hne hq (h.run_append (ne_backslash_of_isQuote hq) z)]
  simp

/-- A literal is read as what it stands for. -/
theorem IsLiteral.tagTokens_append (h : IsLiteral cs o) (hr : EndsWord rest) :
    tagTokens (cs ++ rest) = o.tokens ++ tagTokens rest := by
  cases h with
  | string hq h =>
    rw [List.append_assoc]
    exact tagTokens_enclosed hq h rest
  | numeral h hword =>
    rw [h.tagTokens_append hr, Lexeme.number, if_pos hword]
    rfl

/-- A literal closes no tag. -/
theorem IsLiteral.quiet (h : IsLiteral cs o) (hm : mark ∈ ['}', '%']) : Quiet mark cs := by
  cases h with
  | string hq h => exact quiet_enclosed hm hq h
  | numeral h _ => exact h.quiet hm

end Stencil
