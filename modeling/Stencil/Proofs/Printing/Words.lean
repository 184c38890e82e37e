import Stencil.Proofs.Printing.Stops
import Stencil.Proofs.Printing.Tokens
import Stencil.Template.Printer

/-!
# Printed expressions

The source of an expression, put into a tag, is read as the tokens of the expression. Main
statements: `tagTokens_expr`, on the words of the tag's body, and `quiet_expr`, by which the body of
the tag goes on behind the expression: what could close the tag stands in strings only.
-/

namespace Stencil

/-- The tokens of the body of a tag. -/
def tagTokens (cs : List Char) : List Token :=
  (Lexeme.ofTagBody cs).filterMap (·.token?)

/-- No word goes on with the characters. -/
def EndsWord (cs : List Char) : Prop := ∀ c ∈ cs.head?, Lexeme.isIdentPart c = false

section Words

open Lexeme

variable {c : Char} {cs rest : List Char}

theorem tagTokens_nil : tagTokens [] = [] := by
  rw [tagTokens, ofTagBody]
  rfl

theorem tagTokens_cons (c : Char) (cs : List Char) :
    tagTokens (c :: cs) = (first c cs).1.token?.toList ++ tagTokens (first c cs).2 := by
  rw [tagTokens, ofTagBody]
  cases h : (first c cs).1.token? <;> simp [h, tagTokens]

/-- Blanks in front of a word stand for nothing. -/
theorem tagTokens_dropWhile (cs : List Char) :
    tagTokens (cs.dropWhile isSeparator) = tagTokens cs := by
  cases cs with
  | nil => rfl
  | cons c cs =>
    by_cases hc : isSeparator c = true
    · rw [List.dropWhile_cons_of_pos hc, tagTokens_cons, first, if_pos hc]
      rfl
    · rw [List.dropWhile_cons_of_neg hc]

/-- A blank stands for nothing. -/
theorem tagTokens_blank (cs : List Char) : tagTokens (' ' :: cs) = tagTokens cs := by
  have hc : isSeparator ' ' = true := rfl
  rw [← tagTokens_dropWhile (' ' :: cs), List.dropWhile_cons_of_pos hc, tagTokens_dropWhile]

/-- A sign stands for itself. -/
theorem tagTokens_sign (h : c ∈ ['.', ',', '(', ')']) (cs : List Char) :
    tagTokens (c :: cs) = sign c :: tagTokens cs := by
  have hfirst : first c cs = (single c, cs) := by
    simp only [List.mem_cons, List.not_mem_nil, or_false] at h
    rcases h with rfl | rfl | rfl | rfl
    · rfl
    · rfl
    · rfl
    · rfl
  rw [tagTokens_cons, hfirst]
  rfl

/-- Characters that take part in a word are read up to the end of the word. -/
theorem takeWhile_append_of_endsWord {p : Char → Bool} (hp : ∀ c, p c = true → isIdentPart c = true)
    (hcs : ∀ c ∈ cs, p c = true) (hr : EndsWord rest) :
    (cs ++ rest).takeWhile p = cs ∧ (cs ++ rest).dropWhile p = rest := by
  rw [List.takeWhile_append_of_pos hcs, List.dropWhile_append_of_pos hcs]
  cases rest with
  | nil => simp
  | cons d ds =>
    have hd : p d = false := by
      cases h : p d with
      | false => rfl
      | true => exact absurd (hp d h) (by simp [hr d rfl])
    simp [hd]

/-- The blanks of a tag are the space, the tab, the line feed and the carriage return. -/
theorem isSeparator_iff : isSeparator c = true ↔ c ∈ [' ', '\t', '\n', '\r'] := by
  simp [isSeparator, or_assoc]

/-- What begins a word or a number is no blank. -/
theorem isSeparator_eq_false (h : isIdentPart c = true ∨ c = '-') : isSeparator c = false := by
  cases hs : isSeparator c with
  | false => rfl
  | true =>
    simp only [isSeparator_iff, List.mem_cons, List.not_mem_nil, or_false] at hs
    rcases hs with rfl | rfl | rfl | rfl
    · exact absurd h (by decide)
    · exact absurd h (by decide)
    · exact absurd h (by decide)
    · exact absurd h (by decide)

/-- A character that begins an identifier can go on with one. -/
theorem isIdentPart_of_isIdentStart (h : isIdentStart c = true) : isIdentPart c = true := by
  simp only [isIdentStart, isIdentPart, Char.isAlphanum, Bool.or_eq_true] at h ⊢
  rcases h with h | h
  · exact .inl (.inl h)
  · exact .inr h

/-- A digit can go on with an identifier. -/
theorem isIdentPart_of_isDigit (h : c.isDigit = true) : isIdentPart c = true := by
  simp [isIdentPart, Char.isAlphanum, h]

/-- A word is read as a whole. -/
theorem tagTokens_word (hc : isIdentStart c = true) (hcs : cs.all isIdentPart = true)
    (hr : EndsWord rest) : tagTokens (c :: cs ++ rest) = word (c :: cs) :: tagTokens rest := by
  have hsep := isSeparator_eq_false (.inl (isIdentPart_of_isIdentStart hc))
  obtain ⟨htake, hdrop⟩ :=
    takeWhile_append_of_endsWord (fun _ h => h) (List.all_eq_true.1 hcs) hr
  rw [List.cons_append, tagTokens_cons, first, hsep, if_neg (by simp), if_pos hc]
  simp only [htake, hdrop]
  rfl

/-- An identifier is a word of its own. -/
theorem exists_of_isIdentifier {name : String} (h : isIdentifier name = true) :
    ∃ c cs, name.toList = c :: cs ∧ isIdentStart c = true ∧ cs.all isIdentPart = true ∧
      word (c :: cs) = .ident name := by
  unfold isIdentifier at h
  split at h
  · cases h
  · rename_i c cs e
    simp only [Bool.and_eq_true, beq_iff_eq] at h
    exact ⟨c, cs, e, h.1.1, h.1.2, h.2⟩

/-- An identifier is read as a whole. -/
theorem tagTokens_identifier {name : String} (h : isIdentifier name = true)
    (hr : EndsWord rest) : tagTokens (name.toList ++ rest) = .ident name :: tagTokens rest := by
  obtain ⟨c, cs, e, hc, hcs, hw⟩ := exists_of_isIdentifier h
  rw [e, tagTokens_word hc hcs hr, hw]

/-- A digit begins no identifier. -/
theorem isIdentStart_eq_false (h : c.isDigit = true) : isIdentStart c = false := by
  rw [Char.isDigit_iff_toNat] at h
  have hne : c ≠ '_' := by
    rintro rfl
    exact absurd h (by decide)
  have hnine : c.toNat ≤ 57 := h.2
  have hupper : c.isUpper = false := by
    show decide (c.val ≥ 'A'.val ∧ c.val ≤ 'Z'.val) = false
    rw [decide_eq_false_iff_not]
    rintro ⟨hle, -⟩
    have hletter : 65 ≤ c.toNat := UInt32.le_iff_toNat_le.1 hle
    omega
  have hlower : c.isLower = false := by
    show (decide (c.val ≥ 'a'.val) && decide (c.val ≤ 'z'.val)) = false
    rw [Bool.and_eq_false_imp, decide_eq_true_eq]
    intro hle
    have hletter : 97 ≤ c.toNat := UInt32.le_iff_toNat_le.1 hle
    omega
  show (c.isUpper || c.isLower || decide (c = '_')) = false
  rw [hupper, hlower, decide_eq_false hne]
  rfl

/-- A number is a lexeme as a whole. -/
theorem first_number (hc : c.isDigit = true ∨ c = '-' ∧ cs ≠ [])
    (hcs : ∀ d ∈ cs, d.isDigit = true) (hr : EndsWord rest) :
    first c (cs ++ rest) = (⟨some (number (c :: cs)), c :: cs⟩, rest) := by
  obtain ⟨htake, hdrop⟩ :=
    takeWhile_append_of_endsWord (fun _ h => isIdentPart_of_isDigit h) hcs hr
  have hsep : isSeparator c = false := by
    rcases hc with hc | ⟨rfl, -⟩
    · exact isSeparator_eq_false (.inl (isIdentPart_of_isDigit hc))
    · rfl
  have hstart : isIdentStart c = false := by
    rcases hc with hc | ⟨rfl, -⟩
    · exact isIdentStart_eq_false hc
    · rfl
  have hdigit : (c.isDigit || (c = '-' && ((cs ++ rest).head?.map Char.isDigit).getD false)) =
      true := by
    rcases hc with hc | ⟨rfl, hne⟩
    · rw [hc, Bool.true_or]
    · obtain ⟨d, ds, rfl⟩ := List.exists_cons_of_ne_nil hne
      simp [hcs d List.mem_cons_self]
  -- It is no blank and no word, so that the lexer tries a number.
  rw [first, hsep, if_neg (by simp), hstart, if_neg (by simp), if_pos hdigit]
  simp only [htake, hdrop]

/-- A number is read as a whole. -/
theorem tagTokens_number (hc : c.isDigit = true ∨ c = '-' ∧ cs ≠ [])
    (hcs : ∀ d ∈ cs, d.isDigit = true) (hr : EndsWord rest) :
    tagTokens (c :: cs ++ rest) = number (c :: cs) :: tagTokens rest := by
  rw [List.cons_append, tagTokens_cons, first_number hc hcs hr]
  rfl

/-- The digits of a number denote it. -/
theorem natOfDigits_toDigits (n : Nat) : natOfDigits (Nat.toDigits 10 n) = n :=
  Nat.ofDigitChars_eq_foldl.symm.trans Nat.ofDigitChars_ten_toDigits

/-- The digits of a number, as characters of its source. -/
theorem exists_digits (n : Nat) :
    ∃ c cs, Nat.toDigits 10 n = c :: cs ∧ c.isDigit = true ∧ ∀ d ∈ cs, d.isDigit = true := by
  obtain ⟨c, cs, e⟩ := List.exists_cons_of_ne_nil (Nat.toDigits_ne_nil (n := n) (b := 10))
  have hall : ∀ d ∈ c :: cs, d.isDigit = true := by
    intro d hd
    rw [← e] at hd
    exact Nat.isDigit_of_mem_toDigits (by decide) (by decide) hd
  exact ⟨c, cs, e, hall c List.mem_cons_self, fun d hd => hall d (List.mem_cons_of_mem c hd)⟩

/-- The text of an integer: its digits, behind a minus sign if it is negative. -/
theorem toList_toString_int (n : Int) : (toString n).toList =
    if 0 ≤ n then Nat.toDigits 10 n.toNat else '-' :: Nat.toDigits 10 (-n).toNat := by
  rw [Int.toString_eq_repr, Int.repr_eq_if]
  split
  · exact Nat.toList_repr
  · rw [String.toList_append, Nat.toList_repr]
    rfl

/-- An integer that fits in a word is read as a whole. -/
theorem tagTokens_int {n : Int} (h : Word.holdsInt n = true) (hr : EndsWord rest) :
    tagTokens ((toString n).toList ++ rest) = .int n :: tagTokens rest := by
  rw [toList_toString_int]
  split
  · rename_i hn
    obtain ⟨c, cs, e, hc, hcs⟩ := exists_digits n.toNat
    have hvalue : intOfChars (c :: cs) = n := by
      rw [intOfChars, ← e, natOfDigits_toDigits]
      · exact Int.toNat_of_nonneg hn
      · rintro ds ⟨rfl, -⟩
        cases hc
    rw [e, tagTokens_number (.inl hc) hcs hr, number, hvalue, if_pos h]
  · rename_i hn
    obtain ⟨c, cs, e, hc, hcs⟩ := exists_digits (-n).toNat
    have hvalue : intOfChars ('-' :: c :: cs) = n := by
      rw [intOfChars, ← e, natOfDigits_toDigits]
      omega
    have hall : ∀ d ∈ c :: cs, d.isDigit = true := by
      intro d hd
      rcases List.mem_cons.1 hd with rfl | hd
      · exact hc
      · exact hcs d hd
    rw [e]
    show tagTokens ('-' :: c :: cs ++ rest) = _
    rw [tagTokens_number (.inr ⟨rfl, by simp⟩) hall hr, number, hvalue, if_pos h]

/-- A quoted text is read as a whole. -/
theorem tagTokens_string (s : String) (rest : List Char) :
    tagTokens ('"' :: Quoted.encode s.toList ++ '"' :: rest) = .str s :: tagTokens rest := by
  have hfirst : first '"' (Quoted.encode s.toList ++ '"' :: rest) =
      (⟨some (.str s), '"' :: Quoted.encode s.toList ++ ['"']⟩, rest) := by
    unfold first
    have hquote : Segment.isQuote '"' = true := rfl
    rw [if_neg (by decide), if_neg (by decide), if_neg (by simp), if_pos hquote,
      Quoted.body?_encode]
    simp only [Quoted.decode_encode, String.ofList_toList]
  rw [List.cons_append, tagTokens_cons, hfirst]
  rfl

/-- A sign ends a word. -/
theorem endsWord_cons (h : isIdentPart c = false) (cs : List Char) : EndsWord (c :: cs) := by
  rintro d ⟨⟩
  exact h

/-- Steps are read one by one. -/
theorem tagTokens_steps {names : List String} (h : ∀ name ∈ names, isIdentifier name = true)
    (hr : EndsWord rest) :
    tagTokens ((names.flatMap fun name => '.' :: name.toList) ++ rest) =
      (names.flatMap fun name => [.dot, .ident name]) ++ tagTokens rest := by
  induction names with
  | nil => rfl
  | cons name names ih =>
    have ih := ih fun x hx => h x (List.mem_cons_of_mem name hx)
    have hends : EndsWord ((names.flatMap fun name => '.' :: name.toList) ++ rest) := by
      cases names with
      | nil => exact hr
      | cons x xs => exact endsWord_cons rfl _
    simp only [List.flatMap_cons, List.cons_append, List.append_assoc, List.nil_append]
    rw [tagTokens_sign (by decide), tagTokens_identifier (h name List.mem_cons_self) hends, ih]
    rfl

/-- An operand is read as its tokens. -/
theorem tagTokens_operand {o : Operand} (h : o.WellFormed) (hr : EndsWord rest) :
    tagTokens (o.source ++ rest) = o.tokens ++ tagTokens rest := by
  cases o with
  | path root steps =>
    obtain ⟨hroot, hsteps⟩ := h
    have hends : EndsWord ((steps.flatMap fun name => '.' :: name.toList) ++ rest) := by
      cases steps with
      | nil => exact hr
      | cons x xs => exact endsWord_cons rfl _
    rw [Operand.source, List.append_assoc, tagTokens_identifier hroot hends,
      tagTokens_steps hsteps hr]
    rfl
  | str s =>
    rw [Operand.source, List.append_assoc]
    exact tagTokens_string s rest
  | int n => exact tagTokens_int h hr

/-- Operands are read as their tokens. -/
theorem tagTokens_operands {args : List Operand} (h : ∀ o ∈ args, o.WellFormed)
    (hr : EndsWord rest) :
    tagTokens (Operand.sources args ++ rest) = Operand.listTokens args ++ tagTokens rest := by
  fun_induction Operand.sources args with
  | case1 => rfl
  | case2 o => exact tagTokens_operand (h o List.mem_cons_self) hr
  | case3 o os hne ih =>
    have ih := ih fun x hx => h x (List.mem_cons_of_mem o hx)
    -- A comma ends the operand, and the blank behind it stands for nothing.
    have hends : EndsWord (',' :: ' ' :: (Operand.sources os ++ rest)) := endsWord_cons rfl _
    rw [List.append_assoc, List.cons_append, List.cons_append,
      tagTokens_operand (h o List.mem_cons_self) hends, tagTokens_sign (by decide),
      tagTokens_blank, ih, Operand.listTokens, List.append_assoc]
    · rfl
    · exact hne

/-- An expression is read as its tokens. -/
theorem tagTokens_expr {e : Expr} (h : e.WellFormed) (hr : EndsWord rest) :
    tagTokens (e.source ++ rest) = e.tokens ++ tagTokens rest := by
  cases e with
  | operand o => exact tagTokens_operand h hr
  | call helper args =>
    obtain ⟨hhelper, hargs⟩ := h
    simp only [Expr.source, Expr.tokens, List.append_assoc, List.cons_append, List.nil_append]
    rw [tagTokens_identifier hhelper (endsWord_cons rfl _), tagTokens_sign (by decide),
      tagTokens_operands hargs (endsWord_cons rfl _), tagTokens_sign (by decide)]
    rfl

end Words

/-! ### What does not close a tag -/

/-- Reading the body of a tag goes on behind the characters. -/
def Quiet (mark : Char) (cs : List Char) : Prop :=
  ∀ z, Segment.body mark (cs ++ z) =
    (cs ++ (Segment.body mark z).1, (Segment.body mark z).2)

section Quiet

variable {mark : Char} {as bs : List Char}

theorem quiet_nil : Quiet mark [] := fun _ => rfl

theorem Quiet.append (ha : Quiet mark as) (hb : Quiet mark bs) : Quiet mark (as ++ bs) := by
  intro z
  rw [List.append_assoc, ha, hb, List.append_assoc]

/-- Neither the mark nor a quote is among the characters. -/
theorem quiet_of_forall (h : ∀ c ∈ as, c ≠ mark ∧ Segment.isQuote c = false) : Quiet mark as := by
  induction as with
  | nil => exact quiet_nil
  | cons a as ih =>
    intro z
    obtain ⟨hm, hq⟩ := h a List.mem_cons_self
    rw [List.cons_append, body_cons hm hq, ih fun c hc => h c (List.mem_cons_of_mem a hc)]
    rfl

/-- A quoted text can hold the mark. -/
theorem quiet_string (hm : mark ∈ ['}', '%']) (s : String) :
    Quiet mark ('"' :: Quoted.encode s.toList ++ ['"']) := by
  intro z
  have hne : '"' ≠ mark := by
    rintro rfl
    exact absurd hm (by decide)
  have hrun : Quoted.run '"' (Quoted.encode s.toList ++ '"' :: z) =
      (Quoted.encode s.toList, '"' :: z) := Quoted.run_encode s.toList z
  have happend : '"' :: Quoted.encode s.toList ++ ['"'] ++ z =
      '"' :: (Quoted.encode s.toList ++ '"' :: z) := by simp
  rw [happend, body_quote hne rfl hrun]
  simp

/-- A character of a word is neither a mark nor a quote. -/
theorem ne_mark_of_isIdentPart (hm : mark ∈ ['}', '%']) {c : Char}
    (h : Lexeme.isIdentPart c = true) : c ≠ mark ∧ Segment.isQuote c = false := by
  constructor
  · rintro rfl
    simp only [List.mem_cons, List.not_mem_nil, or_false] at hm
    rcases hm with rfl | rfl
    · exact absurd h (by decide)
    · exact absurd h (by decide)
  · cases hq : Segment.isQuote c with
    | false => rfl
    | true =>
      simp only [Segment.isQuote, Bool.or_eq_true, decide_eq_true_eq] at hq
      rcases hq with rfl | rfl
      · exact absurd h (by decide)
      · exact absurd h (by decide)

/-- A sign of the language, a blank or a minus sign is neither a mark nor a quote. -/
theorem quiet_sign (hm : mark ∈ ['}', '%']) {c : Char} (hc : c ∈ ['.', ',', '(', ')', ' ', '-']) :
    Quiet mark [c] := by
  have hall : ['}', '%'].all (fun m => ['.', ',', '(', ')', ' ', '-'].all fun d =>
      d ≠ m && !Segment.isQuote d) = true := by
    decide
  have h := List.all_eq_true.1 (List.all_eq_true.1 hall mark hm) c hc
  apply quiet_of_forall
  intro d hd
  rw [List.mem_singleton.1 hd]
  simpa using h

/-- A word closes no tag. -/
theorem quiet_word (hm : mark ∈ ['}', '%']) (h : ∀ c ∈ as, Lexeme.isIdentPart c = true) :
    Quiet mark as :=
  quiet_of_forall fun c hc => ne_mark_of_isIdentPart hm (h c hc)

/-- An identifier closes no tag. -/
theorem quiet_identifier (hm : mark ∈ ['}', '%']) {name : String}
    (h : isIdentifier name = true) : Quiet mark name.toList := by
  obtain ⟨c, cs, e, hc, hcs, -⟩ := exists_of_isIdentifier h
  rw [e]
  apply quiet_word hm
  intro d hd
  rcases List.mem_cons.1 hd with rfl | hd
  · exact isIdentPart_of_isIdentStart hc
  · exact List.all_eq_true.1 hcs d hd

/-- An integer closes no tag. -/
theorem quiet_int (hm : mark ∈ ['}', '%']) (n : Int) : Quiet mark (toString n).toList := by
  have hdigits : ∀ m : Nat, Quiet mark (Nat.toDigits 10 m) := fun m =>
    quiet_word hm fun c hc =>
      isIdentPart_of_isDigit (Nat.isDigit_of_mem_toDigits (by decide) (by decide) hc)
  rw [toList_toString_int]
  split
  · exact hdigits _
  · exact (quiet_sign hm (by decide)).append (hdigits _)

/-- Steps close no tag. -/
theorem quiet_steps (hm : mark ∈ ['}', '%']) {names : List String}
    (h : ∀ name ∈ names, isIdentifier name = true) :
    Quiet mark (names.flatMap fun name => '.' :: name.toList) := by
  induction names with
  | nil => exact quiet_nil
  | cons name names ih =>
    have hname := quiet_identifier hm (h name List.mem_cons_self)
    exact ((quiet_sign hm (by decide)).append hname).append
      (ih fun x hx => h x (List.mem_cons_of_mem name hx))

/-- An operand closes no tag. -/
theorem quiet_operand (hm : mark ∈ ['}', '%']) {o : Operand} (h : o.WellFormed) :
    Quiet mark o.source := by
  cases o with
  | path root steps => exact (quiet_identifier hm h.1).append (quiet_steps hm h.2)
  | str s => exact quiet_string hm s
  | int n => exact quiet_int hm n

/-- Operands close no tag. -/
theorem quiet_operands (hm : mark ∈ ['}', '%']) {args : List Operand}
    (h : ∀ o ∈ args, o.WellFormed) : Quiet mark (Operand.sources args) := by
  fun_induction Operand.sources args with
  | case1 => exact quiet_nil
  | case2 o => exact quiet_operand hm (h o List.mem_cons_self)
  | case3 o os _ ih =>
    have hseparator : Quiet mark [',', ' '] :=
      (quiet_sign hm (by decide)).append (quiet_sign hm (by decide))
    exact (quiet_operand hm (h o List.mem_cons_self)).append
      (hseparator.append (ih fun x hx => h x (List.mem_cons_of_mem o hx)))

/-- An expression closes no tag. -/
theorem quiet_expr (hm : mark ∈ ['}', '%']) {e : Expr} (h : e.WellFormed) :
    Quiet mark e.source := by
  cases e with
  | operand o => exact quiet_operand hm h
  | call helper args =>
    have hopen : Quiet mark ['('] := quiet_sign hm (by decide)
    have hclose : Quiet mark [')'] := quiet_sign hm (by decide)
    exact ((quiet_identifier hm h.1).append (hopen.append (quiet_operands hm h.2))).append hclose

end Quiet

end Stencil
