import Mathlib.Data.Nat.Digits.Defs
import Stencil.Proofs.Markup.Inverse
import Stencil.Proofs.Reading.Errors
import Stencil.Proofs.Rendering.Literals

/-!
# Templates of a single numeral

A numeral of any length is either printed as the integer that it denotes or refused at its place: no
digit is ever lost. Main statements: `isCanonical_iff`, by which the text of an integer is the only
numeral for it without needless characters, `tokenize_numeral`, on the places of the tokens of the
template, and `integers_never_wrap`.
-/

namespace Stencil

open Text

/-! ### Numerals and integers -/

/-- The number that decimal digits denote: the sum of the digits, each times the power of ten that
belongs to its place. -/
def digitsValue (cs : List Char) : Nat :=
  Nat.ofDigits 10 (cs.reverse.map fun c => c.toNat - '0'.toNat)

/-- The integer that a numeral denotes. -/
def numeralValue : List Char → Int
  | '-' :: cs => -(digitsValue cs : Int)
  | cs => digitsValue cs

/-- A numeral without needless characters: there is no zero in front of other digits, and no minus sign
in front of zero. -/
inductive IsCanonical : List Char → Prop
  | zero : IsCanonical ['0']
  | digits {c : Char} {cs : List Char} (hc : c.isDigit = true) (hne : c ≠ '0')
      (hcs : ∀ d ∈ cs, d.isDigit = true) : IsCanonical (c :: cs)
  | minus {c : Char} {cs : List Char} (hc : c.isDigit = true) (hne : c ≠ '0')
      (hcs : ∀ d ∈ cs, d.isDigit = true) : IsCanonical ('-' :: c :: cs)

section Values

variable {c : Char} {cs : List Char} {n : Int}

/-- Reading digits from the left gives the number that they denote. -/
theorem natOfDigits_eq_digitsValue (cs : List Char) : Lexeme.natOfDigits cs = digitsValue cs := by
  rw [digitsValue, Nat.ofDigits_eq_foldr, List.foldr_map, List.foldr_reverse]
  show cs.foldl (fun n c => 10 * n + (c.toNat - 48)) 0 =
    cs.foldl (fun n c => (c.toNat - 48) + 10 * n) 0
  simp only [Nat.add_comm]

/-- A numeral that begins with a digit has no sign. -/
theorem numeralValue_of_ne_minus (hc : c ≠ '-') (cs : List Char) :
    numeralValue (c :: cs) = digitsValue (c :: cs) := by
  rw [numeralValue]
  rintro ds ⟨⟩
  exact hc rfl

/-- The integer that is read from a numeral is the one that it denotes. -/
theorem intOfChars_eq_numeralValue (cs : List Char) : Lexeme.intOfChars cs = numeralValue cs := by
  cases cs with
  | nil => rfl
  | cons c cs =>
    by_cases hc : c = '-'
    · rw [hc, numeralValue, Lexeme.intOfChars, natOfDigits_eq_digitsValue]
    · rw [numeralValue_of_ne_minus hc, Lexeme.intOfChars, natOfDigits_eq_digitsValue]
      rintro ds ⟨⟩
      exact hc rfl

/-- A digit is no minus sign. -/
theorem ne_minus_of_isDigit (hc : c.isDigit = true) : c ≠ '-' := by
  rintro rfl
  cases hc

/-- A digit is the only one of its value. -/
theorem toDigits_of_isDigit (hc : c.isDigit = true) :
    c.toNat - 48 < 10 ∧ Nat.toDigits 10 (c.toNat - 48) = [c] := by
  obtain ⟨hlow, hhigh⟩ : 48 ≤ c.toNat ∧ c.toNat ≤ 57 := Char.isDigit_iff_toNat.1 hc
  have hlt : c.toNat - 48 < 10 := by omega
  have hsame : (Nat.digitChar (c.toNat - 48)).toNat = c.toNat := by
    rw [Nat.toNat_digitChar_of_lt_ten hlt]
    omega
  exact ⟨hlt, by rw [Nat.toDigits_of_lt_base hlt, Char.toNat_inj.1 hsame]⟩

/-- More digits behind those of a positive number are digits of the number that is read. -/
theorem toDigits_foldl {m : Nat} (hm : 0 < m) (hcs : ∀ d ∈ cs, d.isDigit = true) :
    Nat.toDigits 10 (cs.foldl (fun n d => 10 * n + (d.toNat - 48)) m) = Nat.toDigits 10 m ++ cs := by
  induction cs generalizing m with
  | nil => rw [List.foldl_nil, List.append_nil]
  | cons d cs ih =>
    rw [List.forall_mem_cons] at hcs
    obtain ⟨hlt, hd⟩ := toDigits_of_isDigit hcs.1
    calc Nat.toDigits 10 (cs.foldl _ (10 * m + (d.toNat - 48)))
        = Nat.toDigits 10 (10 * m + (d.toNat - 48)) ++ cs := ih (by omega) hcs.2
      _ = Nat.toDigits 10 m ++ [d] ++ cs := by
          rw [← Nat.toDigits_append_toDigits (by decide) hm hlt, hd]
      _ = Nat.toDigits 10 m ++ d :: cs := (List.append_cons _ _ _).symm

/-- Digits without a zero in front are those of the number that they denote, which is positive. -/
theorem toDigits_digitsValue (hc : c.isDigit = true) (hne : c ≠ '0')
    (hcs : ∀ d ∈ cs, d.isDigit = true) :
    0 < digitsValue (c :: cs) ∧ Nat.toDigits 10 (digitsValue (c :: cs)) = c :: cs := by
  obtain ⟨-, hdigit⟩ := toDigits_of_isDigit hc
  have hpos : 0 < c.toNat - 48 := by
    refine Nat.pos_of_ne_zero fun hzero => hne ?_
    rw [hzero] at hdigit
    exact (List.cons.inj hdigit).1.symm
  have hvalue : digitsValue (c :: cs) =
      cs.foldl (fun n d => 10 * n + (d.toNat - 48)) (c.toNat - 48) := by
    rw [← natOfDigits_eq_digitsValue, Lexeme.natOfDigits, List.foldl_cons, Nat.mul_zero,
      Nat.zero_add]
  have hdigits : Nat.toDigits 10 (digitsValue (c :: cs)) = c :: cs := by
    rw [hvalue, toDigits_foldl hpos hcs, hdigit]
    rfl
  refine ⟨Nat.pos_of_ne_zero fun hzero => hne ?_, hdigits⟩
  rw [hzero] at hdigits
  exact (List.cons.inj hdigits).1.symm

/-- The digits of a positive number do not begin with a zero. -/
theorem exists_leading_digit {m : Nat} (hm : 0 < m) :
    ∃ c cs, Nat.toDigits 10 m = c :: cs ∧ c.isDigit = true ∧ c ≠ '0' ∧
      ∀ d ∈ cs, d.isDigit = true := by
  have hne : (Nat.toDigits 10 m).head? ≠ some '0' := by
    induction m using Nat.strongRecOn with
    | _ m ih =>
      by_cases hlt : m < 10
      · have hchar := Nat.toNat_digitChar_of_lt_ten hlt
        rw [Nat.toDigits_of_lt_base hlt, List.head?_cons, Ne, Option.some.injEq]
        intro hzero
        rw [hzero] at hchar
        have hzero : 48 = 48 + m := hchar
        omega
      · -- The digits in front of the last one are those of the number without it.
        have hfront := ih (m / 10) (by omega) (by omega)
        obtain ⟨c, cs, hdigits, -⟩ := exists_digits (m / 10)
        rw [hdigits] at hfront
        rwa [Nat.toDigits_of_base_le (by decide) (Nat.le_of_not_lt hlt), hdigits]
  obtain ⟨c, cs, hdigits, hc, hcs⟩ := exists_digits m
  rw [hdigits, List.head?_cons, Ne, Option.some.injEq] at hne
  exact ⟨c, cs, hdigits, hc, hne, hcs⟩

/-- The text of a number without a sign. -/
theorem toList_toString_natCast (m : Nat) : (toString (m : Int)).toList = Nat.toDigits 10 m := by
  rw [toList_toString_int, if_pos (Int.natCast_nonneg m), Int.toNat_natCast]

/-- The text of a number with a minus sign. -/
theorem toList_toString_neg {m : Nat} (hm : 0 < m) :
    (toString (-(m : Int))).toList = '-' :: Nat.toDigits 10 m := by
  rw [toList_toString_int, if_neg (by omega), Int.neg_neg, Int.toNat_natCast]

/-- A canonical numeral is the text of the integer that it denotes. -/
theorem IsCanonical.eq_toString (h : IsCanonical cs) : (toString (numeralValue cs)).toList = cs := by
  cases h with
  | zero => decide
  | digits hc hne hcs =>
    rw [numeralValue_of_ne_minus (ne_minus_of_isDigit hc), toList_toString_natCast,
      (toDigits_digitsValue hc hne hcs).2]
  | minus hc hne hcs =>
    obtain ⟨hpos, hdigits⟩ := toDigits_digitsValue hc hne hcs
    rw [numeralValue, toList_toString_neg hpos, hdigits]

/-- The text of an integer is a canonical numeral that denotes the integer. -/
theorem isCanonical_toString (n : Int) :
    IsCanonical (toString n).toList ∧ numeralValue (toString n).toList = n := by
  have hvalue : ∀ m, digitsValue (Nat.toDigits 10 m) = m := fun m => by
    rw [← natOfDigits_eq_digitsValue, natOfDigits_toDigits]
  -- A sign stands in front of the negative integers only, and zero alone begins with a zero.
  rcases Int.lt_trichotomy n 0 with hn | rfl | hn
  · obtain ⟨m, rfl⟩ : ∃ m : Nat, n = -(m : Int) := ⟨(-n).toNat, by omega⟩
    have hm : 0 < m := by omega
    obtain ⟨c, cs, hdigits, hc, hne, hcs⟩ := exists_leading_digit hm
    rw [toList_toString_neg hm, numeralValue, hvalue, hdigits]
    exact ⟨.minus hc hne hcs, rfl⟩
  · exact ⟨.zero, rfl⟩
  · obtain ⟨m, rfl⟩ : ∃ m : Nat, n = m := ⟨n.toNat, by omega⟩
    obtain ⟨c, cs, hdigits, hc, hne, hcs⟩ := exists_leading_digit (m := m) (by omega)
    rw [toList_toString_natCast, hdigits, numeralValue_of_ne_minus (ne_minus_of_isDigit hc),
      ← hdigits, hvalue, hdigits]
    exact ⟨.digits hc hne hcs, rfl⟩

/-- The text of an integer is the only canonical numeral that denotes it. -/
theorem isCanonical_iff : IsCanonical cs ∧ numeralValue cs = n ↔ cs = (toString n).toList := by
  constructor
  · rintro ⟨h, rfl⟩
    exact h.eq_toString.symm
  · rintro rfl
    exact isCanonical_toString n

/-- A numeral holds nothing that is escaped. -/
theorem IsCanonical.isPlain (h : IsCanonical cs) : ∀ d ∈ cs, isPlain d = true := by
  have hdigit : ∀ d : Char, d.isDigit = true → Stencil.isPlain d = true := by
    intro d hd
    simp only [Stencil.isPlain, Bool.and_eq_true, decide_eq_true_eq]
    refine ⟨⟨⟨⟨?_, ?_⟩, ?_⟩, ?_⟩, ?_⟩
    all_goals
      rintro rfl
      cases hd
  cases h with
  | zero => exact List.forall_mem_singleton.2 rfl
  | digits hc _ hcs => exact List.forall_mem_cons.2 ⟨hdigit _ hc, fun d hd => hdigit d (hcs d hd)⟩
  | minus hc _ hcs =>
    refine List.forall_mem_cons.2 ⟨rfl, List.forall_mem_cons.2 ⟨hdigit _ hc, fun d hd => ?_⟩⟩
    exact hdigit d (hcs d hd)

/-- The text of an integer is written as it stands. -/
theorem ofText_intText (n : Int) : Markup.ofText (intText n) = ⟨toString n⟩ := by
  rw [Markup.ofText, intText, escape_of_isPlain (isCanonical_toString n).1.isPlain]

end Values

/-! ### The template of a numeral -/

section Template

variable {cs : List Char} {literal : String}

/-- The lexemes of a numeral between blanks. -/
theorem IsNumeral.ofTagBody (h : IsNumeral cs) :
    Lexeme.ofTagBody (' ' :: cs ++ [' ']) =
      [⟨none, [' ']⟩, ⟨some (Lexeme.number cs), cs⟩, ⟨none, [' ']⟩] := by
  obtain ⟨c, ds, rfl, hsep, hfirst⟩ := h.exists_first endsWord_blank
  have hblank : Lexeme.first ' ' (c :: ds ++ [' ']) = (⟨none, [' ']⟩, c :: ds ++ [' ']) := by
    have hblank : Lexeme.isSeparator ' ' = true := rfl
    have hnone : ¬ Lexeme.isSeparator c = true := by simp [hsep]
    rw [Lexeme.first, if_pos hblank, List.cons_append, List.takeWhile_cons_of_neg hnone,
      List.dropWhile_cons_of_neg hnone]
  have hlast : Lexeme.ofTagBody [' '] = [⟨none, [' ']⟩] := by decide +kernel
  rw [List.cons_append, Lexeme.ofTagBody, hblank, List.cons_append, Lexeme.ofTagBody, hfirst, hlast]

/-- The tokens of the template for a numeral, with their places. -/
theorem tokenize_numeral (h : IsNumeral literal.toList) :
    tokenize (outputTemplate literal) =
      [⟨.outputOpen, ⟨0, 2⟩⟩, ⟨Lexeme.number literal.toList, ⟨3, 3 + literal.utf8ByteSize⟩⟩,
        ⟨.tagClose, ⟨3 + literal.utf8ByteSize + 1, 3 + literal.utf8ByteSize + 3⟩⟩] := by
  have hsplit := split_around (h.quiet TagForm.output.mark_mem) []
  rw [List.append_nil, Segment.split_nil] at hsplit
  -- Two bytes open the tag and one is the blank, so that the numeral begins with the fourth.
  have hopen : byteLength TagForm.output.opener = 2 := rfl
  have hblank : byteLength [' '] = 1 := rfl
  have hclose : byteLength TagForm.output.closer = 2 := rfl
  rw [tokenize, Lexeme.ofSource, toList_outputTemplate, hsplit, List.flatMap_singleton,
    Lexeme.ofSegment, h.ofTagBody, ← byteLength_toList]
  simp only [List.cons_append, List.nil_append, Lexeme.locate, Lexeme.openToken, hopen, hblank,
    hclose]

/-- An integer fits in a word if it lies between the bounds of a word. -/
theorem holdsInt_iff {n : Int} : Word.holdsInt n = true ↔ -2 ^ 63 ≤ n ∧ n ≤ 2 ^ 63 - 1 := by
  rw [Word.holdsInt, Bool.and_eq_true, decide_eq_true_eq, decide_eq_true_eq]
  omega

/-- A numeral for an integer that fits in a word is printed as that integer. -/
theorem compileHtml_numeral (h : IsNumeral literal.toList)
    (hword : Word.holdsInt (numeralValue literal.toList) = true) :
    Handler.compileHtml (outputTemplate literal) =
      .ok fun _ => .ok ⟨toString (numeralValue literal.toList)⟩ := by
  rw [← intOfChars_eq_numeralValue] at hword ⊢
  have hprinted := (IsLiteral.numeral h hword).compiles (v := .int _) fun _ => rfl
  rwa [String.ofList_toList, Value.text, ofText_intText] at hprinted

/-- A numeral for an integer that does not fit in a word is refused where it stands. -/
theorem compileHtml_numeral_eq_error (h : IsNumeral literal.toList)
    (hword : ¬ Word.holdsInt (numeralValue literal.toList) = true) :
    ∃ e, Handler.compileHtml (outputTemplate literal) =
        .error (.malformed "" (outputTemplate literal) e) ∧
      e.found = some (.unknown literal) ∧ e.span = ⟨3, 3 + literal.utf8ByteSize⟩ := by
  have hnumber : Lexeme.number literal.toList = .unknown literal := by
    rw [Lexeme.number, intOfChars_eq_numeralValue, if_neg hword, String.ofList_toList]
  have htokens := tokenize_numeral h
  rw [hnumber] at htokens
  -- Behind the opening of the tag an expression is expected, which no unknown token begins.
  have hrun : Grammar.Progress.run .start [⟨.outputOpen, ⟨0, 2⟩⟩] = some ⟨[], .expression⟩ := rfl
  obtain ⟨e, hparse, hspan, hfound⟩ := SyntaxError.exists_parse_eq_error htokens hrun rfl
  refine ⟨e, ?_, hfound, hspan⟩
  simp only [Handler.compileHtml, hparse]

end Template

/-- A numeral of any length between double braces compiles exactly if the integer that it denotes lies
between the bounds of a word. Then it is printed, in every scope, as the one canonical numeral that
denotes that integer; else there is one syntax error, whose place is that of the numeral. -/
theorem integers_never_wrap {literal : String} (h : IsNumeral literal.toList) (kind : String) :
    ((∃ routine, Handler.html.call ⟨outputTemplate literal, kind⟩ = .ok routine) ↔
      -2 ^ 63 ≤ numeralValue literal.toList ∧ numeralValue literal.toList ≤ 2 ^ 63 - 1) ∧
    (∀ routine, Handler.html.call ⟨outputTemplate literal, kind⟩ = .ok routine →
      ∀ scope, ∃ shown, routine scope = .ok ⟨shown⟩ ∧ ∀ cs,
        IsCanonical cs ∧ numeralValue cs = numeralValue literal.toList ↔ cs = shown.toList) ∧
    (¬ (-2 ^ 63 ≤ numeralValue literal.toList ∧ numeralValue literal.toList ≤ 2 ^ 63 - 1) →
      ∃ e, Handler.html.call ⟨outputTemplate literal, kind⟩ =
          .error (.malformed "" (outputTemplate literal) e) ∧
        e.found = some (.unknown literal) ∧ e.span = ⟨3, 3 + literal.utf8ByteSize⟩ ∧
        e.span.Shows (outputTemplate literal).toList literal.toList) := by
  have hcall : Handler.html.call ⟨outputTemplate literal, kind⟩ =
      Handler.compileHtml (outputTemplate literal) := rfl
  rw [hcall, ← holdsInt_iff]
  by_cases hword : Word.holdsInt (numeralValue literal.toList) = true
  · have hcompiled := compileHtml_numeral h hword
    refine ⟨⟨fun _ => hword, fun _ => ⟨_, hcompiled⟩⟩, fun routine hroutine scope => ?_,
      fun hnot => absurd hword hnot⟩
    rw [hcompiled] at hroutine
    cases hroutine
    exact ⟨_, rfl, fun cs => isCanonical_iff⟩
  · obtain ⟨e, herror, hfound, hspan⟩ := compileHtml_numeral_eq_error h hword
    have hrefused : ∀ routine, Handler.compileHtml (outputTemplate literal) ≠ .ok routine := by
      intro routine hroutine
      rw [herror] at hroutine
      cases hroutine
    refine ⟨⟨fun ⟨routine, hroutine⟩ => absurd hroutine (hrefused routine), fun hw => absurd hw hword⟩,
      fun routine hroutine => absurd hroutine (hrefused routine), fun _ => ?_⟩
    refine ⟨e, herror, hfound, hspan, ['{', '{', ' '], [' ', '}', '}'], ?_, ?_⟩
    · rw [toList_outputTemplate]
      simp [TagForm.around, TagForm.opener, TagForm.closer]
    · rw [hspan, byteLength_toList]
      rfl

/-- The least integer of a word is printed without the zero in front of it, and the integer behind the
greatest one is refused. -/
theorem integers_never_wrap_at_bounds :
    (∃ routine, Handler.html.call ⟨"\x7b\x7b -09223372036854775808 \x7d\x7d", "html"⟩ = .ok routine ∧
      ∀ scope, routine scope = .ok ⟨"-9223372036854775808"⟩) ∧
    ∃ e, Handler.html.call ⟨"\x7b\x7b 9223372036854775808 \x7d\x7d", "html"⟩ =
        .error (.malformed "" "\x7b\x7b 9223372036854775808 \x7d\x7d" e) ∧
      e.span = ⟨3, 22⟩ := by
  constructor
  · have hchars : "-09223372036854775808".toList = '-' :: '0' :: "9223372036854775808".toList := by
      decide +kernel
    have hnumeral : IsNumeral "-09223372036854775808".toList := by
      rw [hchars]
      exact .minus rfl (List.all_eq_true.1 (by decide +kernel))
    have hvalue : numeralValue "-09223372036854775808".toList = -9223372036854775808 := by
      decide +kernel
    obtain ⟨hcompiles, hprinted, -⟩ := integers_never_wrap hnumeral "html"
    rw [hvalue] at hcompiles hprinted
    obtain ⟨routine, hroutine⟩ := hcompiles.2 (by decide)
    refine ⟨routine, hroutine, fun scope => ?_⟩
    obtain ⟨shown, hshown, hunique⟩ := hprinted routine hroutine scope
    have hleast := (hunique "-9223372036854775808".toList).1 (isCanonical_iff.2 (by decide +kernel))
    rw [hshown, String.toList_inj.1 hleast]
  · have hchars : "9223372036854775808".toList = '9' :: "223372036854775808".toList := by
      decide +kernel
    have hnumeral : IsNumeral "9223372036854775808".toList := by
      rw [hchars]
      exact .digits rfl (List.all_eq_true.1 (by decide +kernel))
    have hvalue : numeralValue "9223372036854775808".toList = 9223372036854775808 := by
      decide +kernel
    obtain ⟨-, -, hrefused⟩ := integers_never_wrap hnumeral "html"
    rw [hvalue] at hrefused
    obtain ⟨e, he, -, hspan, -⟩ := hrefused (by decide)
    exact ⟨e, he, hspan⟩

end Stencil
