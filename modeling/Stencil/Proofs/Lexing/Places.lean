import Stencil.Template.Lexeme

/-!
# Places of tokens

Lexemes tile the characters that they make up, and a token has the place of its lexeme. Main
statements: `exists_of_locate`, by which each token comes from a lexeme whose place is told by the
lexemes before it; `pairwise_locate`, by which the places follow one another; and `exists_lexeme_at`,
by which each byte belongs to a lexeme.
-/

namespace Stencil

open Text

/-- The bytes of a string are those of its characters. -/
theorem Text.byteLength_toList (s : String) : byteLength s.toList = s.utf8ByteSize := by
  suffices h : ∀ cs, byteLength cs = (String.ofList cs).utf8ByteSize by
    rw [h, String.ofList_toList]
  intro cs
  induction cs with
  | nil => rfl
  | cons c cs ih =>
    have hcons : String.ofList (c :: cs) = String.singleton c ++ String.ofList cs := by
      rw [String.singleton_eq_ofList, ← String.ofList_append]
      rfl
    rw [byteLength, ih, hcons, String.utf8ByteSize_append, String.utf8ByteSize_singleton]

/-- The span is the place of the characters `cs` in the source. -/
def Span.Shows (span : Span) (source cs : List Char) : Prop :=
  ∃ before after, source = before ++ cs ++ after ∧
    span = ⟨byteLength before, byteLength before + byteLength cs⟩

namespace Lexeme

/-- The number of bytes that lexemes take. -/
def bytes (ls : List Lexeme) : Nat := byteLength (ls.flatMap chars)

@[simp] theorem bytes_nil : bytes [] = 0 := rfl

@[simp] theorem bytes_cons (l : Lexeme) (ls : List Lexeme) :
    bytes (l :: ls) = byteLength l.chars + bytes ls := by
  simp [bytes]

@[simp] theorem bytes_append (xs ys : List Lexeme) : bytes (xs ++ ys) = bytes xs + bytes ys := by
  simp [bytes]

variable {start i : Nat} {ls xs ys : List Lexeme} {l : Lexeme} {t : Located Token}
  {before after : List (Located Token)}

theorem locate_cons_none (h : l.token? = none) (start : Nat) (ls : List Lexeme) :
    locate start (l :: ls) = locate (start + byteLength l.chars) ls := by
  simp only [locate, h]

theorem locate_cons_some {tok : Token} (h : l.token? = some tok) (start : Nat) (ls : List Lexeme) :
    locate start (l :: ls) =
      ⟨tok, ⟨start, start + byteLength l.chars⟩⟩ :: locate (start + byteLength l.chars) ls := by
  simp only [locate, h]

/-- Lexemes that follow others begin where these end. -/
theorem locate_append (start : Nat) (xs ys : List Lexeme) :
    locate start (xs ++ ys) = locate start xs ++ locate (start + bytes xs) ys := by
  induction xs generalizing start with
  | nil => rfl
  | cons l xs ih =>
    have hstart : start + bytes (l :: xs) = start + byteLength l.chars + bytes xs := by
      rw [bytes_cons, Nat.add_assoc]
    rw [List.cons_append, hstart]
    cases h : l.token? with
    | none => rw [locate_cons_none h, locate_cons_none h, ih]
    | some tok => rw [locate_cons_some h, locate_cons_some h, ih, List.cons_append]

/-- A token comes from a lexeme, the tokens before it from the lexemes before that one, and the tokens
behind it from those behind. -/
theorem exists_of_locate (h : locate start ls = before ++ t :: after) :
    ∃ xs l ys, ls = xs ++ l :: ys ∧ l.token? = some t.item ∧ locate start xs = before ∧
      t.span = ⟨start + bytes xs, start + bytes xs + byteLength l.chars⟩ ∧
      locate (start + bytes xs + byteLength l.chars) ys = after := by
  induction ls generalizing start before with
  | nil => simp [locate] at h
  | cons l ls ih =>
    cases hl : l.token? with
    | none =>
      rw [locate_cons_none hl] at h
      obtain ⟨xs, m, ys, rfl, hm, hbefore, hspan, hafter⟩ := ih h
      refine ⟨l :: xs, m, ys, rfl, hm, (locate_cons_none hl _ _).trans hbefore, ?_, ?_⟩
      · rw [hspan, bytes_cons, Nat.add_assoc start]
      · rw [bytes_cons, ← Nat.add_assoc start, hafter]
    | some tok =>
      rw [locate_cons_some hl] at h
      cases before with
      | nil =>
        obtain ⟨rfl, hafter⟩ := List.cons.inj h
        exact ⟨[], l, ls, rfl, hl, rfl, rfl, hafter⟩
      | cons b before =>
        obtain ⟨rfl, htail⟩ := List.cons.inj h
        obtain ⟨xs, m, ys, rfl, hm, hbefore, hspan, hafter⟩ := ih htail
        refine ⟨l :: xs, m, ys, rfl, hm, ?_, ?_, ?_⟩
        · rw [locate_cons_some hl, hbefore]
        · rw [hspan, bytes_cons, Nat.add_assoc start]
        · rw [bytes_cons, ← Nat.add_assoc start, hafter]

/-- A token lies within the lexemes that it comes from. -/
theorem bounds_of_mem_locate (h : t ∈ locate start ls) :
    start ≤ t.span.start ∧ t.span.start ≤ t.span.stop ∧ t.span.stop ≤ start + bytes ls := by
  obtain ⟨before, after, h⟩ := List.append_of_mem h
  obtain ⟨xs, l, ys, rfl, -, -, hspan, -⟩ := exists_of_locate h
  rw [hspan, bytes_append, bytes_cons]
  dsimp only
  omega

/-- A token ends where the next one begins, or before. -/
theorem pairwise_locate (start : Nat) (ls : List Lexeme) :
    (locate start ls).Pairwise fun t u => t.span.stop ≤ u.span.start := by
  induction ls generalizing start with
  | nil => exact .nil
  | cons l ls ih =>
    cases h : l.token? with
    | none =>
      rw [locate_cons_none h]
      exact ih _
    | some tok =>
      rw [locate_cons_some h]
      exact .cons (fun u hu => (bounds_of_mem_locate hu).1) (ih _)

/-- The token of a lexeme is found at its place. -/
theorem mem_locate {tok : Token} (h : l.token? = some tok) (start : Nat) (xs ys : List Lexeme) :
    ⟨tok, ⟨start + bytes xs, start + bytes xs + byteLength l.chars⟩⟩ ∈
      locate start (xs ++ l :: ys) := by
  rw [locate_append, locate_cons_some h]
  exact List.mem_append_right _ List.mem_cons_self

/-- Each byte belongs to a lexeme. -/
theorem exists_lexeme_at (hstart : start ≤ i) (hi : i < start + bytes ls) :
    ∃ xs l ys, ls = xs ++ l :: ys ∧ start + bytes xs ≤ i ∧
      i < start + bytes xs + byteLength l.chars := by
  induction ls generalizing start with
  | nil =>
    rw [bytes_nil] at hi
    omega
  | cons l ls ih =>
    rw [bytes_cons] at hi
    by_cases hl : i < start + byteLength l.chars
    · exact ⟨[], l, ls, rfl, hstart, hl⟩
    · have hnext : start + byteLength l.chars ≤ i := Nat.le_of_not_lt hl
      have hstop : i < start + byteLength l.chars + bytes ls := by omega
      obtain ⟨xs, m, ys, rfl, hxs, hm⟩ := ih hnext hstop
      refine ⟨l :: xs, m, ys, rfl, ?_, ?_⟩
      · rw [bytes_cons]
        omega
      · rw [bytes_cons]
        omega

/-- A lexeme stands in the source at the place that the lexemes before it leave. -/
theorem shows_of_eq_append {source : List Char} (h : ofSource source = xs ++ l :: ys) :
    Span.Shows ⟨bytes xs, bytes xs + byteLength l.chars⟩ source l.chars := by
  refine ⟨xs.flatMap chars, ys.flatMap chars, ?_, rfl⟩
  rw [← flatMap_chars_ofSource source, h]
  simp

end Lexeme

end Stencil
