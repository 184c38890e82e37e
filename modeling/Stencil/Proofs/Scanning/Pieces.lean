import Stencil.Proofs.Printing.Sources

/-!
# What the search for the end of a tag steps over

On the way to the mark that ends a tag the lexer takes strings as a whole and anything else character
by character. Main statements: `isBody_of_first`, by which the body of a tag is made of such pieces, and
`steps_flatMap_append`, by which it is in one way only.
-/

namespace Stencil

namespace Quoted

/-- What can stand between two quotes `q`: neither such a quote nor a backslash, except that a backslash
takes the character behind it along if that is no line feed. -/
inductive Enclosed (q : Char) : List Char → Prop where
  | nil : Enclosed q []
  | char {c : Char} {cs : List Char} (hq : c ≠ q) (hb : c ≠ '\\') (h : Enclosed q cs) :
      Enclosed q (c :: cs)
  | escaped {c : Char} {cs : List Char} (hc : c ≠ '\n') (h : Enclosed q cs) :
      Enclosed q ('\\' :: c :: cs)

/-- Whether decoding ends at a backslash that has no character to take along. -/
def dangles : List Char → Bool
  | '\\' :: _ :: cs => dangles cs
  | ['\\'] => true
  | _ :: cs => dangles cs
  | [] => false

variable {q : Char} {cs inside rest : List Char}

/-- A character that is no backslash is taken alone. -/
theorem dangles_cons {c : Char} (hc : c ≠ '\\') (cs : List Char) :
    dangles (c :: cs) = dangles cs := by
  rw [dangles]
  · rintro d ds rfl
    exact absurd rfl hc
  · rintro rfl
    exact absurd rfl hc

/-- Between quotes every backslash has a character to take along. -/
theorem Enclosed.not_dangles (h : Enclosed q inside) : dangles inside = false := by
  induction h with
  | nil => rfl
  | char _ hb _ ih => rw [dangles_cons hb, ih]
  | escaped _ _ ih => exact ih

/-- A run takes nothing but what can stand between quotes. -/
theorem enclosed_run (q : Char) (cs : List Char) : Enclosed q (run q cs).1 := by
  fun_induction run q cs with
  | case1 | case2 | case4 | case5 => exact .nil
  | case3 c cs hc body rest e ih =>
    rw [e] at ih
    exact .escaped hc ih
  | case6 c cs h₁ h₂ hc body rest e ih =>
    have hb : c ≠ '\\' := by
      rintro rfl
      cases cs with
      | nil => exact h₂ rfl rfl
      | cons d ds => exact h₁ d ds rfl rfl
    rw [e] at ih
    exact .char hc hb ih

/-- What can stand between quotes runs up to the quote behind it. -/
theorem Enclosed.run_append (h : Enclosed q inside) (hq : q ≠ '\\') (rest : List Char) :
    run q (inside ++ q :: rest) = (inside, q :: rest) := by
  induction h with
  | nil => rw [List.nil_append, run_cons_of_ne hq, if_pos rfl]
  | char hne hb _ ih => rw [List.cons_append, run_cons_of_ne hb, if_neg hne, ih]
  | escaped hc _ ih => simp only [List.cons_append, run, if_neg hc, ih]

end Quoted

/-- A part of the body of a tag: one character, or a whole string. -/
inductive Piece where
  | char (c : Char)
  | string (quote : Char) (inside : List Char)

namespace Piece

/-- The characters of a piece. -/
def chars : Piece → List Char
  | .char c => [c]
  | .string q inside => q :: inside ++ [q]

/-- The piece is stepped over in search of the mark: it is a character other than the mark and the
quotes, or a string that is closed. -/
def Passes (mark : Char) : Piece → Prop
  | .char c => c ≠ mark ∧ Segment.isQuote c = false
  | .string q inside => Segment.isQuote q = true ∧ Quoted.Enclosed q inside

/-- A string and what stands behind it. -/
theorem chars_string_append (q : Char) (inside rest : List Char) :
    (Piece.string q inside).chars ++ rest = q :: (inside ++ q :: rest) := by
  simp [chars]

end Piece

/-- The body of a tag: characters other than the mark, and strings that are closed. -/
def IsBody (mark : Char) (body : List Char) : Prop :=
  ∃ ps : List Piece, (∀ p ∈ ps, p.Passes mark) ∧ body = ps.flatMap Piece.chars

/-- The mark of a tag is no quote. -/
theorem TagForm.isQuote_mark (form : TagForm) : Segment.isQuote form.mark = false := by
  cases form <;> rfl

/-- The empty body. -/
theorem isBody_nil (mark : Char) : IsBody mark [] := ⟨[], List.forall_mem_nil _, rfl⟩

/-- One more character in a body. -/
theorem isBody_cons {mark c : Char} {cs : List Char} (hm : c ≠ mark)
    (hq : Segment.isQuote c = false) (h : IsBody mark cs) : IsBody mark (c :: cs) := by
  obtain ⟨ps, hps, rfl⟩ := h
  exact ⟨.char c :: ps, List.forall_mem_cons.2 ⟨⟨hm, hq⟩, hps⟩, rfl⟩

namespace Segment

/-- The pieces that are stepped over up to the first `mark` outside of strings. The search ends, too, in
front of a string that is not closed. -/
def steps (mark : Char) (cs : List Char) : List Piece :=
  match cs with
  | [] => []
  | c :: cs =>
    if c = mark then []
    else if isQuote c then
      match h : Quoted.run c cs with
      | (inside, q :: rest) =>
        have : rest.length < cs.length + 1 := Quoted.length_lt_of_run h
        if q = c then .string c inside :: steps mark rest else []
      | (_, []) => []
    else .char c :: steps mark cs
termination_by cs.length

variable {mark c : Char} {cs inside rest : List Char} {ps : List Piece}

/-- The search ends at the mark. -/
theorem steps_mark (mark : Char) (cs : List Char) : steps mark (mark :: cs) = [] := by
  rw [steps, if_pos rfl]

/-- A character that is neither the mark nor a quote is a step of its own. -/
theorem steps_cons (hm : c ≠ mark) (hq : isQuote c = false) (cs : List Char) :
    steps mark (c :: cs) = .char c :: steps mark cs := by
  rw [steps, if_neg hm, if_neg (by simp [hq])]

/-- A string that is closed is one step. -/
theorem steps_quote (hm : c ≠ mark) (hq : isQuote c = true)
    (h : Quoted.run c cs = (inside, c :: rest)) :
    steps mark (c :: cs) = .string c inside :: steps mark rest := by
  rw [steps, if_neg hm, if_pos hq]
  split
  · rename_i e
    cases h.symm.trans e
    rw [if_pos rfl]
  · rename_i e
    cases h.symm.trans e

/-- What ends at the mark is a body. -/
theorem isBody_of_body (hmark : mark ≠ '\\') (h : body mark cs = (inside, mark :: rest)) :
    IsBody mark inside := by
  fun_induction body mark cs generalizing inside with
  | case1 => cases h
  | case2 cs =>
    cases h
    exact ⟨[], by simp, rfl⟩
  | case3 cs within c rest' more rest e' hm hq e _ ih =>
    cases h
    obtain ⟨ps, hps, rfl⟩ := ih e'
    have hwithin : Quoted.Enclosed c within := by
      have henclosed := Quoted.enclosed_run c cs
      rwa [e] at henclosed
    refine ⟨.string c within :: ps, List.forall_mem_cons.2 ⟨⟨hq, hwithin⟩, hps⟩, ?_⟩
    rw [List.flatMap_cons, Piece.chars_string_append]
    rfl
  | case4 c cs hm hq within q rest' e hne =>
    -- A string that breaks off does so at a backslash, which is no mark.
    cases h
    have hbreak := run_broken (ne_backslash_of_isQuote hq) hne e
    grind
  | case5 => cases h
  | case6 c cs hm hq more rest' e ih =>
    cases h
    exact isBody_cons hm (by simpa using hq) (ih e)

/-- Pieces in front of the mark are found again as the steps of the search, which ends there. -/
theorem steps_flatMap_append (hmark : isQuote mark = false) (hps : ∀ p ∈ ps, p.Passes mark)
    (rest : List Char) :
    steps mark (ps.flatMap Piece.chars ++ mark :: rest) = ps ∧
      body mark (ps.flatMap Piece.chars ++ mark :: rest) =
        (ps.flatMap Piece.chars, mark :: rest) := by
  induction ps with
  | nil => exact ⟨steps_mark mark rest, by rw [List.flatMap_nil, List.nil_append, body, if_pos rfl]⟩
  | cons p ps ih =>
    obtain ⟨hp, hps⟩ := List.forall_mem_cons.1 hps
    obtain ⟨hsteps, hbody⟩ := ih hps
    rw [List.flatMap_cons, List.append_assoc]
    cases p with
    | char c =>
      rw [Piece.chars, List.singleton_append, steps_cons hp.1 hp.2, hsteps, body_cons hp.1 hp.2,
        hbody]
      exact ⟨rfl, rfl⟩
    | string q inside =>
      obtain ⟨hq, henclosed⟩ := hp
      have hm : q ≠ mark := by
        rintro rfl
        cases hq.symm.trans hmark
      have hrun := henclosed.run_append (ne_backslash_of_isQuote hq)
        (ps.flatMap Piece.chars ++ mark :: rest)
      rw [Piece.chars_string_append, Piece.chars_string_append, steps_quote hm hq hrun, hsteps,
        body_quote hm hq hrun, hbody]
      exact ⟨rfl, rfl⟩

/-- The body of a tag that is a first segment is a body for its mark. -/
theorem isBody_of_first {form : TagForm} (h : first c cs = (.tag form inside, rest)) :
    IsBody form.mark inside := by
  unfold first afterRawBraces afterBraces afterPercent afterHash at h
  repeat' split at h
  all_goals cases h
  · rename_i hbody
    exact isBody_of_body (by decide) hbody
  · -- The third brace is the first piece of the body.
    rename_i hbody
    exact isBody_cons (by decide) rfl (isBody_of_body (by decide) hbody)
  · rename_i hbody
    exact isBody_of_body (by decide) hbody
  · rename_i hbody
    exact isBody_of_body (by decide) hbody

end Segment

end Stencil
