import Stencil.Proofs.Printing.Found

/-!
# Segments of joined sources

The lexer finds the same segments in a source when another source is put behind it, but for the last
text, which goes on into the other source. For that nothing may be left open: no tag, no brace that
makes an opening with the first character of the other source, and no opening that is text only
because the source ends (`dangles`). Main statements: `first_brace_append`, on one segment that begins
with a brace, and `split_append`, on all of them.
-/

namespace Stencil

/-- The first characters end with a brace that opens a tag or a comment with the first of the others.
-/
def MeetsAtBrace (cs ds : List Char) : Prop :=
  cs.getLast? = some '{' ∧ ∃ d ∈ ds.head?, d = '{' ∨ d = '%' ∨ d = '#'

namespace Segment

/-- Whether the opening with which the characters begin is text only because they end where they do.
Two braces, or a brace and a percent sign, close nothing until the second character of the closing mark
is there, and three braces are text as long as their tag is not closed. -/
def danglesAt : List Char → Bool
  | ['{', '{', '}'] | ['{', '%', '%'] => true
  | '{' :: '{' :: '{' :: cs => (body '}' cs).2 ∈ [[], ['\\'], ['}']]
  | _ => false

/-- Whether some opening is text only because the source ends where it does. -/
def dangles : List Char → Bool
  | [] => false
  | c :: cs =>
    have := length_first_lt c cs
    danglesAt (c :: cs) || dangles (first c cs).2
termination_by cs => cs.length

/-- Whether a source with the segment is no template: an opening that is never closed, a tag without
a body, or one with a third opening brace in its body. -/
def isFaulty : Segment → Bool
  | .unclosed _ _ | .tag _ [] | .tag .output ('{' :: _) => true
  | _ => false

variable {c d : Char} {cs ds inside rest : List Char} {s : Segment} {xs ys : List Segment}

/-! ### One segment -/

/-- The body of a tag that has stopped before the end of the source stops there whatever follows. -/
theorem body_append_of_ne {mark : Char} (h : body mark cs = (inside, rest)) (hnil : rest ≠ [])
    (hbackslash : rest ≠ ['\\']) (ds : List Char) :
    body mark (cs ++ ds) = (inside, rest ++ ds) := by
  have hcs := append_of_body h
  have hstops := body_stops mark cs
  rw [h] at hstops
  rcases hstops with h | h | ⟨stop, -, more, hrest, hz⟩
  · exact absurd h hnil
  · exact absurd h hbackslash
  · have hrest : rest = stop ++ more := hrest
    rw [← hcs, hrest, List.append_assoc, List.append_assoc]
    exact hz (more ++ ds)

/-- A comment that is closed ends where it does whatever follows. -/
theorem comment?_append (h : comment? cs = some (inside, rest)) (ds : List Char) :
    comment? (cs ++ ds) = some (inside, rest ++ ds) := by
  fun_induction comment? cs generalizing inside with
  | case1 cs =>
    cases h
    rfl
  | case2 c cs hne ih =>
    obtain ⟨p, hp, e⟩ := Option.map_eq_some_iff.1 h
    cases e
    rw [List.cons_append, comment?, ih hp]
    · rfl
    · rintro ds' rfl e
      cases cs with
      | nil => cases hp
      | cons d cs =>
        obtain ⟨rfl, -⟩ := List.cons.inj e
        exact hne cs rfl rfl
  | case3 => cases h

/-- What begins with two characters when something is put behind it does so already, or is one of them
at most. -/
theorem eq_cons_cons_of_append {r : List Char} (h : rest ++ ds = c :: d :: r) :
    rest = [] ∨ rest = [c] ∨ ∃ r', rest = c :: d :: r' := by
  cases rest with
  | nil => exact .inl rfl
  | cons a rest =>
    obtain ⟨rfl, htail⟩ := List.cons.inj h
    cases rest with
    | nil => exact .inr (.inl rfl)
    | cons b rest =>
      obtain ⟨rfl, -⟩ := List.cons.inj htail
      exact .inr (.inr ⟨rest, rfl⟩)

/-- Three braces that three braces close are a tag. -/
theorem afterRawBraces_eq_raw (h : body '}' cs = (inside, '}' :: '}' :: '}' :: rest)) :
    afterRawBraces cs = (.tag .raw inside, rest) := by
  rw [afterRawBraces, h]
  rfl

/-- Three braces that two braces close are a tag with a brace in its body. -/
theorem afterRawBraces_eq_output (h : body '}' cs = (inside, '}' :: '}' :: rest))
    (hr : ∀ r, rest ≠ '}' :: r) : afterRawBraces cs = (.tag .output ('{' :: inside), rest) := by
  unfold afterRawBraces
  rw [h]
  split
  · rename_i e
    cases e
    exact absurd rfl (hr _)
  · rename_i e
    cases e
    rfl
  · rename_i hne e
    cases e
    exact absurd rfl (hne rest)

/-- Two braces that two braces close are a tag. -/
theorem afterBraces_eq_output (h : body '}' cs = (inside, '}' :: '}' :: rest)) :
    afterBraces cs = (.tag .output inside, rest) := by
  rw [afterBraces, h]
  rfl

/-- A brace and a percent sign that the same signs close are a tag. -/
theorem afterPercent_eq_block (h : body '%' cs = (inside, '%' :: '}' :: rest)) :
    afterPercent cs = (.tag .block inside, rest) := by
  rw [afterPercent, h]
  rfl

/-- What follows three braces is found again when something is put behind it. -/
theorem afterRawBraces_append (hd : danglesAt ('{' :: '{' :: '{' :: cs) = false)
    (hs : (afterRawBraces cs).1.isFaulty = false) (ds : List Char) :
    afterRawBraces (cs ++ ds) = ((afterRawBraces cs).1, (afterRawBraces cs).2 ++ ds) := by
  simp only [danglesAt, List.mem_cons, List.not_mem_nil, or_false, decide_eq_false_iff_not,
    not_or] at hd
  obtain ⟨hnil, hbackslash, hbrace⟩ := hd
  have hbody : body '}' (cs ++ ds) = ((body '}' cs).1, (body '}' cs).2 ++ ds) :=
    body_append_of_ne rfl hnil hbackslash ds
  obtain ⟨inside, rest, hparts⟩ : ∃ inside rest, body '}' cs = (inside, rest) := ⟨_, _, rfl⟩
  rw [hparts] at hnil hbackslash hbrace hbody
  -- The tag is closed, or three braces are text in front of something that does not close it.
  by_cases hclose : ∃ r, rest = '}' :: '}' :: r
  · obtain ⟨r, rfl⟩ := hclose
    by_cases hraw : ∃ r', r = '}' :: r'
    · obtain ⟨r', rfl⟩ := hraw
      rw [afterRawBraces_eq_raw hparts]
      exact afterRawBraces_eq_raw hbody
    · rw [afterRawBraces_eq_output hparts fun r' e => hraw ⟨r', e⟩] at hs
      cases hs
  · rw [afterRawBraces_eq_text hparts fun r e => hclose ⟨r, e⟩]
    refine afterRawBraces_eq_text hbody fun r e => ?_
    rcases eq_cons_cons_of_append e with e | e | ⟨r', e⟩
    · exact hnil e
    · exact hbrace e
    · exact hclose ⟨r', e⟩

/-- What does not begin with a closing brace still does not when something is put behind it. -/
theorem append_ne_brace (hnil : rest ≠ []) (hne : ∀ r, rest ≠ '}' :: r) (ds : List Char) :
    ∀ r, rest ++ ds ≠ '}' :: r := by
  cases rest with
  | nil => exact absurd rfl hnil
  | cons e rest =>
    intro r h
    obtain ⟨rfl, -⟩ := List.cons.inj h
    exact hne rest rfl

/-- What follows two braces is found again when something is put behind it. -/
theorem afterBraces_append (hd : cs ≠ ['}']) (hs : (afterBraces cs).1.isFaulty = false)
    (ds : List Char) : afterBraces (cs ++ ds) = ((afterBraces cs).1, (afterBraces cs).2 ++ ds) := by
  unfold afterBraces at hs
  split at hs
  · rename_i inside rest h
    have hbody := body_append_of_ne h (by simp) (by simp) ds
    rw [afterBraces_eq_output h]
    exact afterBraces_eq_output hbody
  · rename_i rest hne h
    obtain rfl := append_of_body h
    rw [List.nil_append] at hd ⊢
    have hr := append_ne_brace (fun hnil => hd (congrArg ('}' :: ·) hnil)) hne ds
    rw [afterBraces_eq_text hne, List.cons_append, afterBraces_eq_text hr]
  · cases hs

/-- What follows a brace and a percent sign is found again when something is put behind it. -/
theorem afterPercent_append (hd : cs ≠ ['%']) (hs : (afterPercent cs).1.isFaulty = false)
    (ds : List Char) :
    afterPercent (cs ++ ds) = ((afterPercent cs).1, (afterPercent cs).2 ++ ds) := by
  unfold afterPercent at hs
  split at hs
  · rename_i inside rest h
    have hbody := body_append_of_ne h (by simp) (by simp) ds
    rw [afterPercent_eq_block h]
    exact afterPercent_eq_block hbody
  · rename_i rest hne h
    obtain rfl := append_of_body h
    rw [List.nil_append] at hd ⊢
    have hr := append_ne_brace (fun hnil => hd (congrArg ('%' :: ·) hnil)) hne ds
    rw [afterPercent_eq_text hne, List.cons_append, afterPercent_eq_text hr]
  · cases hs

/-- What follows a brace and a number sign is found again when something is put behind it. -/
theorem afterHash_append (hs : (afterHash cs).1.isFaulty = false) (ds : List Char) :
    afterHash (cs ++ ds) = ((afterHash cs).1, (afterHash cs).2 ++ ds) := by
  unfold afterHash at hs ⊢
  split at hs
  · rename_i inside rest h
    rw [comment?_append h]
  · cases hs

/-- Two braces open a tag with a body that does not begin with a third one. -/
theorem first_braces (hd : d ≠ '{') (cs : List Char) :
    first '{' ('{' :: d :: cs) = afterBraces (d :: cs) := by
  unfold first
  rw [if_pos rfl]
  split <;> simp_all

/-- What a brace begins is found again when something is put behind it. -/
theorem first_brace_append (hd : danglesAt ('{' :: cs) = false)
    (hs : (first '{' cs).1.isFaulty = false)
    (hds : cs = [] → hasOpener ('{' :: ds.take 1) = false) :
    first '{' (cs ++ ds) = ((first '{' cs).1, (first '{' cs).2 ++ ds) := by
  -- By the second character: a brace, which may be one of two or three, the two signs, or another one.
  cases cs with
  | nil => exact first_brace (hds rfl)
  | cons c cs =>
    by_cases hbrace : c = '{'
    · subst hbrace
      cases cs with
      | nil =>
        have hopen : (first '{' ['{']).1 = .unclosed ['{', '{'] [] := by decide +kernel
        rw [hopen] at hs
        cases hs
      | cons d cs =>
        by_cases hraw : d = '{'
        · subst hraw
          exact afterRawBraces_append hd hs ds
        · rw [first_braces hraw] at hs ⊢
          refine (first_braces hraw (cs ++ ds)).trans (afterBraces_append ?_ hs ds)
          rintro e
          rw [e] at hd
          cases hd
    · by_cases hpercent : c = '%'
      · subst hpercent
        refine afterPercent_append ?_ hs ds
        rintro rfl
        cases hd
      · by_cases hhash : c = '#'
        · subst hhash
          exact afterHash_append hs ds
        · have ho : ∀ es, hasOpener ('{' :: (c :: es).take 1) = false := by
            intro es
            simp [hasOpener, hbrace, hpercent, hhash]
          rw [List.cons_append, first_brace (ho _), first_brace (ho _)]
          rfl

/-! ### All segments -/

/-- Characters other than braces begin the text in front of what follows. -/
theorem split_run_append (hne : cs ≠ []) (hcs : ∀ c ∈ cs, c ≠ '{') (ds : List Char) :
    split (cs ++ ds) = cons (.text cs) (split ds) := by
  induction cs with
  | nil => exact absurd rfl hne
  | cons c cs ih =>
    obtain ⟨hc, hcs⟩ := List.forall_mem_cons.1 hcs
    rw [List.cons_append, split_cons_of_ne hc]
    cases cs with
    | nil => rfl
    | cons d cs => rw [ih (List.cons_ne_nil d cs) hcs, cons_cons_text, List.singleton_append]

/-- A text joins the text behind it even if that goes on in other segments. -/
theorem foldr_cons_cons (s : Segment) (xs ys : List Segment) :
    (cons s xs).foldr cons ys = cons s (xs.foldr cons ys) := by
  rcases cons_cases s xs with ⟨as, bs, after, rfl, rfl, h⟩ | ⟨h, -⟩
  · rw [h, List.foldr_cons, List.foldr_cons, cons_cons_text]
  · rw [h, List.foldr_cons]

/-- Joining texts does not bring about or hide a faulty segment. -/
theorem forall_not_faulty_cons :
    (∀ x ∈ cons s xs, x.isFaulty = false) ↔ s.isFaulty = false ∧ ∀ x ∈ xs, x.isFaulty = false := by
  rcases cons_cases s xs with ⟨as, bs, after, rfl, rfl, h⟩ | ⟨h, -⟩
  · simp [h, isFaulty]
  · rw [h, List.forall_mem_cons]

/-- The segments of a source with another one behind it begin as those of the source do. -/
theorem split_first_append (hd : danglesAt (c :: cs) = false)
    (hs : (first c cs).1.isFaulty = false)
    (hds : cs = [] → hasOpener (c :: ds.take 1) = false) :
    split (c :: cs ++ ds) = cons (first c cs).1 (split ((first c cs).2 ++ ds)) := by
  by_cases hc : c = '{'
  · subst hc
    rw [List.cons_append, split_cons, first_brace_append hd hs hds]
  · have hrun : ∀ x ∈ c :: cs.takeWhile (· ≠ '{'), x ≠ '{' := by
      rw [List.forall_mem_cons]
      exact ⟨hc, fun x hx => by simpa using List.all_eq_true.1 List.all_takeWhile x hx⟩
    have hfirst := first_append c cs
    rw [first_of_ne hc] at hfirst ⊢
    rw [← split_run_append (List.cons_ne_nil _ _) hrun, ← List.append_assoc]
    exact congrArg (fun es => split (es ++ ds)) hfirst.symm

/-- A brace opens nothing with the first of some characters if they do not meet it there. -/
theorem hasOpener_of_not_meets (h : ¬ MeetsAtBrace [c] ds) : hasOpener (c :: ds.take 1) = false := by
  cases ds with
  | nil => simp [hasOpener]
  | cons d ds =>
    by_cases hc : c = '{'
    · subst hc
      simpa [MeetsAtBrace, hasOpener, and_assoc] using h
    · simp [hasOpener, hc]

/-- What a source leaves behind its first segment ends like the source. -/
theorem not_meets_rest (h : ¬ MeetsAtBrace (c :: cs) ds) : ¬ MeetsAtBrace (first c cs).2 ds := by
  rintro ⟨hlast, hhead⟩
  refine h ⟨?_, hhead⟩
  rw [← first_append c cs, List.getLast?_append, hlast]
  rfl

/-- The segments of two sources that are put together are those of both, where a text at the end of
the first one joins a text at the beginning of the second. -/
theorem split_append (hd : dangles cs = false) (hs : ∀ s ∈ split cs, s.isFaulty = false)
    (hmeet : ¬ MeetsAtBrace cs ds) : split (cs ++ ds) = (split cs).foldr cons (split ds) := by
  fun_induction dangles cs with
  | case1 => rw [split_nil, List.nil_append, List.foldr_nil]
  | case2 c cs _ ih =>
    obtain ⟨hat, hlater⟩ := Bool.or_eq_false_iff.1 hd
    rw [split_cons, forall_not_faulty_cons] at hs
    have hopen : cs = [] → hasOpener (c :: ds.take 1) = false := by
      rintro rfl
      exact hasOpener_of_not_meets hmeet
    rw [split_first_append hat hs.1 hopen, ih hlater hs.2 (not_meets_rest hmeet), split_cons,
      foldr_cons_cons]

end Segment

end Stencil
