import Stencil.Proofs.Printing.Stops
import Stencil.Proofs.Printing.Text

/-!
# Texts that have been found

Besides what opens no tag the lexer takes some openings of tags as text: three braces that are never
closed, and an opening right in front of the character that would close it. Main statement:
`literal_of_split`, by which any text that the lexer has found is read as it stands wherever it is
put, as long as no text follows. If it opens nothing then it is plain (`plainText_of_mem_split`).
-/

namespace Stencil.Segment

variable {c d : Char} {cs as bs more k inside rest : List Char}

/-- Three braces are text with all that is read behind them if two closing braces do not follow. -/
theorem afterRawBraces_eq_text (h : body '}' cs = (inside, rest))
    (hr : ∀ r, rest ≠ '}' :: '}' :: r) :
    afterRawBraces cs = (.text ('{' :: '{' :: '{' :: inside), rest) := by
  unfold afterRawBraces
  rw [h]
  split <;> simp_all

/-- Two braces are text in front of a single closing brace. -/
theorem afterBraces_eq_text (hr : ∀ r, cs ≠ '}' :: r) :
    afterBraces ('}' :: cs) = (.text ['{', '{'], '}' :: cs) := by
  unfold afterBraces
  rw [body, if_pos rfl]
  split
  · rename_i e
    cases e
    exact absurd rfl (hr _)
  · rename_i e
    cases e
    rfl
  · rename_i hne e
    cases e
    exact (hne cs rfl rfl).elim

/-- A brace and a percent sign are text in front of a percent sign that closes nothing. -/
theorem afterPercent_eq_text (hr : ∀ r, cs ≠ '}' :: r) :
    afterPercent ('%' :: cs) = (.text ['{', '%'], '%' :: cs) := by
  unfold afterPercent
  rw [body, if_pos rfl]
  split
  · rename_i e
    cases e
    exact absurd rfl (hr _)
  · rename_i e
    cases e
    rfl
  · rename_i hne e
    cases e
    exact (hne cs rfl rfl).elim

/-- What does not begin with a character still does not when another brace, or the end, comes after
it. -/
theorem append_ne_cons (hd : d ≠ '{') (hk : k = [] ∨ ∃ r, k = '{' :: r)
    (h : ∀ r, bs ++ '{' :: more ≠ d :: r) : ∀ r, bs ++ k ≠ d :: r := by
  cases bs with
  | nil =>
    rcases hk with rfl | ⟨r, rfl⟩
    · simp
    · simpa using Ne.symm hd
  | cons b bs =>
    intro r e
    rw [List.cons_append, List.cons.injEq] at e
    exact h (bs ++ '{' :: more) (by rw [e.1]; rfl)

/-- A run of characters other than braces ends at the next brace, or at the end. -/
theorem first_run (hc : c ≠ '{') (hk : k = [] ∨ ∃ r, k = '{' :: r) :
    first c (cs.takeWhile (· ≠ '{') ++ k) = (.text (c :: cs.takeWhile (· ≠ '{')), k) := by
  have hall : ∀ x ∈ cs.takeWhile (· ≠ '{'), decide (x ≠ '{') = true :=
    List.all_eq_true.1 List.all_takeWhile
  rw [first_of_ne hc, List.takeWhile_append_of_pos hall, List.dropWhile_append_of_pos hall]
  rcases hk with rfl | ⟨r, rfl⟩
  · simp
  · simp

/-- Characters that end in front of a brace at the latest begin the text in front of that brace. -/
theorem eq_append_of_append_eq {stop tail : List Char} (hs : '{' ∉ stop)
    (h : bs ++ '{' :: more = stop ++ tail) : ∃ bs', bs = stop ++ bs' := by
  rcases List.append_eq_append_iff.1 h with ⟨as', rfl, h'⟩ | ⟨bs', rfl, -⟩
  · cases as' with
    | nil => exact ⟨[], by simp⟩
    | cons a as' =>
      rw [List.cons_append, List.cons.injEq] at h'
      exact absurd (h'.1 ▸ List.mem_append_right bs List.mem_cons_self) hs
  · exact ⟨bs', rfl⟩

/-- The body of an output tag stops at no opening brace. -/
theorem brace_not_mem_of_mem_stopMarks {stop : List Char} (h : stop ∈ stopMarks '}') :
    '{' ∉ stop := by
  revert stop
  decide

/-- Three braces that are text are so with another brace, or the end, in place of a brace behind
them. -/
theorem afterRawBraces_congr (h : afterRawBraces cs = (.text as, bs ++ '{' :: more))
    (hk : k = [] ∨ ∃ r, k = '{' :: r) :
    ∃ inside, as = '{' :: '{' :: '{' :: inside ∧
      afterRawBraces (inside ++ (bs ++ k)) = (.text as, bs ++ k) := by
  have hstops := body_stops '}' cs
  unfold afterRawBraces at h
  split at h
  · cases h
  · cases h
  · rename_i inside rest _ hne hb
    obtain ⟨h, rfl⟩ := Prod.mk.inj h
    cases h
    refine ⟨inside, rfl, afterRawBraces_eq_text ?_ ?_⟩
    · rw [hb] at hstops
      rcases hstops with h | h | ⟨stop, hstop, tail, h, hz⟩
      · simp at h
      -- The reading has not come to the end: there is a brace ahead.
      · have hmem : '{' ∈ ['\\'] := h ▸ List.mem_append_right bs List.mem_cons_self
        exact absurd hmem (by decide)
      · obtain ⟨bs, rfl⟩ := eq_append_of_append_eq (brace_not_mem_of_mem_stopMarks hstop) h
        rw [List.append_assoc]
        exact hz (bs ++ k)
    · cases bs with
      | nil =>
        rcases hk with rfl | ⟨r, rfl⟩
        · simp
        · simp
      | cons b bs =>
        intro r e
        rw [List.cons_append, List.cons.injEq] at e
        obtain ⟨rfl, e⟩ := e
        exact append_ne_cons (by decide) hk (fun r e => hne r (by rw [List.cons_append, e])) r e

/-- Two braces that are text are so with another brace, or the end, in place of a brace behind them.
-/
theorem afterBraces_congr (h : afterBraces cs = (.text as, bs ++ '{' :: more))
    (hk : k = [] ∨ ∃ r, k = '{' :: r) :
    as = ['{', '{'] ∧ (∃ bs', bs = '}' :: bs') ∧ afterBraces (bs ++ k) = (.text as, bs ++ k) := by
  unfold afterBraces at h
  split at h
  · cases h
  · rename_i tail hne hb
    obtain ⟨h, hrest⟩ := Prod.mk.inj h
    cases h
    cases bs with
    | nil => cases hrest
    | cons b bs =>
      rw [List.cons_append, List.cons.injEq] at hrest
      obtain ⟨rfl, rfl⟩ := hrest
      exact ⟨rfl, ⟨bs, rfl⟩, afterBraces_eq_text (append_ne_cons (by decide) hk hne)⟩
  · cases h

/-- A brace and a percent sign that are text are so with another brace, or the end, in place of a
brace behind them. -/
theorem afterPercent_congr (h : afterPercent cs = (.text as, bs ++ '{' :: more))
    (hk : k = [] ∨ ∃ r, k = '{' :: r) :
    as = ['{', '%'] ∧ afterPercent (bs ++ k) = (.text as, bs ++ k) := by
  unfold afterPercent at h
  split at h
  · cases h
  · rename_i tail hne hb
    obtain ⟨h, hrest⟩ := Prod.mk.inj h
    cases h
    cases bs with
    | nil => cases hrest
    | cons b bs =>
      rw [List.cons_append, List.cons.injEq] at hrest
      obtain ⟨rfl, rfl⟩ := hrest
      exact ⟨rfl, afterPercent_eq_text (append_ne_cons (by decide) hk hne)⟩
  · cases h

/-- Where the first segment of a source is a text, it is also when another brace, or the end, comes
in place of a brace behind it. -/
theorem first_text_congr (h : first c cs = (.text as, bs ++ '{' :: more))
    (hk : k = [] ∨ ∃ r, k = '{' :: r) :
    ∃ as', as = c :: as' ∧ first c (as' ++ (bs ++ k)) = (.text as, bs ++ k) := by
  by_cases hc : c = '{'
  · subst hc
    unfold first at h
    rw [if_pos rfl] at h
    split at h
    · obtain ⟨inside, rfl, hk'⟩ := afterRawBraces_congr h hk
      exact ⟨'{' :: '{' :: inside, rfl, hk'⟩
    · obtain ⟨rfl, ⟨bs', rfl⟩, hk'⟩ := afterBraces_congr h hk
      exact ⟨['{'], rfl, hk'⟩
    · obtain ⟨rfl, hk'⟩ := afterPercent_congr h hk
      exact ⟨['%'], rfl, hk'⟩
    · unfold afterHash at h
      split at h
      · cases h
      · cases h
    · rename_i h₁ h₂ h₃ h₄
      obtain ⟨h, rfl⟩ := Prod.mk.inj h
      cases h
      refine ⟨[], rfl, first_brace ?_⟩
      cases bs with
      | nil => exact (h₂ more rfl).elim
      | cons b bs =>
        have hb : b ≠ '{' ∧ b ≠ '%' ∧ b ≠ '#' := by
          refine ⟨?_, ?_, ?_⟩
          · rintro rfl
            exact h₂ _ rfl
          · rintro rfl
            exact h₃ _ rfl
          · rintro rfl
            exact h₄ _ rfl
        simp [hasOpener, hb]
  · rw [first_of_ne hc] at h
    obtain ⟨h, hrest⟩ := Prod.mk.inj h
    cases h
    refine ⟨_, rfl, first_run hc ?_⟩
    cases bs with
    | nil => exact hk
    | cons b bs =>
      -- The run has ended at a brace already.
      have hb := List.head?_dropWhile_not (· ≠ '{') cs
      rw [hrest] at hb
      have hb' : b = '{' := by simpa using hb
      exact .inr ⟨bs ++ k, by rw [hb', List.cons_append]⟩

/-- A segment put in front of others is joined with the first of them if both are text. -/
theorem cons_cases (s : Segment) (rest : List Segment) :
    (∃ as bs after, s = .text as ∧ rest = .text bs :: after ∧
        cons s rest = .text (as ++ bs) :: after) ∨
      cons s rest = s :: rest ∧ ∀ as bs after, s = .text as → rest ≠ .text bs :: after := by
  unfold cons
  split
  · exact .inl ⟨_, _, _, rfl, rfl, rfl⟩
  · rename_i hne
    exact .inr ⟨rfl, fun as bs after hs hr => hne as bs after hs hr⟩

/-- A segment of a source begins a part of the source that runs to its end. -/
theorem exists_suffix_of_split {before after : List Segment} {s : Segment}
    (h : split cs = before ++ s :: after) : ∃ ds, split ds = s :: after := by
  fun_induction split cs generalizing before with
  | case1 => simp at h
  | case2 c cs _ ih =>
    cases before with
    | nil => exact ⟨c :: cs, (split_cons c cs).trans h⟩
    | cons b before =>
      rcases cons_cases (first c cs).1 (split (first c cs).2) with
        ⟨as, bs, after', -, hr, hc⟩ | ⟨hc, -⟩
      · rw [hc, List.cons_append, List.cons.injEq] at h
        obtain ⟨rfl, rfl⟩ := h
        exact @ih (.text bs :: before) hr
      · rw [hc, List.cons_append, List.cons.injEq] at h
        exact ih h.2

/-- What follows a text in a source begins with no text. -/
theorem eq_append_of_split {t : List Char} {after : List Segment}
    (h : split cs = .text t :: after) :
    ∃ ds, cs = t ++ ds ∧ split ds = after ∧ Apart ds ∧ t ≠ [] := by
  fun_induction split cs generalizing t after with
  | case1 => cases h
  | case2 c cs _ ih =>
    have hcs := first_append c cs
    have hne := first_ne_nil c cs
    rcases cons_cases (first c cs).1 (split (first c cs).2) with
      ⟨as, bs, after', hs, hr, hc⟩ | ⟨hc, hapart⟩
    · rw [hs] at hcs hne
      cases hc.symm.trans h
      obtain ⟨ds, hds, hsplit, hapart, -⟩ := ih hr
      rw [hds] at hcs
      refine ⟨ds, ?_, hsplit, hapart, List.append_ne_nil_of_left_ne_nil hne bs⟩
      rw [← hcs, List.append_assoc]
      rfl
    · obtain ⟨hs, rfl⟩ := List.cons.inj (hc.symm.trans h)
      rw [hs] at hcs hne
      exact ⟨_, hcs.symm, rfl, fun bs after' => hapart t bs after' hs, hne⟩

/-- A text that has been found is not empty. -/
theorem ne_nil_of_split {t : List Char} {after : List Segment} (h : split cs = .text t :: after) :
    t ≠ [] := by
  obtain ⟨ds, -, -, -, ht⟩ := eq_append_of_split h
  exact ht

/-- Where a source that begins with no text is not empty it begins with a brace. -/
theorem Apart.exists_brace {ds : List Char} (h : Apart ds) (hne : split ds ≠ []) :
    ∃ more, ds = '{' :: more := by
  rcases h.eq_nil_or with rfl | h
  · exact absurd split_nil hne
  · exact h

/-- A text that has been found in front of something is literal. -/
theorem literal_of_split {t : List Char} {after : List Segment} (h : split cs = .text t :: after)
    (hne : after ≠ []) : Literal false t := by
  refine ⟨ne_nil_of_split h, fun k hk _ => ?_⟩
  -- By the parts in which the text was found. Each of them ends where it did, since another brace, or
  -- the end of the source, does for the lexer what the brace behind it did.
  fun_induction split cs generalizing t with
  | case1 => cases h
  | case2 c cs _ ih =>
    rcases cons_cases (first c cs).1 (split (first c cs).2) with
      ⟨as, bs, after', hs, hr, hc⟩ | ⟨hc, hapart⟩
    · cases hc.symm.trans h
      obtain ⟨ds, hds, hsplit, hapart, -⟩ := eq_append_of_split hr
      obtain ⟨more, rfl⟩ := hapart.exists_brace (hsplit ▸ hne)
      obtain ⟨as', rfl, hfirst⟩ := first_text_congr (Prod.ext hs hds) hk.eq_nil_or
      rw [List.append_assoc, List.cons_append, split_cons, hfirst, ih hr]
      rfl
    · obtain ⟨hs, rfl⟩ := List.cons.inj (hc.symm.trans h)
      have hapart : Apart (first c cs).2 := fun bs after' => hapart t bs after' hs
      obtain ⟨more, hds⟩ := hapart.exists_brace hne
      obtain ⟨as', rfl, hfirst⟩ :=
        first_text_congr (Prod.ext hs (hds.trans (List.nil_append _).symm)) hk.eq_nil_or
      rw [List.nil_append] at hfirst
      rw [List.cons_append, split_cons, hfirst]
      exact cons_of_apart hk _

/-- Only the empty source has no segments. -/
theorem eq_nil_of_split (h : split cs = []) : cs = [] := by
  rw [← flatMap_chars_split cs, h]
  rfl

/-- A text that has been found is literal, at the end of a source if it stood there. -/
theorem literal_of_mem_split {t : List Char} {before after : List Segment}
    (h : split cs = before ++ .text t :: after) : Literal after.isEmpty t := by
  obtain ⟨ds, hds⟩ := exists_suffix_of_split h
  cases after with
  | cons s after => exact literal_of_split hds (by simp)
  | nil =>
    obtain ⟨es, rfl, hes, -, ht⟩ := eq_append_of_split hds
    refine ⟨ht, fun k _ hk => ?_⟩
    rw [hk rfl, split_nil, ← hds, eq_nil_of_split hes]

/-- The empty comment is a segment of its own. -/
theorem split_emptyComment : split emptyComment = [.comment []] := by
  decide +kernel

/-- Where nothing is opened nothing is opened in a part that runs to the end. -/
theorem hasOpener_right (h : hasOpener (as ++ bs) = false) : hasOpener bs = false := by
  induction as with
  | nil => exact h
  | cons a as ih => exact ih (hasOpener_tail h)

/-- Where nothing is opened nothing is opened in a part from the beginning. -/
theorem hasOpener_left (h : hasOpener (as ++ bs) = false) : hasOpener as = false := by
  induction as with
  | nil => rfl
  | cons a as ih =>
    have ih := ih (hasOpener_tail h)
    cases as with
    | nil => simp [hasOpener]
    | cons d as =>
      by_cases ha : a = '{'
      · subst ha
        simp_all [hasOpener]
      · rw [hasOpener_cons_of_ne ha]
        exact ih

/-- A text that is literal in front of anything, and opens nothing, does not end with a brace: with
another brace behind it that would be an opening. -/
theorem getLast?_ne_brace {t : List Char} (hl : Literal false t) (ho : hasOpener t = false) :
    t.getLast? ≠ some '{' := by
  intro hlast
  obtain ⟨ts, rfl⟩ := List.getLast?_eq_some_iff.1 hlast
  have hapart : Apart emptyComment := by
    intro t rest e
    rw [split_emptyComment] at e
    cases e
  -- In front of an empty comment the brace would be one of two that open a tag.
  have htext := hl.2 emptyComment hapart (nomatch ·)
  rw [split_emptyComment, List.append_assoc] at htext
  have hopening : split (['{'] ++ emptyComment) =
      [.unclosed ['{', '{'] ['#', '#'], .text ['}']] := by
    decide +kernel
  by_cases hts : ts = []
  · subst hts
    rw [List.nil_append, hopening] at htext
    cases htext
  · have hne : ts.getLast? ≠ some '{' := by
      intro e
      obtain ⟨us, rfl⟩ := List.getLast?_eq_some_iff.1 e
      rw [List.append_assoc] at ho
      exact absurd (hasOpener_right ho) (by decide)
    have hsplit := split_append_of_hasOpener (k := ['{'] ++ emptyComment) (hasOpener_left ho) hts
      (.inr ⟨⟨emptyComment, rfl⟩, hne⟩)
    rw [hopening] at hsplit
    obtain ⟨-, h⟩ := List.cons.inj (htext.symm.trans hsplit)
    cases h

/-- A text that has been found and opens nothing is plain. -/
theorem plainText_of_mem_split {t : List Char} {before after : List Segment}
    (h : split cs = before ++ .text t :: after) (ho : hasOpener t = false) :
    PlainText after.isEmpty (String.ofList t) := by
  have hl := literal_of_mem_split h
  refine ⟨?_, ?_, ?_⟩
  · intro e
    exact hl.1 (by simpa using congrArg String.toList e)
  · rwa [String.toList_ofList]
  · intro hne
    rw [hne] at hl
    rw [String.toList_ofList]
    exact getLast?_ne_brace hl ho

end Stencil.Segment
