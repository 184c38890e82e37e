import Stencil.Proofs.Joining.Segments
import Stencil.Proofs.Lexing.Spelling

/-!
# What is closed

A tag or a comment is found where it is by its own characters, whatever stands behind them. There is
one exception: three braces that two closing ones end do not go on with a closing brace. Main statement:
`first_closed`.
-/

namespace Stencil.Segment

variable {mark c : Char} {cs inside rest k : List Char} {s : Segment}

/-- Whether a segment ends with a mark of its own: a tag or a comment. -/
def isClosed : Segment → Bool
  | .comment _ | .tag _ _ => true
  | .text _ | .unclosed _ _ => false

/-- The body of a tag that ends at its mark ends there whatever follows the mark. -/
theorem body_closed (hm : mark ≠ '\\') (h : body mark cs = (inside, mark :: rest)) (z : List Char) :
    body mark (inside ++ mark :: z) = (inside, mark :: z) := by
  have hstops := body_stops mark cs
  rw [h] at hstops
  rcases hstops with hnil | hbackslash | ⟨stop, hstop, more, hrest, hz⟩
  · cases hnil
  · exact absurd (List.cons.inj hbackslash).1 hm
  · simp only [stopMarks, List.mem_cons, List.not_mem_nil, or_false] at hstop
    rcases hstop with rfl | rfl
    · exact hz z
    · exact absurd (List.cons.inj hrest).1 hm

/-- A comment ends behind characters that hold no mark that ends one. -/
theorem comment?_of_noMark (h : ¬ ['#', '}'] <:+: inside) (z : List Char) :
    comment? (inside ++ '#' :: '}' :: z) = some (inside, z) := by
  induction inside with
  | nil => rfl
  | cons c cs ih =>
    rw [List.infix_cons_iff, not_or] at h
    obtain ⟨hfirst, hrest⟩ := h
    -- A number sign is followed by another one or by a character of the comment.
    have hnoMark : ∀ ds, c = '#' → cs ++ '#' :: '}' :: z = '}' :: ds → False := by
      rintro ds rfl e
      cases cs with
      | nil => cases e
      | cons d cs =>
        obtain ⟨rfl, -⟩ := List.cons.inj e
        exact hfirst ⟨cs, rfl⟩
    rw [List.cons_append, comment?, ih hrest]
    · rfl
    · exact hnoMark

/-- What a comment that has been found holds is no mark that ends one. -/
theorem noMark_of_comment? (h : comment? cs = some (inside, rest)) : ¬ ['#', '}'] <:+: inside :=
  fun hmark => comment?_first h (hmark.trans (List.prefix_append inside ['#']).isInfix)

/-- A tag behind three braces is found again. -/
theorem afterRawBraces_closed (h : afterRawBraces cs = (s, rest)) (hs : s.isClosed = true)
    (hk : ∀ inside r, s = .tag .output ('{' :: inside) → k ≠ '}' :: r) :
    ∃ es, s.chars = '{' :: '{' :: '{' :: es ∧ afterRawBraces (es ++ k) = (s, k) := by
  unfold afterRawBraces at h
  split at h
  · rename_i inside _ hbody
    cases h
    refine ⟨inside ++ ['}', '}', '}'], rfl, afterRawBraces_eq_raw ?_⟩
    rw [List.append_assoc]
    exact body_closed (by decide) hbody _
  · rename_i inside _ _ hbody
    cases h
    refine ⟨inside ++ ['}', '}'], rfl, afterRawBraces_eq_output ?_ fun r => hk inside r rfl⟩
    rw [List.append_assoc]
    exact body_closed (by decide) hbody _
  · cases h
    cases hs

/-- A tag behind two braces is found again. -/
theorem afterBraces_closed (h : afterBraces cs = (s, rest)) (hs : s.isClosed = true)
    (k : List Char) :
    ∃ es, s.chars = '{' :: '{' :: es ∧ (∃ e fs, es = e :: fs ∧ cs.head? = some e) ∧
      afterBraces (es ++ k) = (s, k) := by
  unfold afterBraces at h
  split at h
  · rename_i inside tail hbody
    cases h
    have hcs := append_of_body hbody
    refine ⟨inside ++ ['}', '}'], rfl, ?_, afterBraces_eq_output ?_⟩
    · cases inside with
      | nil => exact ⟨'}', ['}'], rfl, by rw [← hcs]; rfl⟩
      | cons e fs => exact ⟨e, fs ++ ['}', '}'], rfl, by rw [← hcs]; rfl⟩
    · rw [List.append_assoc]
      exact body_closed (by decide) hbody _
  · cases h
    cases hs
  · cases h
    cases hs

/-- A tag behind a brace and a percent sign is found again. -/
theorem afterPercent_closed (h : afterPercent cs = (s, rest)) (hs : s.isClosed = true)
    (k : List Char) : ∃ es, s.chars = '{' :: '%' :: es ∧ afterPercent (es ++ k) = (s, k) := by
  unfold afterPercent at h
  split at h
  · rename_i inside _ hbody
    cases h
    refine ⟨inside ++ ['%', '}'], rfl, afterPercent_eq_block ?_⟩
    rw [List.append_assoc]
    exact body_closed (by decide) hbody _
  · cases h
    cases hs
  · cases h
    cases hs

/-- A comment is found again. -/
theorem afterHash_closed (h : afterHash cs = (s, rest)) (hs : s.isClosed = true) (k : List Char) :
    ∃ es, s.chars = '{' :: '#' :: es ∧ afterHash (es ++ k) = (s, k) := by
  unfold afterHash at h
  split at h
  · rename_i inside _ hcomment
    cases h
    refine ⟨inside ++ ['#', '}'], rfl, ?_⟩
    have hagain := comment?_of_noMark (noMark_of_comment? hcomment) k
    rw [List.append_assoc, afterHash]
    simp only [List.cons_append, List.nil_append, hagain]
  · cases h
    cases hs

/-- A tag or a comment with which a source begins is the first segment again whatever stands behind it,
but for a closing brace behind three braces that two closing ones end. -/
theorem first_closed (h : first c cs = (s, rest)) (hs : s.isClosed = true)
    (hk : ∀ inside r, s = .tag .output ('{' :: inside) → k ≠ '}' :: r) :
    ∃ es, s.chars = c :: es ∧ first c (es ++ k) = (s, k) := by
  unfold first at h
  split at h
  · rename_i hc
    subst hc
    split at h
    · obtain ⟨es, hchars, hagain⟩ := afterRawBraces_closed h hs hk
      exact ⟨'{' :: '{' :: es, hchars, hagain⟩
    · rename_i hne
      obtain ⟨es, hchars, ⟨e, fs, rfl, hhead⟩, hagain⟩ := afterBraces_closed h hs k
      refine ⟨'{' :: e :: fs, hchars, (first_braces ?_ (fs ++ k)).trans hagain⟩
      -- The character behind the braces is the one that was there.
      rintro rfl
      obtain ⟨tail, htail⟩ := List.head?_eq_some_iff.1 hhead
      exact hne tail (by rw [htail])
    · obtain ⟨es, hchars, hagain⟩ := afterPercent_closed h hs k
      exact ⟨'%' :: es, hchars, hagain⟩
    · obtain ⟨es, hchars, hagain⟩ := afterHash_closed h hs k
      exact ⟨'#' :: es, hchars, hagain⟩
    · cases h
      cases hs
  · cases h
    cases hs

/-- Behind three braces that two closing ones end stands no third one. -/
theorem rest_ne_brace_of_first (h : first c cs = (.tag .output ('{' :: inside), rest)) :
    ∀ r, rest ≠ '}' :: r := by
  unfold first at h
  split at h
  · split at h
    · unfold afterRawBraces at h
      split at h
      · cases h
      · rename_i hne _
        cases h
        rintro r rfl
        exact hne r rfl
      · cases h
    · rename_i hraw
      unfold afterBraces at h
      split at h
      · rename_i hbody
        cases h
        exact (hraw _ (append_of_body hbody).symm).elim
      · cases h
      · cases h
    · unfold afterPercent at h
      split at h <;> cases h
    · unfold afterHash at h
      split at h <;> cases h
    · cases h
  · cases h

end Stencil.Segment
