import Stencil.Template.Printer

/-!
# Texts between tags

A text that stands between tags is read as one text if nothing in it opens a tag and no text
follows. Main statement: `literal_of_plainText`.
-/

namespace Stencil.Segment

/-- No text begins the source. -/
def Apart (cs : List Char) : Prop := ∀ t rest, split cs ≠ .text t :: rest

/-- Characters that are read as one text in front of anything but text; at the end of a source if
they are the last. -/
def Literal (isLast : Bool) (cs : List Char) : Prop :=
  cs ≠ [] ∧ ∀ k, Apart k → (isLast = true → k = []) → split (cs ++ k) = .text cs :: split k

/-- What is literal in front of anything is literal at the end. -/
theorem Literal.mono {cs : List Char} (h : Literal false cs) (isLast : Bool) :
    Literal isLast cs :=
  ⟨h.1, fun k hk _ => h.2 k hk (nomatch ·)⟩

@[simp] theorem split_nil : split [] = [] := by rw [split]

theorem split_cons (c : Char) (cs : List Char) :
    split (c :: cs) = cons (first c cs).1 (split (first c cs).2) := by
  rw [split]

/-- The empty source begins with no text. -/
theorem apart_nil : Apart [] := by
  intro t rest
  simp

/-- Text in front of text in front of segments. -/
@[simp] theorem cons_cons_text (as bs : List Char) (rest : List Segment) :
    cons (.text as) (cons (.text bs) rest) = cons (.text (as ++ bs)) rest := by
  cases rest with
  | nil => rfl
  | cons s rest => cases s <;> simp [cons]

/-- Text is kept apart from what is no text. -/
theorem cons_of_apart {k : List Char} (h : Apart k) (cs : List Char) :
    cons (.text cs) (split k) = .text cs :: split k := by
  cases hs : split k with
  | nil => rfl
  | cons s rest =>
    cases s with
    | text t => exact absurd hs (h t rest)
    | comment body => rfl
    | tag form body => rfl
    | unclosed opener body => rfl

/-- A character that is no brace begins a text. -/
theorem first_of_ne {c : Char} (hc : c ≠ '{') (cs : List Char) :
    first c cs = (.text (c :: cs.takeWhile (· ≠ '{')), cs.dropWhile (· ≠ '{')) := by
  unfold first
  rw [if_neg hc]

/-- A character that is no brace is the first of a text. -/
theorem split_cons_of_ne {c : Char} (hc : c ≠ '{') (cs : List Char) :
    split (c :: cs) = cons (.text [c]) (split cs) := by
  rw [split_cons, first_of_ne hc]
  cases cs with
  | nil => simp
  | cons d ds =>
    by_cases hd : d = '{'
    · simp [hd]
    · rw [split_cons d, first_of_ne hd, cons_cons_text]
      simp [hd]

/-- A brace is a text of its own if it opens nothing. -/
theorem first_brace {cs : List Char} (h : hasOpener ('{' :: cs.take 1) = false) :
    first '{' cs = (.text ['{'], cs) := by
  cases cs with
  | nil => rfl
  | cons d ds =>
    simp [hasOpener] at h
    unfold first
    rw [if_pos rfl]
    split <;> simp_all

/-- A source that begins with no text is empty or begins with a brace. -/
theorem Apart.eq_nil_or {k : List Char} (h : Apart k) : k = [] ∨ ∃ r, k = '{' :: r := by
  cases k with
  | nil => exact .inl rfl
  | cons c cs =>
    by_cases hc : c = '{'
    · exact .inr ⟨cs, by rw [hc]⟩
    · have hs := split_cons_of_ne hc cs
      cases hs' : split cs with
      | nil =>
        rw [hs'] at hs
        exact absurd hs (h _ _)
      | cons s rest =>
        rw [hs'] at hs
        cases s <;> exact absurd hs (h _ _)

/-- A character that is no brace opens nothing. -/
theorem hasOpener_cons_of_ne {c : Char} (hc : c ≠ '{') (cs : List Char) :
    hasOpener (c :: cs) = hasOpener cs := by
  rw [hasOpener]
  simp [hc]

/-- Where nothing is opened nothing is opened from the second character on. -/
theorem hasOpener_tail {c : Char} {cs : List Char} (h : hasOpener (c :: cs) = false) :
    hasOpener cs = false := by
  cases cs with
  | nil => rfl
  | cons d ds =>
    by_cases hc : c = '{'
    · subst hc
      simp only [hasOpener, Bool.or_eq_false_iff] at h
      exact h.2
    · rwa [hasOpener_cons_of_ne hc] at h

/-- Characters that open nothing are read as text, up to the end or to a brace that they do not
open a tag with. -/
theorem split_append_of_hasOpener {cs k : List Char} (ho : hasOpener cs = false) (hne : cs ≠ [])
    (hk : k = [] ∨ (∃ r, k = '{' :: r) ∧ cs.getLast? ≠ some '{') :
    split (cs ++ k) = cons (.text cs) (split k) := by
  -- Character by character: texts are joined, so that it does not matter in which parts they are found.
  induction cs with
  | nil => exact absurd rfl hne
  | cons c cs ih =>
    cases cs with
    | nil =>
      by_cases hc : c = '{'
      · subst hc
        rcases hk with rfl | ⟨-, hl⟩
        · simp [split_cons, first_brace, hasOpener]
        · exact absurd rfl hl
      · exact split_cons_of_ne hc k
    | cons d ds =>
      have ih := ih (hasOpener_tail ho) (by simp) (by simpa using hk)
      by_cases hc : c = '{'
      · subst hc
        have hfirst : first '{' (d :: ds ++ k) = (.text ['{'], d :: ds ++ k) := by
          apply first_brace
          simp_all [hasOpener]
        rw [List.cons_append, split_cons, hfirst, ih, cons_cons_text]
        rfl
      · rw [List.cons_append, split_cons_of_ne hc, ih, cons_cons_text]
        rfl

/-- A text without openings is literal. -/
theorem literal_of_plainText {isLast : Bool} {s : String} (h : PlainText isLast s) :
    Literal isLast s.toList := by
  have hne : s.toList ≠ [] := fun e => h.nonempty (String.toList_eq_nil_iff.1 e)
  refine ⟨hne, ?_⟩
  intro k hk hl
  rw [← cons_of_apart hk]
  apply split_append_of_hasOpener h.opens_nothing hne
  cases isLast with
  | true => exact .inl (hl rfl)
  | false =>
    rcases hk.eq_nil_or with rfl | hk
    · exact .inl rfl
    · exact .inr ⟨hk, h.no_brace rfl⟩

end Stencil.Segment
