import Stencil.Proofs.Joining.Closed
import Stencil.Proofs.Joining.Dangling

/-!
# Places in a source

A comment can be put where no tag and no comment is, and finds the segments of the source as they were,
but for a text in which it stands. That fails only behind an opening which hangs: one that is text
because of what stands behind it. Main statements: `split_append_of_not_hangs`, and
`exists_comment_of_hangs`, by which some comment makes a faulty tag of an opening that hangs.
-/

namespace Stencil.Segment

variable {c : Char} {cs ds k t rest : List Char} {s : Segment} {xs : List Segment} {n : Nat}

/-- Whether the opening with which the characters begin hangs: it is text because of what stands behind
the characters, a character that closes nothing or the end of the source. -/
def hangsAt : List Char → Bool
  | ['{', '%'] => true
  | '{' :: '{' :: '{' :: cs => (body '}' cs).2 = [] ∨ (body '}' cs).2 = ['\\']
  | _ => false

/-- Whether some opening hangs. -/
def hangs : List Char → Bool
  | [] => false
  | c :: cs =>
    have := length_first_lt c cs
    if c = '{' then hangsAt (c :: cs) || hangs (first c cs).2 else hangs cs
termination_by cs => cs.length

/-- Whether the place behind `n` characters lies strictly inside a tag or a comment. -/
def isInside (n : Nat) : List Segment → Bool
  | [] => false
  | s :: rest =>
    if n < s.chars.length then 0 < n && s.isClosed else isInside (n - s.chars.length) rest

/-! ### One segment -/

/-- Behind some characters stands no closing brace, whatever comes behind them that is none. -/
theorem append_ne_closing (h : ∀ r, cs ++ ds ≠ '}' :: r) (hk : k = [] ∨ ∃ r, k = '{' :: r) :
    ∀ r, cs ++ k ≠ '}' :: r := by
  intro r e
  cases cs with
  | nil => rcases hk with rfl | ⟨k, rfl⟩ <;> cases e
  | cons c cs =>
    obtain ⟨rfl, -⟩ := List.cons.inj e
    exact h (cs ++ ds) rfl

/-- Three braces that are text and do not hang are text whatever opening stands behind. -/
theorem afterRawBraces_again (h : afterRawBraces (cs ++ ds) = (.text t, rest))
    (hat : hangsAt ('{' :: '{' :: '{' :: cs) = false) (hk : k = [] ∨ ∃ r, k = '{' :: r) :
    ∃ inside es, t = '{' :: '{' :: '{' :: inside ∧ cs = inside ++ es ∧ rest = es ++ ds ∧
      afterRawBraces (cs ++ k) = (.text t, es ++ k) := by
  obtain ⟨inside, es, hbody⟩ : ∃ inside es, body '}' cs = (inside, es) := ⟨_, _, rfl⟩
  simp only [hangsAt, decide_eq_false_iff_not, not_or, hbody] at hat
  obtain ⟨hnil, hbackslash⟩ := hat
  have happend := body_append_of_ne hbody hnil hbackslash
  have hcs := append_of_body hbody
  unfold afterRawBraces at h
  split at h
  · cases h
  · cases h
  · rename_i inside' rest' _ hne hfound
    rw [happend, Prod.mk.injEq] at hfound
    obtain ⟨rfl, rfl⟩ := hfound
    cases h
    refine ⟨inside, es, rfl, hcs.symm, rfl, afterRawBraces_eq_text (happend k) fun r e => ?_⟩
    rcases eq_cons_cons_of_append e with e' | rfl | ⟨r', rfl⟩
    · exact hnil e'
    · rcases hk with rfl | ⟨k, rfl⟩ <;> cases e
    · exact hne (r' ++ ds) rfl

/-- Two braces that are text are text whatever opening stands behind. -/
theorem afterBraces_again (h : afterBraces (c :: cs ++ ds) = (.text t, rest))
    (hk : k = [] ∨ ∃ r, k = '{' :: r) :
    t = ['{', '{'] ∧ rest = c :: cs ++ ds ∧
      afterBraces (c :: cs ++ k) = (.text t, c :: cs ++ k) := by
  unfold afterBraces at h
  split at h
  · cases h
  · rename_i tail hne hbody
    have hcs := append_of_body hbody
    obtain ⟨rfl, rfl⟩ := List.cons.inj hcs
    cases h
    exact ⟨rfl, rfl, afterBraces_eq_text (append_ne_closing hne hk)⟩
  · cases h

/-- A brace and a percent sign that are text are text whatever opening stands behind. -/
theorem afterPercent_again (h : afterPercent (c :: cs ++ ds) = (.text t, rest))
    (hk : k = [] ∨ ∃ r, k = '{' :: r) :
    t = ['{', '%'] ∧ rest = c :: cs ++ ds ∧
      afterPercent (c :: cs ++ k) = (.text t, c :: cs ++ k) := by
  unfold afterPercent at h
  split at h
  · cases h
  · rename_i tail hne hbody
    have hcs := append_of_body hbody
    obtain ⟨rfl, rfl⟩ := List.cons.inj hcs
    cases h
    exact ⟨rfl, rfl, afterPercent_eq_text (append_ne_closing hne hk)⟩
  · cases h

/-- A text that a brace begins and that does not hang is found whatever opening stands behind the
characters. -/
theorem first_text_again (h : first '{' (cs ++ ds) = (.text t, rest))
    (hat : hangsAt ('{' :: cs) = false) (hlast : ('{' :: cs).getLast? ≠ some '{')
    (hk : k = [] ∨ ∃ r, k = '{' :: r) :
    ∃ es, '{' :: cs = t ++ es ∧ rest = es ++ ds ∧ first '{' (cs ++ k) = (.text t, es ++ k) := by
  -- By the second character: a brace, which may be one of two or three, the two signs, or another one.
  cases cs with
  | nil => exact absurd rfl hlast
  | cons c cs =>
    by_cases hbrace : c = '{'
    · subst hbrace
      cases cs with
      | nil => exact absurd rfl hlast
      | cons d cs =>
        by_cases hraw : d = '{'
        · subst hraw
          obtain ⟨inside, es, rfl, rfl, rfl, hagain⟩ := afterRawBraces_again h hat hk
          exact ⟨es, rfl, rfl, hagain⟩
        · have hfirst : afterBraces (d :: cs ++ ds) = (.text t, rest) :=
            (first_braces hraw _).symm.trans h
          obtain ⟨rfl, rfl, hagain⟩ := afterBraces_again hfirst hk
          exact ⟨d :: cs, rfl, rfl, (first_braces hraw _).trans hagain⟩
    · by_cases hpercent : c = '%'
      · subst hpercent
        cases cs with
        | nil => cases hat
        | cons d cs =>
          obtain ⟨rfl, rfl, hagain⟩ := afterPercent_again h hk
          exact ⟨d :: cs, rfl, rfl, hagain⟩
      · by_cases hhash : c = '#'
        · subst hhash
          change afterHash (cs ++ ds) = _ at h
          unfold afterHash at h
          split at h <;> cases h
        · have ho : ∀ es, hasOpener ('{' :: (c :: es).take 1) = false := by
            intro es
            simp [hasOpener, hbrace, hpercent, hhash]
          rw [List.cons_append, first_brace (ho _)] at h
          cases h
          exact ⟨c :: cs, rfl, rfl, first_brace (ho _)⟩

/-! ### Places outside of tags and comments -/

/-- A place behind a segment is inside what it is inside of in the segments behind. -/
theorem isInside_cons_of_le (h : s.chars.length ≤ n) (xs : List Segment) :
    isInside n (cons s xs) = isInside (n - s.chars.length) xs := by
  rcases cons_cases s xs with ⟨as, bs, after, rfl, rfl, hcons⟩ | ⟨hcons, -⟩
  · have hsub : n - (as ++ bs).length = n - as.length - bs.length := by
      rw [List.length_append]
      omega
    have hlt : n < (as ++ bs).length ↔ n - as.length < bs.length := by
      rw [List.length_append]
      simp only [chars] at h
      omega
    rw [hcons, isInside, isInside]
    simp only [chars, isClosed, Bool.and_false, hsub, hlt]
  · rw [hcons, isInside, if_neg (Nat.not_lt.2 h)]

/-- A place within the first segment is inside it if that is a tag or a comment. -/
theorem isClosed_eq_false_of_lt (hn : 0 < n) (hlt : n < s.chars.length)
    (h : isInside n (cons s xs) = false) : s.isClosed = false := by
  rcases cons_cases s xs with ⟨as, bs, after, rfl, -, -⟩ | ⟨hcons, -⟩
  · rfl
  · rw [hcons, isInside, if_pos hlt] at h
    simpa [hn] using h

/-- Joining texts does not bring about or hide an opening without an end. -/
theorem mem_cons_of_unclosed {opener body : List Char} :
    .unclosed opener body ∈ cons s xs ↔ .unclosed opener body = s ∨ .unclosed opener body ∈ xs := by
  rcases cons_cases s xs with ⟨as, bs, after, rfl, rfl, hcons⟩ | ⟨hcons, -⟩
  · simp [hcons]
  · rw [hcons, List.mem_cons]

/-- A place in a source at which a comment can be put: behind the characters `cs`, in front of the
characters `ds`. -/
structure Between (cs ds : List Char) : Prop where
  /-- No opening of the source is left without an end. -/
  closed : ∀ opener body, .unclosed opener body ∉ split (cs ++ ds)
  /-- The place is not strictly inside a tag or a comment. -/
  outside : isInside cs.length (split (cs ++ ds)) = false
  /-- There is no opening brace in front of it. -/
  behind : cs.getLast? ≠ some '{'

/-- Behind the first segment the place is one of the same kind. -/
theorem Between.tail {es : List Char} (h : Between (c :: cs) ds)
    (hsplit : split (c :: cs ++ ds) = cons s (split (es ++ ds))) (hcs : c :: cs = s.chars ++ es) :
    Between es ds := by
  have hlength := congrArg List.length hcs
  rw [List.length_append] at hlength
  refine ⟨fun opener body hmem => h.closed opener body ?_, ?_, fun hlast => h.behind ?_⟩
  · rw [hsplit]
    exact mem_cons_of_unclosed.2 (.inr hmem)
  · have houtside := h.outside
    rw [hsplit, isInside_cons_of_le (by omega), hlength, Nat.add_sub_cancel_left] at houtside
    exact houtside
  · rw [hcs, List.getLast?_append, hlast]
    rfl

/-- What a brace begins in front of the place is found in front of it whatever opening stands behind. -/
theorem Between.first_again (h : Between ('{' :: cs) ds) (hat : hangsAt ('{' :: cs) = false) :
    ∃ s es, '{' :: cs = s.chars ++ es ∧ first '{' (cs ++ ds) = (s, es ++ ds) ∧
      ∀ k, (k = [] ∨ ∃ r, k = '{' :: r) → first '{' (cs ++ k) = (s, es ++ k) := by
  obtain ⟨s, rest, hfirst⟩ : ∃ s rest, first '{' (cs ++ ds) = (s, rest) := ⟨_, _, rfl⟩
  have hsplit : split ('{' :: cs ++ ds) = cons s (split rest) := by
    rw [List.cons_append, split_cons, hfirst]
  have hchars : s.chars ++ rest = '{' :: cs ++ ds := by
    have happend := first_append '{' (cs ++ ds)
    rwa [hfirst] at happend
  cases hs : s.isClosed with
  | true =>
    -- The place is behind the whole tag or comment.
    have hle : s.chars.length ≤ ('{' :: cs).length := by
      refine Nat.not_lt.1 fun hlt => ?_
      have houtside := h.outside
      rw [hsplit] at houtside
      cases hs.symm.trans (isClosed_eq_false_of_lt (Nat.succ_pos _) hlt houtside)
    obtain ⟨es, hcs, hrest⟩ : ∃ es, '{' :: cs = s.chars ++ es ∧ rest = es ++ ds := by
      rcases List.append_eq_append_iff.1 hchars with ⟨es, hcs, hrest⟩ | ⟨es, hcs, hds⟩
      · exact ⟨es, hcs, hrest⟩
      · have hes : es = [] := by
          have hlength := congrArg List.length hcs
          rw [List.length_append] at hlength
          exact List.length_eq_zero_iff.1 (by omega)
        subst hes
        exact ⟨[], by simpa using hcs.symm, hds.symm⟩
    subst hrest
    refine ⟨s, es, hcs, hfirst, fun k hk => ?_⟩
    have hbehind : ∀ inside r, s = .tag .output ('{' :: inside) → es ++ k ≠ '}' :: r := by
      rintro inside r rfl
      exact append_ne_closing (rest_ne_brace_of_first hfirst) hk r
    obtain ⟨fs, hfs, hagain⟩ := first_closed hfirst hs hbehind
    have hcs' : cs = fs ++ es := by
      rw [hfs] at hcs
      exact (List.cons.inj hcs).2
    rw [hcs', List.append_assoc]
    exact hagain
  | false =>
    cases s with
    | comment body => cases hs
    | tag form body => cases hs
    | unclosed opener body =>
      refine absurd ?_ (h.closed opener body)
      rw [hsplit]
      exact mem_cons_of_unclosed.2 (.inl rfl)
    | text t =>
      obtain ⟨es, hcs, rfl, -⟩ := first_text_again hfirst hat h.behind (.inl rfl)
      refine ⟨.text t, es, hcs, hfirst, fun k hk => ?_⟩
      obtain ⟨es', hcs', -, hagain⟩ := first_text_again hfirst hat h.behind hk
      rw [hcs] at hcs'
      rw [hagain, ← List.append_cancel_left hcs']

/-- If the place is not behind an opening that hangs, then what a brace begins in front of it is the first
segment of the characters there, and is so whatever opening stands behind the place. -/
theorem Between.split_again (h : Between ('{' :: cs) ds) (hat : hangsAt ('{' :: cs) = false) :
    Between (first '{' cs).2 ds ∧
      split ('{' :: cs ++ ds) = cons (first '{' cs).1 (split ((first '{' cs).2 ++ ds)) ∧
      ∀ k, (k = [] ∨ ∃ r, k = '{' :: r) →
        split ('{' :: cs ++ k) = cons (first '{' cs).1 (split ((first '{' cs).2 ++ k)) := by
  obtain ⟨s, es, hcs, hfirst, hagain⟩ := h.first_again hat
  have halone : first '{' cs = (s, es) := by
    have hend := hagain [] (.inl rfl)
    rwa [List.append_nil, List.append_nil] at hend
  have hsplit : split ('{' :: cs ++ ds) = cons s (split (es ++ ds)) := by
    rw [List.cons_append, split_cons, hfirst]
  rw [halone]
  refine ⟨h.tail hsplit hcs, hsplit, fun k hk => ?_⟩
  rw [List.cons_append, split_cons, hagain k hk]

/-- Where no opening hangs, the segments in front of a place are those of the characters there, and the
segments behind it are found as they are without the characters; so it is with an opening in place of
what stands there. -/
theorem split_append_of_not_hangs (h : Between cs ds) (hh : hangs cs = false) :
    split (cs ++ ds) = (split cs).foldr cons (split ds) ∧
      ∀ k, (k = [] ∨ ∃ r, k = '{' :: r) → split (cs ++ k) = (split cs).foldr cons (split k) := by
  -- Segment by segment in front of the place, and character by character where they are no braces.
  fun_induction hangs cs with
  | case1 =>
    refine ⟨?_, fun k _ => ?_⟩
    · rw [split_nil, List.nil_append, List.foldr_nil]
    · rw [split_nil, List.nil_append, List.foldr_nil]
  | case2 cs _ ih =>
    obtain ⟨hat, hlater⟩ := Bool.or_eq_false_iff.1 hh
    obtain ⟨htail, hsplit, hagain⟩ := h.split_again hat
    obtain ⟨hrest, hothers⟩ := ih htail hlater
    rw [split_cons]
    refine ⟨?_, fun k hk => ?_⟩
    · rw [hsplit, hrest, foldr_cons_cons]
    · rw [hagain k hk, hothers k hk, foldr_cons_cons]
  | case3 c cs _ hc ih =>
    have hsplit : ∀ k, split (c :: cs ++ k) = cons (.text [c]) (split (cs ++ k)) := fun k =>
      split_cons_of_ne hc (cs ++ k)
    obtain ⟨hrest, hothers⟩ := ih (h.tail (hsplit ds) rfl) hh
    rw [split_cons_of_ne hc]
    refine ⟨?_, fun k hk => ?_⟩
    · rw [hsplit, hrest, foldr_cons_cons]
    · rw [hsplit, hothers k hk, foldr_cons_cons]

/-! ### Openings that hang -/

/-- The body of a tag that is left open by the end of the source is left open by an opening behind it.
-/
theorem body_append_opening (h : (body '}' cs).2 = [] ∨ (body '}' cs).2 = ['\\']) :
    (body '}' (cs ++ ['{', '#'])).2 = [] := by
  have hparts := body_append '}' (cs ++ ['{', '#'])
  rcases body_stops '}' (cs ++ ['{', '#']) with hnil | hbackslash | ⟨stop, hstop, more, hmore, hz⟩
  · exact hnil
  · -- The last character is no backslash.
    rw [hbackslash] at hparts
    have hlast := congrArg List.getLast? hparts
    simp at hlast
  · rw [hmore] at hparts
    rcases List.append_eq_append_iff.1 hparts with ⟨as, hcs, hbehind⟩ | ⟨as, -, hopening⟩
    · -- What stops the body would have stopped it before.
      obtain ⟨bs, rfl⟩ := eq_append_of_append_eq (brace_not_mem_of_mem_stopMarks hstop) hbehind.symm
      have hbody : (body '}' cs).2 = stop ++ bs := by
        rw [hcs, hz bs]
      rw [hbody] at h
      simp only [stopMarks, List.mem_cons, List.not_mem_nil, or_false] at hstop
      rcases hstop with rfl | rfl <;> simp at h
    · have hmem : ∀ d ∈ stop, d ∈ ['{', '#'] := by
        intro d hd
        rw [hopening]
        exact List.mem_append_right _ (List.mem_append_left _ hd)
      simp only [stopMarks, List.mem_cons, List.not_mem_nil, or_false] at hstop
      rcases hstop with rfl | rfl
      · exact absurd (hmem '}' (by decide)) (by decide)
      · exact absurd (hmem '\\' (by decide)) (by decide)

/-- What stands behind a brace and a percent sign at a place outside of tags is a percent sign that
closes nothing. -/
theorem Between.exists_percent (h : Between ['{', '%'] ds) :
    ∃ tail, ds = '%' :: tail ∧ ∀ r, tail ≠ '}' :: r := by
  obtain ⟨s, rest, hfirst⟩ : ∃ s rest, afterPercent ds = (s, rest) := ⟨_, _, rfl⟩
  have hsplit : split (['{', '%'] ++ ds) = cons s (split rest) := by
    have hcons : split ('{' :: '%' :: ds) = cons (afterPercent ds).1 (split (afterPercent ds).2) :=
      split_cons '{' ('%' :: ds)
    rwa [hfirst] at hcons
  unfold afterPercent at hfirst
  split at hfirst
  · -- A tag would have the place inside it.
    rename_i inside _ _
    cases hfirst
    have houtside := h.outside
    rw [hsplit] at houtside
    have hlt : ['{', '%'].length < (tag .block inside).chars.length := by
      simp [chars, TagForm.opener, TagForm.closer]
    cases isClosed_eq_false_of_lt (Nat.succ_pos _) hlt houtside
  · rename_i tail hne hbody
    exact ⟨tail, (append_of_body hbody).symm, hne⟩
  · cases hfirst
    rename_i inside _ _ _
    refine absurd ?_ (h.closed ['{', '%'] inside)
    rw [hsplit]
    exact mem_cons_of_unclosed.2 (.inl rfl)

/-- A comment behind an opening that hangs can make a faulty segment of it. -/
theorem exists_comment_of_hangsAt (h : Between ('{' :: cs) ds) (hat : hangsAt ('{' :: cs) = true) :
    ∃ inside, ¬ ['#', '}'] <:+: inside ∧
      (first '{' (cs ++ ((comment inside).chars ++ ds))).1.isFaulty = true := by
  unfold hangsAt at hat
  split at hat
  · rename_i e
    cases e
    obtain ⟨tail, rfl, hne⟩ := h.exists_percent
    refine ⟨[], by decide, ?_⟩
    have hbody : body '%' ('{' :: '#' :: '#' :: '}' :: '%' :: tail) =
        (['{', '#', '#', '}'], '%' :: tail) := by
      rw [body_cons (by decide) (by decide), body_cons (by decide) (by decide),
        body_cons (by decide) (by decide), body_cons (by decide) (by decide), body, if_pos rfl]
    have hopen : (afterPercent ('{' :: '#' :: '#' :: '}' :: '%' :: tail)).1 =
        .unclosed ['{', '%'] ['{', '#', '#', '}'] := by
      unfold afterPercent
      rw [hbody]
      split
      · rename_i e
        cases e
        exact absurd rfl (hne _)
      · rename_i e
        cases e
      · rename_i e
        cases e
        rfl
    exact congrArg isFaulty hopen
  · rename_i fs e
    cases e
    rw [decide_eq_true_eq] at hat
    obtain ⟨inside, body', hinside, hclosed⟩ := exists_closing (.inl (body_append_opening hat))
    refine ⟨inside, ?_, ?_⟩
    · rintro ⟨before, after, e⟩
      have hmem : '#' ∈ inside := by simp [← e]
      exact (hinside '#' hmem).2.2 rfl
    · have hbody := body_append_of_ne hclosed (by simp) (by simp) ('#' :: '}' :: ds)
      have htag := afterRawBraces_eq_output hbody (by simp)
      have hchars : fs ++ ((comment inside).chars ++ ds) =
          fs ++ ['{', '#'] ++ inside ++ '#' :: '}' :: ds := by simp [chars]
      show (afterRawBraces (fs ++ ((comment inside).chars ++ ds))).1.isFaulty = true
      rw [hchars, htag]
      rfl
  · cases hat

/-- Where an opening hangs, a comment can make a faulty segment of it. -/
theorem exists_comment_of_hangs (h : Between cs ds) (hh : hangs cs = true) :
    ∃ inside, ¬ ['#', '}'] <:+: inside ∧
      ¬ ∀ s ∈ split (cs ++ ((comment inside).chars ++ ds)), s.isFaulty = false := by
  fun_induction hangs cs with
  | case1 => cases hh
  | case2 cs _ ih =>
    cases hat : hangsAt ('{' :: cs) with
    | true =>
      obtain ⟨inside, hinside, hfault⟩ := exists_comment_of_hangsAt h hat
      refine ⟨inside, hinside, fun hclean => ?_⟩
      rw [List.cons_append, split_cons, forall_not_faulty_cons] at hclean
      cases hfault.symm.trans hclean.1
    | false =>
      rw [hat, Bool.false_or] at hh
      obtain ⟨htail, -, hagain⟩ := h.split_again hat
      obtain ⟨inside, hinside, hfault⟩ := ih htail hh
      have hopening : ∃ r, (comment inside).chars ++ ds = '{' :: r := ⟨_, rfl⟩
      refine ⟨inside, hinside, fun hclean => hfault ?_⟩
      rw [hagain _ (.inr hopening), forall_not_faulty_cons] at hclean
      exact hclean.2
  | case3 c cs _ hc ih =>
    have hsplit : ∀ k, split (c :: cs ++ k) = cons (.text [c]) (split (cs ++ k)) := fun k =>
      split_cons_of_ne hc (cs ++ k)
    obtain ⟨inside, hinside, hfault⟩ := ih (h.tail (hsplit ds) rfl) hh
    refine ⟨inside, hinside, fun hclean => hfault ?_⟩
    rw [hsplit, forall_not_faulty_cons] at hclean
    exact hclean.2

end Stencil.Segment
