import Stencil.Proofs.Reading.Complete

/-!
# What is read is derivable

The tokens that the reader consumes form a derivation of what it gives back, with the places of the
tree. Main statement: `body_sound`. A conditional is read in two parts, so that what `branches`
reads is described by what it makes of the tokens before and after it (`Completes`).
-/

namespace Stencil.Reader

open Grammar

/-- The steps that are read are derivable, and end where the reader says. -/
theorem steps_sound {stop e : Nat} {toks r : Tokens} {names : List String}
    (h : Reads (steps stop toks) (names, e) r) :
    ∃ ts, toks = ts ++ r ∧ Steps ts names ∧ e = endOf stop ts := by
  fun_induction steps stop toks generalizing names e with
  | case1 stop p name q rest ih =>
    obtain ⟨⟨more, stop'⟩, s, _, hx, h⟩ := h.of_bind
    obtain ⟨ea, rfl⟩ : (name :: more, stop') = (names, e) ∧ s = r := Reads.pure.unique h
    cases ea
    obtain ⟨ts, rfl, hs, he⟩ := ih hx
    exact ⟨⟨.dot, p⟩ :: ⟨.ident name, q⟩ :: ts, rfl, .cons hs, by simpa using he⟩
  | case2 => exact absurd h not_reads_error
  | case3 =>
    obtain ⟨ea, rfl⟩ := Reads.ok.unique h
    cases ea
    exact ⟨[], rfl, .nil, rfl⟩

/-- An operand that is read is derivable, and ends where the reader says. -/
theorem operand_sound {expected : List Expectation} {e : Nat} {toks r : Tokens} {o : Operand}
    (h : Reads (operand expected toks) (o, e) r) :
    ∃ ts, toks = ts ++ r ∧ Argument ts o ∧ e = endOf 0 ts := by
  fun_cases operand expected toks with
  | case1 s p =>
    obtain ⟨ea, rfl⟩ := Reads.ok.unique h
    cases ea
    exact ⟨[⟨.str s, p⟩], rfl, .str, rfl⟩
  | case2 n p =>
    obtain ⟨ea, rfl⟩ := Reads.ok.unique h
    cases ea
    exact ⟨[⟨.int n, p⟩], rfl, .int, rfl⟩
  | case3 root p rest =>
    obtain ⟨⟨names, stop⟩, s, _, hx, h⟩ := h.of_bind
    obtain ⟨ea, rfl⟩ : (Operand.path root names, stop) = (o, e) ∧ s = r := Reads.pure.unique h
    cases ea
    obtain ⟨ts, rfl, hs, he⟩ := steps_sound hx
    exact ⟨⟨.ident root, p⟩ :: ts, rfl, .path hs, by simpa using he⟩
  | case4 =>
    rw [operand] at h
    · exact absurd h not_reads_error
    all_goals assumption

/-- Arguments that are read are derivable, and a parenthesis closes them. -/
theorem arguments_sound {toks r : Tokens} {args : List Operand} {e : Nat}
    (h : Reads (arguments toks) (args, e) r) :
    ∃ ts p, toks = ts ++ ⟨.parenClose, p⟩ :: r ∧ Arguments ts args ∧ e = p.stop := by
  fun_induction arguments toks generalizing args e with
  | case1 p rest =>
    obtain ⟨ea, rfl⟩ := Reads.ok.unique h
    cases ea
    exact ⟨[], p, rfl, .nil, rfl⟩
  | case2 toks hne ih =>
    obtain ⟨⟨a, stop⟩, s, hs, hx, h⟩ := h.of_bind
    -- Behind an operand the parenthesis closes, or a comma stands in front of the next.
    obtain ⟨ts, rfl, ha, -⟩ := operand_sound hx
    simp only at h
    split at h
    · obtain ⟨ea, rfl⟩ := Reads.pure.unique h
      cases ea
      exact ⟨ts, _, rfl, .last ha, rfl⟩
    · rename_i q rest _
      obtain ⟨⟨as, stop'⟩, s, _, hx, h⟩ := h.of_bind
      obtain ⟨ea, rfl⟩ : (a :: as, stop') = (args, e) ∧ s = r := Reads.pure.unique h
      cases ea
      obtain ⟨us, p, rfl, has, rfl⟩ := ih ⟨(a, stop), ⟨.comma, q⟩ :: rest, hs⟩ q rest rfl hx
      exact ⟨ts ++ ⟨.comma, q⟩ :: us, p, by simp, .cons ha has, rfl⟩
    · exact absurd h not_reads_error

/-- An expression that is read is derivable, and its place is its extent. -/
theorem expression_sound {toks r : Tokens} {e : Located Expr} (h : Reads (expression toks) e r) :
    ∃ es, toks = es ++ r ∧ Expression es e.item ∧ e.span = extent es := by
  fun_cases expression toks with
  | case1 helper p q rest =>
    obtain ⟨⟨args, stop⟩, s, _, hx, h⟩ := h.of_bind
    obtain ⟨rfl, rfl⟩ : ⟨.call helper args, p.start, stop⟩ = e ∧ s = r := Reads.pure.unique h
    obtain ⟨ts, c, rfl, ha, rfl⟩ := arguments_sound hx
    refine ⟨⟨.ident helper, p⟩ :: ⟨.parenOpen, q⟩ :: ts ++ [⟨.parenClose, c⟩], ?_, .call ha, ?_⟩
    · simp
    · simp [extent_cons]
  | case2 t p rest hne =>
    rw [expression] at h
    · obtain ⟨⟨o, stop⟩, s, _, hx, h⟩ := h.of_bind
      obtain ⟨rfl, rfl⟩ : ⟨.operand o, p.start, stop⟩ = e ∧ s = r := Reads.pure.unique h
      obtain ⟨ts, e, ho, rfl⟩ := operand_sound hx
      refine ⟨ts, e, .operand ho, ?_⟩
      -- The first token of the operand is the one that was looked at.
      cases ho <;> cases e <;> simp [extent_cons]
    · assumption
  | case3 => exact absurd h not_reads_error

/-- The end of a tag that is read is there. -/
theorem closing_sound {continues : List Expectation} {e : Nat} {toks r : Tokens}
    (h : Reads (closing continues toks) e r) : ∃ q, toks = ⟨.tagClose, q⟩ :: r ∧ e = q.stop := by
  fun_cases closing continues toks with
  | case1 q =>
    obtain ⟨rfl, rfl⟩ := Reads.ok.unique h
    exact ⟨q, rfl, rfl⟩
  | case2 =>
    rw [closing] at h
    · exact absurd h not_reads_error
    · assumption

/-- A tag that is read holds an expression and is closed. -/
theorem tag_sound {toks r : Tokens} {e : Located Expr} {stop : Nat}
    (h : Reads (tag toks) (e, stop) r) :
    ∃ es q, toks = es ++ ⟨.tagClose, q⟩ :: r ∧ Expression es e.item ∧ e.span = extent es ∧
      stop = q.stop := by
  rw [tag] at h
  obtain ⟨e', s, _, he, h⟩ := h.of_bind
  obtain ⟨stop', s', _, hc, h⟩ := h.of_bind
  obtain ⟨ea, rfl⟩ : (e', stop') = (e, stop) ∧ s' = r := Reads.pure.unique h
  cases ea
  obtain ⟨es, rfl, hes, hspan⟩ := expression_sound he
  obtain ⟨q, rfl, rfl⟩ := closing_sound hc
  exact ⟨es, q, rfl, hes, hspan, rfl⟩

/-- The block that ends a conditional is there if it is read. -/
theorem endBlock_sound {toks r : Tokens} {e : Nat} (h : Reads (endBlock toks) e r) :
    ∃ x y z, toks = mark .kwEnd x y z ++ r ∧ e = z.stop := by
  fun_cases endBlock toks with
  | case1 x y rest =>
    obtain ⟨stop, s, _, hc, h⟩ := h.of_bind
    obtain ⟨rfl, rfl⟩ : stop = e ∧ s = r := Reads.pure.unique h
    obtain ⟨z, rfl, rfl⟩ := closing_sound hc
    exact ⟨x, y, z, rfl, rfl⟩
  | case2 =>
    rw [endBlock] at h
    · exact absurd h not_reads_error
    · assumption

/-- The tokens go on from the keyword of a conditional to its end, and say what `c` holds. -/
def Completes (us : Tokens) (c : Branches) : Prop :=
  ∀ (p q : Span) (negated : Bool) (ts : Tokens) (rest : Body), Nodes ts rest →
    Nodes (⟨.blockOpen, p⟩ :: ⟨opening negated, q⟩ :: (us ++ ts))
      (.conditional ⟨p.start, c.stop⟩ negated c.condition c.thenBranch c.elseBranch rest)

/-- What is read as a body at some tokens is derivable, and the tokens after it end it. -/
def BodySound (place : Place) (toks : Tokens) : Prop :=
  ∀ b r, Reads (body place toks) b r → ∃ ts, toks = ts ++ r ∧ Nodes ts b ∧ Ends place r

/-- What is read as the branches of a conditional at some tokens completes it. -/
def BranchesSound (toks : Tokens) : Prop :=
  ∀ c r, Reads (branches toks) c r → ∃ us, toks = us ++ r ∧ Completes us c

/-- A conditional that is read with what follows it is read in two steps. -/
theorem of_body_conditional {place : Place} {negated : Bool} {p q : Span} {toks s : Tokens}
    {b : Body}
    (h : Reads (body place (⟨.blockOpen, p⟩ :: ⟨opening negated, q⟩ :: toks)) b s) :
    ∃ c r more, r.length < toks.length ∧ Reads (branches toks) c r ∧ Reads (body place r) more s ∧
      b = .conditional ⟨p.start, c.stop⟩ negated c.condition c.thenBranch c.elseBranch more := by
  cases negated with
  | false =>
    rw [opening, if_neg Bool.false_ne_true, body] at h
    obtain ⟨c, r, hr, hc, h⟩ := h.of_bind
    obtain ⟨more, t, _, hm, h⟩ := h.of_bind
    obtain ⟨rfl, rfl⟩ : _ = b ∧ t = s := Reads.pure.unique h
    exact ⟨c, r, more, hr, hc, hm, rfl⟩
  | true =>
    rw [opening, if_pos rfl, body] at h
    obtain ⟨c, r, hr, hc, h⟩ := h.of_bind
    obtain ⟨more, t, _, hm, h⟩ := h.of_bind
    obtain ⟨rfl, rfl⟩ : _ = b ∧ t = s := Reads.pure.unique h
    exact ⟨c, r, more, hr, hc, hm, rfl⟩

/-- Reading a conditional is sound if reading its branches and what follows it is. -/
theorem bodySound_conditional {place : Place} {p q : Span} {toks : Tokens}
    (hb : BranchesSound toks) (ih : ∀ c : Taken Branches toks.length, BodySound place c.rest)
    (negated : Bool) : BodySound place (⟨.blockOpen, p⟩ :: ⟨opening negated, q⟩ :: toks) := by
  intro b s h
  obtain ⟨c, r, more, hr, hc, hm, rfl⟩ := of_body_conditional h
  obtain ⟨us, rfl, hus⟩ := hb c r hc
  obtain ⟨ts, rfl, hn, he⟩ := ih ⟨c, r, hr⟩ more s hm
  exact ⟨_, by simp, hus p q negated ts more hn, he⟩

/-- Reading the branches of a conditional is sound if reading each of them is. -/
theorem branchesSound {toks : Tokens}
    (ihx : ∀ t : Taken (Located Expr × Nat) toks.length, BodySound .thenBranch t.rest)
    (ihy : ∀ (t : Taken (Located Expr × Nat) toks.length) (x : Taken Body (t.rest.length + 1))
      (p q : Span) (rest : Tokens), x.rest = ⟨.blockOpen, p⟩ :: ⟨.kwElse, q⟩ :: rest →
      ∀ m : Taken Nat rest.length, BodySound .elseBranch m.rest) : BranchesSound toks := by
  intro c s h
  rw [branches] at h
  obtain ⟨⟨⟨e, w⟩, stop⟩, r, hr, ht, h⟩ := h.of_bind
  obtain ⟨x, r', hr', hx, h⟩ := h.of_bind
  obtain ⟨es, q, rfl, hes, rfl, rfl⟩ := tag_sound ht
  obtain ⟨xs, rfl, hxs, -⟩ := ihx ⟨_, r, hr⟩ _ _ hx
  -- The first branch ends at a block with `else`, or at the one that ends the conditional.
  simp only at h
  split at h
  · rename_i u v _ _ _
    obtain ⟨stop, rm, hm, hc, h⟩ := h.of_bind
    obtain ⟨y, ry, _, hy, h⟩ := h.of_bind
    obtain ⟨stop', r', _, he, h⟩ := h.of_bind
    obtain ⟨rfl, rfl⟩ : ⟨⟨e, extent es⟩, x, y, stop'⟩ = c ∧ r' = s := Reads.pure.unique h
    obtain ⟨w, rfl, rfl⟩ := closing_sound hc
    obtain ⟨ys, rfl, hys, -⟩ := ihy ⟨_, _, hr⟩ ⟨x, _, hr'⟩ u v _ rfl ⟨_, _, hm⟩ _ _ hy
    obtain ⟨x', y', z, rfl, rfl⟩ := endBlock_sound he
    refine ⟨es ++ ⟨.tagClose, q⟩ :: xs ++ mark .kwElse u v w ++ ys ++ mark .kwEnd x' y' z,
      by simp [mark], ?_⟩
    intro p q negated ts rest hn
    simpa using Nodes.alternative hes hxs hys hn
  · obtain ⟨stop', r', _, he, h⟩ := h.of_bind
    obtain ⟨rfl, rfl⟩ : ⟨⟨e, extent es⟩, x, .nil, stop'⟩ = c ∧ r' = s := Reads.pure.unique h
    obtain ⟨x', y', z, rfl, rfl⟩ := endBlock_sound he
    refine ⟨es ++ ⟨.tagClose, q⟩ :: xs ++ mark .kwEnd x' y' z, by simp, ?_⟩
    intro p q negated ts rest hn
    simpa using Nodes.conditional hes hxs hn

/-- Whatever the tokens, reading them as a body or as the branches of a conditional is sound. -/
theorem sound : (∀ place toks, BodySound place toks) ∧ ∀ toks, BranchesSound toks := by
  -- The cases are those of the reader: no token, text, the three openings, what ends a body where it
  -- stands, and what can stand nowhere.
  apply body.mutual_induct BodySound BranchesSound
  case case1 =>
    intro b r h
    rw [body, if_pos rfl] at h
    obtain ⟨rfl, rfl⟩ := Reads.ok.unique h
    exact ⟨[], rfl, .nil, rfl⟩
  case case2 =>
    intro place hp b r h
    rw [body, if_neg hp] at h
    exact absurd h not_reads_error
  case case3 =>
    intro place s p rest ih b r h
    rw [body] at h
    obtain ⟨more, t, _, hm, h⟩ := h.of_bind
    obtain ⟨rfl, rfl⟩ : .text p s more = b ∧ t = r := Reads.pure.unique h
    obtain ⟨ts, rfl, hn, he⟩ := ih _ _ hm
    exact ⟨_ :: ts, rfl, .text hn, he⟩
  case case4 =>
    intro place p rest ih b r h
    rw [body] at h
    obtain ⟨⟨⟨e, w⟩, stop⟩, s, hs, ht, h⟩ := h.of_bind
    obtain ⟨more, t, _, hm, h⟩ := h.of_bind
    obtain ⟨rfl, rfl⟩ : .output ⟨p.start, stop⟩ ⟨e, w⟩ more = b ∧ t = r := Reads.pure.unique h
    obtain ⟨es, q, rfl, hes, rfl, rfl⟩ := tag_sound ht
    obtain ⟨ts, rfl, hn, he⟩ := ih ⟨_, s, hs⟩ _ _ hm
    exact ⟨⟨.outputOpen, p⟩ :: es ++ ⟨.tagClose, q⟩ :: ts, by simp, .output hes hn, he⟩
  case case5 =>
    intro place p rest ih b r h
    rw [body] at h
    obtain ⟨⟨⟨e, w⟩, stop⟩, s, hs, ht, h⟩ := h.of_bind
    obtain ⟨more, t, _, hm, h⟩ := h.of_bind
    obtain ⟨rfl, rfl⟩ : .raw ⟨p.start, stop⟩ ⟨e, w⟩ more = b ∧ t = r := Reads.pure.unique h
    obtain ⟨es, q, rfl, hes, rfl, rfl⟩ := tag_sound ht
    obtain ⟨ts, rfl, hn, he⟩ := ih ⟨_, s, hs⟩ _ _ hm
    exact ⟨⟨.rawOpen, p⟩ :: es ++ ⟨.tagClose, q⟩ :: ts, by simp, .raw hes hn, he⟩
  case case6 =>
    intro place p q rest hb ih
    exact bodySound_conditional hb ih false
  case case7 =>
    intro place p q rest hb ih
    exact bodySound_conditional hb ih true
  case case8 =>
    intro p q rest b r h
    rw [body, if_pos rfl] at h
    obtain ⟨rfl, rfl⟩ := Reads.ok.unique h
    exact ⟨[], rfl, .nil, p, q, rest, .inl rfl⟩
  case case9 =>
    intro place p q rest hp b r h
    rw [body, if_neg hp] at h
    exact absurd h not_reads_error
  case case10 =>
    intro p q rest b r h
    rw [body, if_pos rfl] at h
    exact absurd h not_reads_error
  case case11 =>
    intro place p q rest hp b r h
    rw [body, if_neg hp] at h
    obtain ⟨rfl, rfl⟩ := Reads.ok.unique h
    refine ⟨[], rfl, .nil, ?_⟩
    cases place with
    | top => exact absurd rfl hp
    | thenBranch => exact ⟨p, q, rest, .inr rfl⟩
    | elseBranch => exact ⟨p, q, rest, rfl⟩
  case case12 =>
    intro place p rest _ _ _ _ b r h
    rw [body] at h
    · exact absurd h not_reads_error
    all_goals assumption
  case case13 =>
    intro place toks _ _ _ _ _ _ _ _ _ b r h
    rw [body] at h
    · exact absurd h not_reads_error
    all_goals assumption
  case case14 =>
    intro toks ihx ihy
    exact branchesSound ihx ihy

/-- What is read as a body is derivable, and the tokens after it end it. -/
theorem body_sound {place : Place} {toks r : Tokens} {b : Body} (h : Reads (body place toks) b r) :
    ∃ ts, toks = ts ++ r ∧ Nodes ts b ∧ Ends place r :=
  sound.1 place toks b r h

end Stencil.Reader

namespace Stencil

/-- The tree that a source is parsed to is derivable from its tokens. -/
theorem nodes_of_parse {source : String} {b : Body} (h : parse source = .ok b) :
    Grammar.Nodes (tokenize source) b := by
  unfold parse at h
  generalize tokenize source = toks at h ⊢
  simp only at h
  split at h
  · rename_i t ht
    cases h
    obtain ⟨b, r, hr⟩ := t
    have hread : Reader.Reads (Reader.body .top toks) b r := ⟨hr, ht⟩
    obtain ⟨ts, rfl, hn, rfl⟩ := Reader.body_sound hread
    simpa using hn
  · cases h

end Stencil
