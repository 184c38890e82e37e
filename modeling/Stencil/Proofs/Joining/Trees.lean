import Stencil.Proofs.Printing.Tokens
import Stencil.Proofs.Reading.Faults

/-!
# Trees of joined tokens

What is read from tokens behind a template depends on nothing in the template, and the tree that
tokens describe depends on nothing in their places but its own places. Main statements:
`Nodes.of_items`, on tokens at other places; `Nodes.cancel_left`, by which the nodes of a template can be
taken off the front of a longer one; and `Nodes.exists_of_append_text`, by which a text can be taken
off the end.
-/

namespace Stencil.Grammar

variable {ts us : List (Located Token)}

/-! ### Tokens at other places -/

/-- The names of steps do not depend on places. -/
theorem Steps.of_items {names : List String} (h : Steps ts names) (e : items us = items ts) :
    Steps us names := by
  induction h generalizing us with
  | nil =>
    cases items_eq_nil e
    exact .nil
  | cons _ ih =>
    obtain ⟨p, vs, rfl, e₁⟩ := items_eq_cons e
    obtain ⟨q, ws, rfl, e₂⟩ := items_eq_cons e₁
    exact .cons (ih e₂)

/-- An operand does not depend on places. -/
theorem Argument.of_items {o : Operand} (h : Argument ts o) (e : items us = items ts) :
    Argument us o := by
  cases h with
  | str =>
    obtain ⟨p, vs, rfl, e₁⟩ := items_eq_cons e
    cases items_eq_nil e₁
    exact .str
  | int =>
    obtain ⟨p, vs, rfl, e₁⟩ := items_eq_cons e
    cases items_eq_nil e₁
    exact .int
  | path h =>
    obtain ⟨p, vs, rfl, e₁⟩ := items_eq_cons e
    exact .path (h.of_items e₁)

/-- Operands do not depend on places. -/
theorem Arguments.of_items {args : List Operand} (h : Arguments ts args) (e : items us = items ts) :
    Arguments us args := by
  induction h generalizing us with
  | nil =>
    cases items_eq_nil e
    exact .nil
  | last h => exact .last (h.of_items e)
  | cons h _ ih =>
    rw [items_append, items_cons] at e
    obtain ⟨vs, ws, rfl, e₁, e₂⟩ := items_eq_append e
    obtain ⟨p, ws, rfl, e₃⟩ := items_eq_cons e₂
    exact .cons (h.of_items e₁) (ih e₃)

/-- An expression does not depend on places. -/
theorem Expression.of_items {x : Expr} (h : Expression ts x) (e : items us = items ts) :
    Expression us x := by
  cases h with
  | operand h => exact .operand (h.of_items e)
  | call h =>
    rw [items_append, items_cons, items_cons] at e
    obtain ⟨vs, ws, rfl, e₁, e₂⟩ := items_eq_append e
    obtain ⟨p, vs, rfl, e₃⟩ := items_eq_cons e₁
    obtain ⟨q, vs, rfl, e₄⟩ := items_eq_cons e₃
    obtain ⟨r, ws, rfl, e₅⟩ := items_eq_cons e₂
    cases items_eq_nil e₅
    exact .call (h.of_items e₄)

/-- A tag, without the token that opens it, does not depend on places. -/
theorem tag_of_items_eq {es xs : List (Located Token)} {x : Expr} {q : Span} (h : Expression es x)
    (e : items us = items (es ++ ⟨.tagClose, q⟩ :: xs)) :
    ∃ es' q' xs', us = es' ++ ⟨.tagClose, q'⟩ :: xs' ∧ Expression es' x ∧
      items xs' = items xs := by
  rw [items_append, items_cons] at e
  obtain ⟨es', ws, rfl, e₁, e₂⟩ := items_eq_append e
  obtain ⟨q', xs', rfl, e₃⟩ := items_eq_cons e₂
  exact ⟨es', q', xs', rfl, h.of_items e₁, e₃⟩

/-- A block with nothing but a keyword does not depend on places. -/
theorem mark_of_items_eq {keyword : Token} {x y z : Span} {xs : List (Located Token)}
    (e : items us = items (mark keyword x y z ++ xs)) :
    ∃ x' y' z' xs', us = mark keyword x' y' z' ++ xs' ∧ items xs' = items xs := by
  rw [items_append] at e
  obtain ⟨ms, xs', rfl, e₁, e₂⟩ := items_eq_append e
  obtain ⟨x', y', z', rfl⟩ := mark_of_items e₁
  exact ⟨x', y', z', xs', rfl, e₂⟩

/-- Tokens that are the same but for their places describe trees that say the same. -/
theorem Nodes.of_items {b : Body} (h : Nodes ts b) (e : items us = items ts) :
    ∃ b', Nodes us b' ∧ b'.unplaced = b.unplaced := by
  induction h generalizing us with
  | nil =>
    cases items_eq_nil e
    exact ⟨.nil, .nil, rfl⟩
  | @text _ s _ _ _ ih =>
    obtain ⟨p, vs, rfl, e₁⟩ := items_eq_cons e
    obtain ⟨b', hn, hb⟩ := ih e₁
    exact ⟨_, .text hn, congrArg (Body.text ⟨0, 0⟩ s) hb⟩
  | @output _ _ _ _ x _ he _ ih =>
    obtain ⟨p, vs, rfl, e₁⟩ := items_eq_cons e
    obtain ⟨es, q, ws, rfl, he', e₂⟩ := tag_of_items_eq he e₁
    obtain ⟨b', hn, hb⟩ := ih e₂
    exact ⟨_, .output he' hn, congrArg (Body.output ⟨0, 0⟩ ⟨x, ⟨0, 0⟩⟩) hb⟩
  | @raw _ _ _ _ x _ he _ ih =>
    obtain ⟨p, vs, rfl, e₁⟩ := items_eq_cons e
    obtain ⟨es, q, ws, rfl, he', e₂⟩ := tag_of_items_eq he e₁
    obtain ⟨b', hn, hb⟩ := ih e₂
    exact ⟨_, .raw he' hn, congrArg (Body.raw ⟨0, 0⟩ ⟨x, ⟨0, 0⟩⟩) hb⟩
  | @conditional _ _ _ _ _ _ negated _ _ _ x _ _ he _ _ ihx ih =>
    simp only [List.cons_append, List.append_assoc] at e
    obtain ⟨p, vs, rfl, e₁⟩ := items_eq_cons e
    obtain ⟨q, vs, rfl, e₂⟩ := items_eq_cons e₁
    obtain ⟨es, r, ws, rfl, he', e₃⟩ := tag_of_items_eq he e₂
    rw [items_append] at e₃
    obtain ⟨xs, ws, rfl, e₄, e₅⟩ := items_eq_append e₃
    obtain ⟨x', y', z', ws, rfl, e₆⟩ := mark_of_items_eq e₅
    obtain ⟨b₁, hn₁, hb₁⟩ := ihx e₄
    obtain ⟨b₂, hn₂, hb₂⟩ := ih e₆
    have hnodes := @Nodes.conditional p q r x' y' z' negated _ _ _ _ _ _ he' hn₁ hn₂
    simp only [List.cons_append, List.append_assoc] at hnodes
    refine ⟨_, hnodes, ?_⟩
    show Body.conditional ⟨0, 0⟩ negated ⟨x, ⟨0, 0⟩⟩ b₁.unplaced .nil b₂.unplaced = _
    rw [hb₁, hb₂]
    rfl
  | @alternative _ _ _ _ _ _ _ _ _ negated _ _ _ _ x _ _ _ he _ _ _ ihx ihy ih =>
    simp only [List.cons_append, List.append_assoc] at e
    obtain ⟨p, vs, rfl, e₁⟩ := items_eq_cons e
    obtain ⟨q, vs, rfl, e₂⟩ := items_eq_cons e₁
    obtain ⟨es, r, ws, rfl, he', e₃⟩ := tag_of_items_eq he e₂
    rw [items_append] at e₃
    obtain ⟨xs, ws, rfl, e₄, e₅⟩ := items_eq_append e₃
    obtain ⟨u, v, w, ws, rfl, e₆⟩ := mark_of_items_eq e₅
    rw [items_append] at e₆
    obtain ⟨ys, ws, rfl, e₇, e₈⟩ := items_eq_append e₆
    obtain ⟨x', y', z', ws, rfl, e₉⟩ := mark_of_items_eq e₈
    obtain ⟨b₁, hn₁, hb₁⟩ := ihx e₄
    obtain ⟨b₂, hn₂, hb₂⟩ := ihy e₇
    obtain ⟨b₃, hn₃, hb₃⟩ := ih e₉
    have hnodes := @Nodes.alternative p q r u v w x' y' z' negated _ _ _ _ _ _ _ _ he' hn₁ hn₂ hn₃
    simp only [List.cons_append, List.append_assoc] at hnodes
    refine ⟨_, hnodes, ?_⟩
    show Body.conditional ⟨0, 0⟩ negated ⟨x, ⟨0, 0⟩⟩ b₁.unplaced b₂.unplaced b₃.unplaced = _
    rw [hb₁, hb₂, hb₃]
    rfl

end Stencil.Grammar

namespace Stencil.Reader

open Grammar

variable {place : Place} {e : Expr} {q u v w x y z : Span} {es xs ys r us s : Tokens}
  {a b c : Body}

/-! ### Tokens behind a template -/

/-- The branches of a conditional without `else` are read. -/
theorem branches_conditional (he : Expression es e) (hx : Nodes xs a) :
    Reads (branches (es ++ ⟨.tagClose, q⟩ :: (xs ++ (mark .kwEnd x y z ++ r))))
      ⟨⟨e, extent es⟩, a, .nil, z.stop⟩ r := by
  rw [branches]
  refine (tag_append he _ _).bind fun _ => ?_
  refine (body_append hx .thenBranch ⟨x, y, _, .inr rfl⟩).bind fun _ => ?_
  exact (endBlock_mark x y z r).bind fun _ => .pure

/-- The branches of a conditional with `else` are read. -/
theorem branches_alternative (he : Expression es e) (hx : Nodes xs a) (hy : Nodes ys b) :
    Reads (branches (es ++ ⟨.tagClose, q⟩ :: (xs ++ (mark .kwElse u v w ++
      (ys ++ (mark .kwEnd x y z ++ r)))))) ⟨⟨e, extent es⟩, a, b, z.stop⟩ r := by
  rw [branches]
  refine (tag_append he _ _).bind fun _ => ?_
  refine (body_append hx .thenBranch ⟨u, v, _, .inl rfl⟩).bind fun _ => ?_
  refine Reads.bind (a := w.stop) .ok fun _ => ?_
  refine (body_append hy .elseBranch ⟨x, y, _, rfl⟩).bind fun _ => ?_
  exact (endBlock_mark x y z r).bind fun _ => .pure

/-- What is read from the tokens of a template and others behind them is the template, and then what is
read from the others. -/
theorem reads_of_append {ts : Tokens} (h : Nodes ts a) (hc : Reads (body place (ts ++ us)) c s) :
    ∃ b, Reads (body place us) b s ∧ c = a.append b := by
  -- Each node is read as it is in the template, and then the rest of the template is in front.
  generalize e : ts ++ us = toks at hc
  induction h generalizing c toks with
  | nil =>
    subst e
    exact ⟨c, hc, rfl⟩
  | text _ ih =>
    subst e
    rw [List.cons_append, body] at hc
    obtain ⟨more, r, _, hmore, hc⟩ := hc.of_bind
    obtain ⟨rfl, rfl⟩ := Reads.pure.unique hc
    obtain ⟨b, hb, rfl⟩ := ih _ rfl hmore
    exact ⟨b, hb, rfl⟩
  | output he _ ih | raw he _ ih =>
    simp only [List.cons_append, List.append_assoc] at e
    subst e
    rw [body] at hc
    obtain ⟨t, r, _, ht, hc⟩ := hc.of_bind
    obtain ⟨rfl, rfl⟩ := ht.unique (tag_append he _ _)
    obtain ⟨more, r, _, hmore, hc⟩ := hc.of_bind
    obtain ⟨rfl, rfl⟩ := Reads.pure.unique hc
    obtain ⟨b, hb, rfl⟩ := ih _ rfl hmore
    exact ⟨b, hb, rfl⟩
  | conditional he hx _ _ ih =>
    simp only [List.cons_append, List.append_assoc] at e
    subst e
    obtain ⟨_, _, more, -, hbranches, hmore, rfl⟩ := of_body_conditional hc
    obtain ⟨rfl, rfl⟩ := hbranches.unique (branches_conditional he hx)
    obtain ⟨b, hb, rfl⟩ := ih _ rfl hmore
    exact ⟨b, hb, rfl⟩
  | alternative he hx hy _ _ _ ih =>
    simp only [List.cons_append, List.append_assoc] at e
    subst e
    obtain ⟨_, _, more, -, hbranches, hmore, rfl⟩ := of_body_conditional hc
    obtain ⟨rfl, rfl⟩ := hbranches.unique (branches_alternative he hx hy)
    obtain ⟨b, hb, rfl⟩ := ih _ rfl hmore
    exact ⟨b, hb, rfl⟩

end Stencil.Reader

namespace Stencil.Grammar

variable {ts us : List (Located Token)} {a b c : Body}

/-- The nodes of a template can be taken off the front of a longer one. -/
theorem Nodes.cancel_left (ha : Nodes ts a) (hc : Nodes (ts ++ us) c) :
    ∃ b, Nodes us b ∧ c = a.append b := by
  have hread := Reader.body_append hc .top (r := []) rfl
  rw [List.append_nil] at hread
  obtain ⟨b, hb, rfl⟩ := Reader.reads_of_append ha hread
  obtain ⟨vs, hvs, hn, -⟩ := Reader.body_sound hb
  rw [List.append_nil] at hvs
  exact ⟨b, hvs ▸ hn, rfl⟩

/-- The last token stands behind any other one. -/
theorem exists_of_append_singleton {xs vs : List (Located Token)} {t u : Located Token}
    (h : xs ++ u :: vs = us ++ [t]) (hne : u ≠ t) :
    ∃ ws, vs = ws ++ [t] ∧ us = xs ++ u :: ws := by
  rcases List.eq_nil_or_concat vs with rfl | ⟨ws, v, rfl⟩
  · obtain ⟨-, hlast⟩ := List.append_inj' h rfl
    exact absurd (List.cons.inj hlast).1 hne
  · have h' : (xs ++ u :: ws) ++ [v] = us ++ [t] := by
      rw [← h, List.concat_eq_append, List.append_assoc, List.cons_append]
    obtain ⟨hinit, hlast⟩ := List.append_inj' h' rfl
    obtain ⟨rfl, -⟩ := List.cons.inj hlast
    exact ⟨ws, List.concat_eq_append, hinit.symm⟩

/-- A text can be taken off the end of a template. -/
theorem Nodes.exists_of_append_text {s : String} {p : Span} (h : Nodes (ts ++ [⟨.text s, p⟩]) c) :
    ∃ a, Nodes ts a ∧ c = a.append (.text p s .nil) := by
  -- The text is the last node, or the last of those behind the first node: no tag ends with a text.
  generalize e : ts ++ [⟨.text s, p⟩] = vs at h
  induction h generalizing ts with
  | nil => simp at e
  | @text q s' vs rest hrest ih =>
    cases ts with
    | nil =>
      obtain ⟨hnode, rfl⟩ := List.cons.inj e
      cases hnode
      cases hrest
      exact ⟨.nil, .nil, rfl⟩
    | cons t ts =>
      obtain ⟨rfl, htail⟩ := List.cons.inj e
      obtain ⟨a, ha, rfl⟩ := ih htail
      exact ⟨_, .text ha, rfl⟩
  | output he _ ih =>
    obtain ⟨ws, hws, rfl⟩ := exists_of_append_singleton e.symm (by simp)
    obtain ⟨a, ha, rfl⟩ := ih hws.symm
    exact ⟨_, .output he ha, rfl⟩
  | raw he _ ih =>
    obtain ⟨ws, hws, rfl⟩ := exists_of_append_singleton e.symm (by simp)
    obtain ⟨a, ha, rfl⟩ := ih hws.symm
    exact ⟨_, .raw he ha, rfl⟩
  | @conditional p₁ q₁ r₁ x y z negated es xs vs x₁ _ _ he hx _ _ ih =>
    have hsplit : ⟨.blockOpen, p₁⟩ :: ⟨opening negated, q₁⟩ :: es ++ ⟨.tagClose, r₁⟩ :: xs ++
        [⟨.blockOpen, x⟩, ⟨.kwEnd, y⟩] ++ ⟨.tagClose, z⟩ :: vs = ts ++ [⟨.text s, p⟩] := by
      rw [e]
      simp [mark]
    obtain ⟨ws, hws, rfl⟩ := exists_of_append_singleton hsplit (by simp)
    obtain ⟨a, ha, rfl⟩ := ih hws.symm
    have hnodes := @Nodes.conditional p₁ q₁ r₁ x y z negated _ _ _ _ _ _ he hx ha
    refine ⟨_, by simpa [mark] using hnodes, rfl⟩
  | @alternative p₁ q₁ r₁ u v w x y z negated es xs ys vs x₁ _ _ _ he hx hy _ _ _ ih =>
    have hsplit : ⟨.blockOpen, p₁⟩ :: ⟨opening negated, q₁⟩ :: es ++ ⟨.tagClose, r₁⟩ :: xs ++
        mark .kwElse u v w ++ ys ++ [⟨.blockOpen, x⟩, ⟨.kwEnd, y⟩] ++ ⟨.tagClose, z⟩ :: vs =
          ts ++ [⟨.text s, p⟩] := by
      rw [e]
      simp [mark]
    obtain ⟨ws, hws, rfl⟩ := exists_of_append_singleton hsplit (by simp)
    obtain ⟨a, ha, rfl⟩ := ih hws.symm
    have hnodes := @Nodes.alternative p₁ q₁ r₁ u v w x y z negated _ _ _ _ _ _ _ _ he hx hy ha
    refine ⟨_, by simpa [mark] using hnodes, rfl⟩

end Stencil.Grammar
