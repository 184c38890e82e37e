import Stencil.Template.Grammar
import Stencil.Template.Parse

/-!
# Derivable templates are read

The reader takes one decision at each token, while the grammar only says which sequences of tokens
are templates. Main statement: `body_append`, by which the reader finds every derivation, whatever
follows the derived tokens, as long as that ends a body where the body stands. With nothing after
them, `parse_of_nodes` says that a source whose tokens are derivable is parsed, and to which tree.
-/

namespace Stencil.Reader

open Grammar

/-- Reading yields `a` and leaves `rest`. -/
def Reads {α : Type} {bound : Nat} (x : Except Stuck (Taken α bound)) (a : α) (rest : Tokens) :
    Prop :=
  ∃ h, x = .ok ⟨a, rest, h⟩

section Reads

variable {α β : Type} {m n : Nat} {a b : α} {r s : Tokens}

/-- What is given back without reading is read. -/
theorem Reads.pure {h : r.length < n} : Reads (Pure.pure ⟨a, r, h⟩) a r := ⟨h, rfl⟩

/-- What has succeeded is read. -/
theorem Reads.ok {h : r.length < n} : Reads (.ok ⟨a, r, h⟩) a r := ⟨h, rfl⟩

/-- Reading goes on with what has been read. -/
theorem Reads.bind {x : Except Stuck (Taken α m)} {f : Taken α m → Except Stuck (Taken β n)}
    {c : β} (hx : Reads x a r) (hf : ∀ h, Reads (f ⟨a, r, h⟩) c s) : Reads (x >>= f) c s := by
  obtain ⟨h, rfl⟩ := hx
  exact hf h

/-- Reading has one outcome. -/
theorem Reads.unique {x : Except Stuck (Taken α n)} (ha : Reads x a r) (hb : Reads x b s) :
    a = b ∧ r = s := by
  obtain ⟨_, rfl⟩ := ha
  obtain ⟨_, e⟩ := hb
  simpa using e

/-- If reading in two steps succeeds then each step does. -/
theorem Reads.of_bind {x : Except Stuck (Taken α m)} {f : Taken α m → Except Stuck (Taken β n)}
    {c : β} (h : Reads (x >>= f) c s) : ∃ a r h, Reads x a r ∧ Reads (f ⟨a, r, h⟩) c s := by
  cases x with
  | error e =>
    obtain ⟨_, h⟩ := h
    cases h
  | ok t => exact ⟨t.item, t.rest, t.shorter, .ok, h⟩

/-- A failure reads nothing. -/
theorem not_reads_error {e : Stuck} : ¬ Reads (.error e : Except Stuck (Taken α n)) a r := by
  rintro ⟨_, h⟩
  cases h

end Reads

/-- Where the last of some tokens ends; `start` if there are none. -/
def endOf (start : Nat) (ts : Tokens) : Nat := (ts.getLast?.map (·.span.stop)).getD start

@[simp] theorem endOf_nil (start : Nat) : endOf start [] = start := rfl

@[simp] theorem endOf_cons (start : Nat) (t : Located Token) (ts : Tokens) :
    endOf start (t :: ts) = endOf t.span.stop ts := by
  cases h : ts.getLast? <;> simp [endOf, List.getLast?_cons, h]

@[simp] theorem endOf_append (start : Nat) (ts us : Tokens) :
    endOf start (ts ++ us) = endOf (endOf start ts) us := by
  induction ts generalizing start with
  | nil => rfl
  | cons t ts ih => simp [ih]

/-- The extent of tokens runs from the start of the first to the end of the last. -/
theorem extent_cons (t : Located Token) (ts : Tokens) :
    extent (t :: ts) = ⟨t.span.start, endOf t.span.stop ts⟩ := by
  cases h : ts.getLast? <;> simp [extent, endOf, List.getLast?_cons, h]

/-- Tokens that no point goes on from. -/
def NoDot (ts : Tokens) : Prop := ∀ p us, ts ≠ ⟨.dot, p⟩ :: us

/-- All steps are read, up to a token that is no point. -/
theorem steps_append {ts r : Tokens} {names : List String} (h : Steps ts names) (hr : NoDot r)
    (stop : Nat) : Reads (steps stop (ts ++ r)) (names, endOf stop ts) r := by
  induction h generalizing stop with
  | nil =>
    rw [List.nil_append, steps]
    · exact .ok
    · exact fun p _ _ us => hr p (_ :: us)
    · exact hr
  | cons _ ih =>
    simp only [List.cons_append, steps, endOf_cons]
    exact (ih _).bind fun _ => .pure

/-- An operand is read, up to a token that is no point. -/
theorem operand_append {ts r : Tokens} {o : Operand} (h : Argument ts o) (hr : NoDot r)
    (expected : List Expectation) : Reads (operand expected (ts ++ r)) (o, endOf 0 ts) r := by
  cases h with
  | str => exact .ok
  | int => exact .ok
  | path h =>
    simp only [List.cons_append, operand, endOf_cons]
    exact (steps_append h hr _).bind fun _ => .pure

/-- Where an operand can be read there is no closing parenthesis. -/
theorem ne_parenClose_of_operand {toks r : Tokens} {expected : List Expectation}
    {a : Operand × Nat} (h : Reads (operand expected toks) a r) (p : Span) (us : Tokens) :
    toks ≠ ⟨.parenClose, p⟩ :: us := by
  rintro rfl
  obtain ⟨_, e⟩ := h
  simp [operand] at e

/-- Arguments are read, up to the parenthesis that closes them. -/
theorem arguments_append {ts : Tokens} {args : List Operand} (h : Arguments ts args) (p : Span)
    (r : Tokens) : Reads (arguments (ts ++ ⟨.parenClose, p⟩ :: r)) (args, p.stop) r := by
  induction h with
  | nil =>
    rw [List.nil_append, arguments]
    exact .ok
  | last ha =>
    have h := operand_append (r := ⟨.parenClose, p⟩ :: r) ha (by simp [NoDot]) [.token .parenClose]
    rw [arguments]
    · exact h.bind fun _ => .pure
    · exact ne_parenClose_of_operand h
  | @cons q ts us a as ha _ ih =>
    rw [List.append_assoc, List.cons_append]
    -- The comma ends the operand, and is in turn what the other operands stand behind.
    have h := operand_append (r := ⟨.comma, q⟩ :: (us ++ ⟨.parenClose, p⟩ :: r)) ha
      (by simp [NoDot]) [.token .parenClose]
    rw [arguments]
    · exact h.bind fun _ => ih.bind fun _ => .pure
    · exact ne_parenClose_of_operand h

/-- An expression is read, up to the token that closes its tag. -/
theorem expression_append {es : Tokens} {e : Expr} (h : Expression es e) (q : Span) (r : Tokens) :
    Reads (expression (es ++ ⟨.tagClose, q⟩ :: r)) ⟨e, extent es⟩ (⟨.tagClose, q⟩ :: r) := by
  cases h with
  | operand ho =>
    have h := operand_append (r := ⟨.tagClose, q⟩ :: r) ho (by simp [NoDot]) []
    cases ho with
    | str => exact .ok
    | int => exact .ok
    | path hs =>
      rw [extent_cons]
      rw [endOf_cons] at h
      rw [List.cons_append] at h ⊢
      -- No parenthesis follows the first word, so that it is no helper.
      rw [expression]
      · exact h.bind fun _ => .pure
      · rintro _ _ _ e -
        cases hs <;> simp at e
  | @call p₁ p₂ p₃ helper ts args h =>
    rw [List.append_assoc, List.cons_append, List.cons_append, List.cons_append, List.nil_append,
      expression]
    simp only [List.cons_append, extent_cons, endOf_cons, endOf_append, endOf_nil]
    exact (arguments_append h _ _).bind fun _ => .pure

/-- A tag is read from its expression to its end. -/
theorem tag_append {es : Tokens} {e : Expr} (h : Expression es e) (q : Span) (r : Tokens) :
    Reads (tag (es ++ ⟨.tagClose, q⟩ :: r)) (⟨e, extent es⟩, q.stop) r := by
  rw [tag]
  refine (expression_append h q r).bind fun _ => ?_
  exact Reads.bind (a := q.stop) (r := r) .ok fun _ => .pure

/-- The tokens at which a body ends where it stands. -/
def Ends : Place → Tokens → Prop
  | .top, ts => ts = []
  | .thenBranch, ts =>
    ∃ p q us, ts = ⟨.blockOpen, p⟩ :: ⟨.kwElse, q⟩ :: us ∨ ts = ⟨.blockOpen, p⟩ :: ⟨.kwEnd, q⟩ :: us
  | .elseBranch, ts => ∃ p q us, ts = ⟨.blockOpen, p⟩ :: ⟨.kwEnd, q⟩ :: us

/-- At the tokens that end a body nothing more is read. -/
theorem body_of_ends {place : Place} {r : Tokens} (h : Ends place r) :
    Reads (body place r) .nil r := by
  cases place with
  | top =>
    cases h
    rw [body]
    exact .ok
  | thenBranch =>
    obtain ⟨p, q, us, rfl | rfl⟩ := h
    · rw [body]
      exact .ok
    · rw [body]
      exact .ok
  | elseBranch =>
    obtain ⟨p, q, us, rfl⟩ := h
    rw [body]
    exact .ok

/-- A conditional is read with its branches, and then the body goes on. -/
theorem body_conditional {place : Place} {negated : Bool} {p q : Span} {toks r s : Tokens}
    {c : Branches} {b : Body} (hc : Reads (branches toks) c r) (hb : Reads (body place r) b s) :
    Reads (body place (⟨.blockOpen, p⟩ :: ⟨opening negated, q⟩ :: toks))
      (.conditional ⟨p.start, c.stop⟩ negated c.condition c.thenBranch c.elseBranch b) s := by
  cases negated with
  | false =>
    rw [opening, if_neg Bool.false_ne_true, body]
    exact hc.bind fun _ => hb.bind fun _ => .pure
  | true =>
    rw [opening, if_pos rfl, body]
    exact hc.bind fun _ => hb.bind fun _ => .pure

/-- The block that ends a conditional is read. -/
theorem endBlock_mark (x y z : Span) (r : Tokens) :
    Reads (endBlock (mark .kwEnd x y z ++ r)) z.stop r :=
  Reads.bind (a := z.stop) (r := r) .ok fun _ => .pure

/-- A body is read to the end of its derivation, whatever follows. -/
theorem body_append {ts : Tokens} {b : Body} (h : Nodes ts b) (place : Place) {r : Tokens}
    (hr : Ends place r) : Reads (body place (ts ++ r)) b r := by
  -- The rest is generalised: what follows a branch is a block, and not what ends the template.
  generalize e : ts ++ r = toks
  induction h generalizing place r toks with
  | nil =>
    subst e
    exact body_of_ends hr
  | text _ ih =>
    subst e
    rw [List.cons_append, body]
    exact (ih place hr _ rfl).bind fun _ => .pure
  | output he _ ih =>
    simp only [List.cons_append, List.append_assoc] at e
    subst e
    rw [body]
    exact (tag_append he _ _).bind fun _ => (ih place hr _ rfl).bind fun _ => .pure
  | raw he _ ih =>
    simp only [List.cons_append, List.append_assoc] at e
    subst e
    rw [body]
    exact (tag_append he _ _).bind fun _ => (ih place hr _ rfl).bind fun _ => .pure
  | @conditional _ _ _ x y z _ _ _ _ _ _ _ he _ _ ihx iht =>
    simp only [List.cons_append, List.append_assoc] at e
    subst e
    refine body_conditional (c := ⟨_, _, .nil, z.stop⟩) ?_ (iht place hr _ rfl)
    rw [branches]
    refine (tag_append he _ _).bind fun _ => ?_
    refine (ihx .thenBranch ⟨x, y, _, .inr rfl⟩ _ rfl).bind fun _ => ?_
    exact (endBlock_mark x y z _).bind fun _ => .pure
  | @alternative _ _ _ u v w x y z _ _ _ _ _ _ _ _ _ he _ _ _ ihx ihy iht =>
    simp only [List.cons_append, List.append_assoc] at e
    subst e
    refine body_conditional (c := ⟨_, _, _, z.stop⟩) ?_ (iht place hr _ rfl)
    rw [branches]
    refine (tag_append he _ _).bind fun _ => ?_
    refine (ihx .thenBranch ⟨u, v, _, .inl rfl⟩ _ rfl).bind fun _ => ?_
    refine Reads.bind (a := w.stop) .ok fun _ => ?_
    refine (ihy .elseBranch ⟨x, y, _, rfl⟩ _ rfl).bind fun _ => ?_
    exact (endBlock_mark x y z _).bind fun _ => .pure

end Stencil.Reader

namespace Stencil

/-- A source whose tokens are derivable is parsed to the tree of the derivation. -/
theorem parse_of_nodes {source : String} {b : Body} (h : Grammar.Nodes (tokenize source) b) :
    parse source = .ok b := by
  have hr := Reader.body_append h .top (r := []) rfl
  rw [List.append_nil] at hr
  obtain ⟨_, e⟩ := hr
  simp [parse, e]

end Stencil
