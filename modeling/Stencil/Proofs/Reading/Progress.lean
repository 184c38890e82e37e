import Stencil.Proofs.Reading.Faults

/-!
# Which tokens can go on

Whether a token can come next in a template is told by the conditionals that are open and by the
position within a node, as they are behind the tokens before it (`Progress`). Main statements:
`Nodes.advance`, by which derivable tokens can be read one after another and leave the progress as it
was, and `exists_run_start`, by which each progress leads to the end of a template.
-/

namespace Stencil.Grammar

/-- Where in a template the next token stands. -/
inductive Position where
  /-- Between nodes. -/
  | nodes
  /-- Behind the opening of a block. -/
  | keyword
  /-- Where an expression has to begin. -/
  | expression
  /-- Behind the first word of an expression, which is a helper if a parenthesis follows. -/
  | word
  /-- Behind a word of a path, in a call or outside of calls. -/
  | path (call : Bool)
  /-- Behind a point. -/
  | point (call : Bool)
  /-- Where an argument can begin, or else the call ends. -/
  | argument
  /-- Behind a literal in a call. -/
  | literal
  /-- Where a tag has to end. -/
  | close
  deriving DecidableEq

/-- The position behind a token; nothing if the token cannot stand there. -/
def positionAfter : Position → Token → Option Position
  | .nodes, .text _ => some .nodes
  | .nodes, .outputOpen => some .expression
  | .nodes, .rawOpen => some .expression
  | .nodes, .blockOpen => some .keyword
  | .keyword, .kwIf => some .expression
  | .keyword, .kwUnless => some .expression
  | .keyword, .kwElse => some .close
  | .keyword, .kwEnd => some .close
  | .expression, .str _ => some .close
  | .expression, .int _ => some .close
  | .expression, .ident _ => some .word
  | .word, .parenOpen => some .argument
  | .word, .dot => some (.point false)
  | .word, .tagClose => some .nodes
  | .path call, .dot => some (.point call)
  | .path false, .tagClose => some .nodes
  | .path true, .comma => some .argument
  | .path true, .parenClose => some .close
  | .point call, .ident _ => some (.path call)
  | .argument, .str _ => some .literal
  | .argument, .int _ => some .literal
  | .argument, .ident _ => some (.path true)
  | .argument, .parenClose => some .close
  | .literal, .comma => some .argument
  | .literal, .parenClose => some .close
  | .close, .tagClose => some .nodes
  | _, _ => none

/-- How far a template has come: the conditionals that are open, the innermost first, each with
whether its `else` has come, and the position of the next token. -/
structure Progress where
  opened : List Bool
  position : Position
  deriving DecidableEq

namespace Progress

/-- The progress before the first token, and where a template may end. -/
def start : Progress := ⟨[], .nodes⟩

/-- The progress behind a token; nothing if the token cannot come next. -/
def step (s : Progress) (t : Token) : Option Progress :=
  (openedAfter s.opened t).bind fun opened =>
    (positionAfter s.position t).map fun position => ⟨opened, position⟩

/-- The progress behind tokens that come one after another. -/
def run (s : Progress) (ts : List (Located Token)) : Option Progress :=
  (ts.map (·.item)).foldlM step s

@[simp] theorem run_nil (s : Progress) : s.run [] = some s := rfl

@[simp] theorem run_cons (s : Progress) (t : Located Token) (ts : List (Located Token)) :
    s.run (t :: ts) = (s.step t.item).bind (·.run ts) := rfl

@[simp] theorem run_append (s : Progress) (ts us : List (Located Token)) :
    s.run (ts ++ us) = (s.run ts).bind (·.run us) := by
  rw [run, List.map_append, List.foldlM_append]
  rfl

/-- A node that has been begun can be brought to its end, or at least to a branch of it. -/
theorem exists_run_nodes (s : Progress) : ∃ us opened, s.run us = some ⟨opened, .nodes⟩ := by
  obtain ⟨opened, position⟩ := s
  -- The shortest way to the end of the tag, with an expression where one is missing.
  cases position with
  | nodes => exact ⟨[], opened, rfl⟩
  | keyword =>
    exact ⟨[⟨.kwIf, default⟩, ⟨.int 0, default⟩, ⟨.tagClose, default⟩], false :: opened, rfl⟩
  | expression => exact ⟨[⟨.int 0, default⟩, ⟨.tagClose, default⟩], opened, rfl⟩
  | word => exact ⟨[⟨.tagClose, default⟩], opened, rfl⟩
  | path call =>
    cases call with
    | false => exact ⟨[⟨.tagClose, default⟩], opened, rfl⟩
    | true => exact ⟨[⟨.parenClose, default⟩, ⟨.tagClose, default⟩], opened, rfl⟩
  | point call =>
    cases call with
    | false => exact ⟨[⟨.ident "", default⟩, ⟨.tagClose, default⟩], opened, rfl⟩
    | true =>
      exact ⟨[⟨.ident "", default⟩, ⟨.parenClose, default⟩, ⟨.tagClose, default⟩], opened, rfl⟩
  | argument | literal => exact ⟨[⟨.parenClose, default⟩, ⟨.tagClose, default⟩], opened, rfl⟩
  | close => exact ⟨[⟨.tagClose, default⟩], opened, rfl⟩

/-- Between nodes, each conditional that is open takes a block that ends it. -/
theorem exists_run_marks (opened : List Bool) :
    ∃ us, Progress.run ⟨opened, .nodes⟩ us = some start := by
  induction opened with
  | nil => exact ⟨[], rfl⟩
  | cons seen outer ih =>
    obtain ⟨us, hus⟩ := ih
    have hend : Progress.run ⟨seen :: outer, .nodes⟩ (mark .kwEnd default default default) =
        some ⟨outer, .nodes⟩ := by
      cases seen <;> rfl
    refine ⟨mark .kwEnd default default default ++ us, ?_⟩
    rw [run_append, hend]
    exact hus

/-- Whatever the progress, some tokens lead to the end of a template. -/
theorem exists_run_start (s : Progress) : ∃ us, s.run us = some start := by
  obtain ⟨us, opened, hus⟩ := s.exists_run_nodes
  obtain ⟨vs, hvs⟩ := exists_run_marks opened
  refine ⟨us ++ vs, ?_⟩
  rw [run_append, hus]
  exact hvs

end Progress

/-! ### Derivable tokens -/

/-- The position behind an operand in a call. -/
def behindArgument : Operand → Position
  | .path _ _ => .path true
  | .str _ | .int _ => .literal

/-- The position behind an expression. -/
def behindExpression : Expr → Position
  | .operand (.path _ []) => .word
  | .operand (.path _ _) => .path false
  | .operand (.str _) | .operand (.int _) | .call _ _ => .close

/-- Behind an expression its tag can end. -/
theorem positionAfter_behindExpression (e : Expr) :
    positionAfter (behindExpression e) .tagClose = some .nodes := by
  match e with
  | .operand (.path _ []) => rfl
  | .operand (.path _ (_ :: _)) => rfl
  | .operand (.str _) | .operand (.int _) | .call _ _ => rfl

/-- Behind an argument another one can be announced, or the call can end. -/
theorem positionAfter_behindArgument (o : Operand) :
    positionAfter (behindArgument o) .comma = some .argument ∧
      positionAfter (behindArgument o) .parenClose = some .close := by
  cases o <;> exact ⟨rfl, rfl⟩

section Derivable

variable {ts : List (Located Token)} {opened : List Bool}

/-- Steps into a value lead from a word to a word. -/
theorem Steps.advance {names : List String} (h : Steps ts names) (call : Bool) :
    Progress.run ⟨opened, .path call⟩ ts = some ⟨opened, .path call⟩ := by
  induction h with
  | nil => rfl
  | cons _ ih =>
    cases call <;> exact ih

/-- An argument leads to the position behind it. -/
theorem Argument.advance {o : Operand} (h : Argument ts o) :
    Progress.run ⟨opened, .argument⟩ ts = some ⟨opened, behindArgument o⟩ := by
  cases h with
  | str => rfl
  | int => rfl
  | path h => exact h.advance true

/-- Arguments, with the parenthesis that closes them, lead to the end of the tag. -/
theorem Arguments.advance {args : List Operand} (h : Arguments ts args) (q : Span) :
    Progress.run ⟨opened, .argument⟩ (ts ++ [⟨.parenClose, q⟩]) = some ⟨opened, .close⟩ := by
  induction h with
  | nil => rfl
  | @last _ o ha =>
    rw [Progress.run_append, ha.advance]
    simp [Progress.step, openedAfter, positionAfter_behindArgument]
  | @cons _ _ _ o _ ha _ ih =>
    rw [List.append_assoc, Progress.run_append, ha.advance]
    simpa [Progress.step, openedAfter, positionAfter_behindArgument] using ih

/-- An expression leads to the position behind it. -/
theorem Expression.advance {e : Expr} (h : Expression ts e) :
    Progress.run ⟨opened, .expression⟩ ts = some ⟨opened, behindExpression e⟩ := by
  cases h with
  | operand ho =>
    cases ho with
    | str => rfl
    | int => rfl
    | path hs =>
      cases hs with
      | nil => rfl
      | cons hs => exact hs.advance false
  | @call _ _ r _ us _ ha =>
    -- The name and the parenthesis lead to where the arguments stand.
    have h : Progress.run ⟨opened, .argument⟩ (us ++ [⟨.parenClose, r⟩]) = _ := ha.advance r
    exact h

/-- A tag leads from its expression to what follows the tag. -/
theorem Expression.advance_tag {e : Expr} (h : Expression ts e) (q : Span)
    (us : List (Located Token)) :
    Progress.run ⟨opened, .expression⟩ (ts ++ ⟨.tagClose, q⟩ :: us) =
      Progress.run ⟨opened, .nodes⟩ us := by
  rw [Progress.run_append, h.advance]
  simp [Progress.step, openedAfter, positionAfter_behindExpression]

/-- A conditional begins with a block that opens it. -/
theorem advance_opening (negated : Bool) (p q : Span) (us : List (Located Token)) :
    Progress.run ⟨opened, .nodes⟩ (⟨.blockOpen, p⟩ :: ⟨opening negated, q⟩ :: us) =
      Progress.run ⟨false :: opened, .expression⟩ us := by
  cases negated with
  | false => rfl
  | true => rfl

/-- Nodes lead to where they began, whichever conditionals they stand in. -/
theorem Nodes.advance {b : Body} (h : Nodes ts b) (opened : List Bool) :
    Progress.run ⟨opened, .nodes⟩ ts = some ⟨opened, .nodes⟩ := by
  induction h generalizing opened with
  | nil => rfl
  | text _ ih => exact ih opened
  | output he _ ih => exact (he.advance_tag _ _).trans (ih opened)
  | raw he _ ih => exact (he.advance_tag _ _).trans (ih opened)
  | @conditional p q r x y z negated es xs ts _ _ _ he _ _ ihx iht =>
    -- The branch is read with its conditional open, which the block behind it closes.
    have hx : Progress.run ⟨false :: opened, .nodes⟩ (xs ++ (mark .kwEnd x y z ++ ts)) =
        some ⟨opened, .nodes⟩ := by
      rw [Progress.run_append, ihx]
      exact iht opened
    simp only [List.cons_append, List.append_assoc] at hx ⊢
    rw [advance_opening, he.advance_tag, hx]
  | @alternative p q r u v w x y z negated es xs ys ts _ _ _ _ he _ _ _ ihx ihy iht =>
    have hy : Progress.run ⟨true :: opened, .nodes⟩ (ys ++ (mark .kwEnd x y z ++ ts)) =
        some ⟨opened, .nodes⟩ := by
      rw [Progress.run_append, ihy]
      exact iht opened
    have hx : Progress.run ⟨false :: opened, .nodes⟩
        (xs ++ (mark .kwElse u v w ++ (ys ++ (mark .kwEnd x y z ++ ts)))) =
          some ⟨opened, .nodes⟩ := by
      rw [Progress.run_append, ihx]
      exact hy
    simp only [List.cons_append, List.append_assoc] at hx ⊢
    rw [advance_opening, he.advance_tag, hx]

end Derivable

end Stencil.Grammar
