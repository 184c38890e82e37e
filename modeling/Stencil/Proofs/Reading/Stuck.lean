import Stencil.Proofs.Lexing.Places
import Stencil.Proofs.Reading.Progress

/-!
# Where reading stops

Reading stops at the first token that cannot come next, and names what could have come instead. Main
statements: `Reader.body_fails`, which says so of the reader; `exists_nodes_iff_run`, by which tokens
are those of a template exactly if each can come next and the template is at its end then; and
`viable_iff_run`, by which a template can begin with tokens exactly if each can come next.
-/

namespace Stencil

/-- Whether a token is named among those that could have stood at a place. Text, identifiers and
literals never are. -/
def Token.isNamed : Token → Bool
  | .text _ | .ident _ | .str _ | .int _ => false
  | _ => true

/-- Whether a token is a string or a number. -/
def Token.isLiteral : Token → Bool
  | .str _ | .int _ => true
  | _ => false

namespace Reader

open Grammar

/-- Reading has stopped where it had to, with this progress: the token that is there cannot come next,
or the tokens have come to an end and the template has not. What is named is what could have come. -/
structure Halts (s : Progress) (st : Stuck) : Prop where
  /-- The token that is there cannot come next. -/
  refused : ∀ t us, st.rest = t :: us → s.step t.item = none
  /-- Without a token there, the template is not at an end. -/
  unfinished : st.rest = [] → s ≠ .start
  /-- The tokens that are named are those that could come next. -/
  expected : ∀ t, .token t ∈ st.expected ↔ t.isNamed = true ∧ (s.step t).isSome = true
  /-- The end of the input is named where the template could end. -/
  endOfInput : .endOfInput ∈ st.expected ↔ s = .start

/-- Reading the tokens stops at one of them, or at their end, where it has to. -/
def Fails (s : Progress) (toks : Tokens) (st : Stuck) : Prop :=
  ∃ ts s', toks = ts ++ st.rest ∧ s.run ts = some s' ∧ Halts s' st

section Fails

variable {s s' : Progress} {ts us : Tokens} {st : Stuck} {opened : List Bool}

/-- Reading that stops behind tokens stops behind other ones in front of them. -/
theorem Fails.of_run (h : s.run ts = some s') (hf : Fails s' us st) : Fails s (ts ++ us) st := by
  obtain ⟨vs, s'', rfl, hvs, hhalts⟩ := hf
  refine ⟨ts ++ vs, s'', (List.append_assoc _ _ _).symm, ?_, hhalts⟩
  rw [Progress.run_append, h]
  exact hvs

/-- Reading can stop at once. -/
theorem Halts.fails (h : Halts s st) : Fails s st.rest st := ⟨[], s, rfl, rfl, h⟩

/-- If reading in two steps fails then the first step does, or else the second one does. -/
theorem error_of_bind {α β : Type} {m n : Nat} {x : Except Stuck (Taken α m)}
    {f : Taken α m → Except Stuck (Taken β n)} (h : x >>= f = .error st) :
    x = .error st ∨ ∃ a r h, Reads x a r ∧ f ⟨a, r, h⟩ = .error st := by
  cases x with
  | error e =>
    cases h
    exact .inl rfl
  | ok t => exact .inr ⟨t.item, t.rest, t.shorter, .ok, h⟩

/-- If reading fails though nothing can fail behind its first step then that step does. -/
theorem error_of_return {α β : Type} {m : Nat} {x : Except Stuck (Taken α m)} {f : Taken α m → β}
    (h : (do return f (← x)) = .error st) : x = .error st := by
  cases x with
  | error e =>
    cases h
    rfl
  | ok t => cases h

/-- If reading in two steps fails though nothing can fail behind them then one of the steps does. -/
theorem error_of_steps {α β γ : Type} {m n : Nat} {k : Taken α m → Nat}
    {x : Except Stuck (Taken α m)} {f : ∀ t, Except Stuck (Taken β (k t))}
    {g : ∀ t, Taken β (k t) → Taken γ n}
    (h : (do
      let t ← x
      let u ← f t
      return g t u) = .error st) :
    x = .error st ∨ ∃ a r h, Reads x a r ∧ f ⟨a, r, h⟩ = .error st := by
  rcases error_of_bind h with h | ⟨a, r, hr, ha, h⟩
  · exact .inl h
  · exact .inr ⟨a, r, hr, ha, error_of_return h⟩

/-- Outside of blocks no conditional is opened or closed. -/
theorem step_of_ne_keyword {p : Position} (hp : p ≠ .keyword) (t : Token) :
    Progress.step ⟨opened, p⟩ t = (positionAfter p t).map fun q => ⟨opened, q⟩ := by
  have hkeyword : ∀ t ∈ [Token.kwIf, .kwUnless, .kwElse, .kwEnd], positionAfter p t = none := by
    cases p with
    | keyword => exact absurd rfl hp
    | path call => cases call <;> decide
    | point call => cases call <;> decide
    | _ => decide
  cases t with
  | kwIf | kwUnless | kwElse | kwEnd => simp [Progress.step, hkeyword]
  | _ => simp [Progress.step, openedAfter]

/-- Within a tag, reading stops at a token that cannot stand at the position. -/
theorem halts_of_position {p : Position} {rest : Tokens} {expected : List Expectation}
    (hp : p ≠ .keyword) (hn : p ≠ .nodes)
    (hrest : ∀ t us, rest = t :: us → positionAfter p t.item = none)
    (hexpected : ∀ t, .token t ∈ expected ↔ t.isNamed = true ∧ (positionAfter p t).isSome = true)
    (hend : .endOfInput ∉ expected) : Halts ⟨opened, p⟩ ⟨rest, expected⟩ := by
  have hstart : (⟨opened, p⟩ : Progress) ≠ .start := fun e => hn (congrArg Progress.position e)
  refine ⟨fun t us h => ?_, fun _ => hstart, fun t => ?_, fun h => absurd h hend,
    fun h => absurd h hstart⟩
  · rw [step_of_ne_keyword hp, hrest t us h]
    rfl
  · rw [step_of_ne_keyword hp, Option.isSome_map]
    exact hexpected t

end Fails

section Tags

variable {toks : Tokens} {st : Stuck} {opened : List Bool}

/-- Steps stop behind a point that no name follows. -/
theorem steps_fails {stop : Nat} {p : Position} {call : Bool}
    (hp : positionAfter p .dot = some (.point call)) (hk : p ≠ .keyword)
    (h : steps stop toks = .error st) : Fails ⟨opened, p⟩ toks st := by
  have hdot : Progress.step ⟨opened, p⟩ .dot = some ⟨opened, .point call⟩ := by
    rw [step_of_ne_keyword hk, hp]
    rfl
  fun_induction steps stop toks generalizing p with
  | case1 stop q name r rest ih =>
    replace h := error_of_return h
    have hrun : Progress.run ⟨opened, p⟩ [⟨.dot, q⟩, ⟨.ident name, r⟩] =
        some ⟨opened, .path call⟩ := by
      rw [Progress.run_cons, hdot]
      rfl
    exact .of_run hrun (ih rfl (by simp) h rfl)
  | case2 stop q rest hname =>
    cases h
    have hrun : Progress.run ⟨opened, p⟩ [⟨.dot, q⟩] = some ⟨opened, .point call⟩ := by
      rw [Progress.run_cons, hdot]
      rfl
    refine .of_run hrun (halts_of_position (by simp) (by simp) ?_ ?_ (by simp)).fails
    · rintro ⟨t, r⟩ us rfl
      cases t with
      | ident name => exact absurd rfl (hname name r us)
      | _ => rfl
    · intro t
      cases t <;> simp [Token.isNamed, positionAfter]
  | case3 => cases h

/-- Steps are read up to a token that is no point. -/
theorem steps_noDot {stop : Nat} {x : List String × Nat} {r : Tokens}
    (h : Reads (steps stop toks) x r) : NoDot r := by
  fun_induction steps stop toks generalizing x with
  | case1 stop q name p rest ih =>
    obtain ⟨_, _, _, hmore, h⟩ := h.of_bind
    obtain ⟨-, rfl⟩ := Reads.pure.unique h
    exact ih hmore
  | case2 => exact absurd h not_reads_error
  | case3 _ toks _ hdot =>
    obtain ⟨-, rfl⟩ := Reads.ok.unique h
    exact hdot

/-- A path is read up to a token that is no point. -/
theorem operand_noDot {expected : List Expectation} {root : String} {names : List String} {e : Nat}
    {r : Tokens} (h : Reads (operand expected toks) (.path root names, e) r) : NoDot r := by
  fun_cases operand expected toks with
  | case1 =>
    obtain ⟨ea, -⟩ := Reads.ok.unique h
    cases ea
  | case2 =>
    obtain ⟨ea, -⟩ := Reads.ok.unique h
    cases ea
  | case3 =>
    obtain ⟨_, _, _, hsteps, h⟩ := h.of_bind
    obtain ⟨-, rfl⟩ := Reads.pure.unique h
    exact steps_noDot hsteps
  | case4 =>
    rw [operand] at h
    · exact absurd h not_reads_error
    all_goals assumption

/-- An operand stops within its steps, or at once where it cannot begin. -/
theorem operand_fails {expected : List Expectation} {p q : Position} {call : Bool}
    (hp : p ≠ .keyword) (hq : q ≠ .keyword) (hword : ∀ name, positionAfter p (.ident name) = some q)
    (hdot : positionAfter q .dot = some (.point call))
    (hhalts : (∀ t us, toks = t :: us → t.item.isLiteral = false ∧ ∀ name, t.item ≠ .ident name) →
      Halts ⟨opened, p⟩ ⟨toks, expected⟩)
    (h : operand expected toks = .error st) : Fails ⟨opened, p⟩ toks st := by
  fun_cases operand expected toks with
  | case1 => cases h
  | case2 => cases h
  | case3 root r rest =>
    replace h := error_of_return h
    have hrun : Progress.run ⟨opened, p⟩ [⟨.ident root, r⟩] = some ⟨opened, q⟩ := by
      rw [Progress.run_cons, step_of_ne_keyword hp, hword]
      rfl
    exact .of_run hrun (steps_fails hdot hq h)
  | case4 _ hstr hint hident =>
    rw [operand] at h
    · cases h
      refine (hhalts ?_).fails
      rintro ⟨t, r⟩ us rfl
      refine ⟨?_, fun name e => hident name r us (by rw [← e])⟩
      cases t with
      | str s => exact absurd rfl (hstr s r us)
      | int n => exact absurd rfl (hint n r us)
      | _ => rfl
    all_goals assumption

/-- Arguments stop where one of them does, or between two of them. -/
theorem arguments_fails (h : arguments toks = .error st) : Fails ⟨opened, .argument⟩ toks st := by
  fun_induction arguments toks with
  | case1 => cases h
  | case2 toks hne ih =>
    rcases error_of_bind h with h | ⟨⟨a, stop⟩, rest, hlt, hread, h⟩
    · refine operand_fails (q := .path true) (by simp) (by simp) (fun _ => rfl) rfl (fun hrest => ?_) h
      refine halts_of_position (by simp) (by simp) ?_ ?_ (by simp)
      · rintro ⟨t, r⟩ us rfl
        obtain ⟨hliteral, hident⟩ := hrest _ us rfl
        cases t with
        | str | int => cases hliteral
        | ident name => exact absurd rfl (hident name)
        | parenClose => exact absurd rfl (hne r us)
        | _ => rfl
      · intro t
        cases t <;> simp [Token.isNamed, positionAfter]
    · -- The argument has been read, and what follows it is no comma and no parenthesis.
      obtain ⟨ts, rfl, ha, -⟩ := operand_sound hread
      refine .of_run ha.advance ?_
      simp only at h
      split at h
      · cases h
      · rename_i r more _
        replace h := error_of_return h
        have hrun : Progress.run ⟨opened, behindArgument a⟩ [⟨.comma, r⟩] =
            some ⟨opened, .argument⟩ := by
          simp [Progress.step, openedAfter, positionAfter_behindArgument]
        exact .of_run hrun (ih ⟨(a, stop), _, hlt⟩ r more rfl h)
      · rename_i hclose hcomma
        cases h
        refine (halts_of_position ?_ ?_ ?_ ?_ ?_).fails
        · cases a <;> simp [behindArgument]
        · cases a <;> simp [behindArgument]
        · rintro ⟨t, r⟩ us rfl
          cases t with
          | parenClose => exact (hclose r us rfl).elim
          | comma => exact (hcomma r us rfl).elim
          | dot =>
            cases a with
            | path root names => exact absurd rfl (operand_noDot hread r us)
            | str | int => rfl
          | _ => cases a <;> rfl
        · intro t
          cases a <;> cases t <;> simp [Token.isNamed, behindArgument, positionAfter, operandContinues]
        · cases a <;> simp [operandContinues]

/-- An expression stops where it has to. -/
theorem expression_fails (h : expression toks = .error st) :
    Fails ⟨opened, .expression⟩ toks st := by
  fun_cases expression toks with
  | case1 helper p q rest =>
    replace h := error_of_return h
    have hrun : Progress.run ⟨opened, .expression⟩ [⟨.ident helper, p⟩, ⟨.parenOpen, q⟩] =
        some ⟨opened, .argument⟩ := rfl
    exact .of_run hrun (arguments_fails h)
  | case2 t p rest hcall =>
    rw [expression] at h
    · replace h := error_of_return h
      refine operand_fails (q := .word) (by simp) (by simp) (fun _ => rfl) rfl (fun hrest => ?_) h
      refine halts_of_position (by simp) (by simp) ?_ ?_ (by simp)
      · intro u us e
        obtain ⟨hliteral, hident⟩ := hrest u us e
        cases hu : u.item with
        | str | int =>
          rw [hu] at hliteral
          cases hliteral
        | ident name => exact absurd hu (hident name)
        | _ => rfl
      · intro t
        cases t <;> simp [Token.isNamed, positionAfter]
    · exact hcall
  | case3 =>
    cases h
    refine (halts_of_position (by simp) (by simp) (by simp) ?_ (by simp)).fails
    intro t
    cases t <;> simp [Token.isNamed, positionAfter]

/-- An expression is read as far as it goes: only the end of the tag can follow it. -/
theorem expression_stops {e : Located Expr} {r : Tokens} (h : Reads (expression toks) e r)
    (t : Located Token) (us : Tokens) (hr : r = t :: us) (ht : t.item ≠ .tagClose) :
    positionAfter (behindExpression e.item) t.item = none := by
  obtain ⟨t, q⟩ := t
  subst hr
  fun_cases expression toks with
  | case1 helper p q rest =>
    obtain ⟨_, _, _, -, h⟩ := h.of_bind
    obtain ⟨rfl, -⟩ := Reads.pure.unique h
    cases t with
    | tagClose => exact absurd rfl ht
    | _ => rfl
  | case2 u p rest hcall =>
    rw [expression] at h
    · obtain ⟨⟨o, stop⟩, r, _, ho, h⟩ := h.of_bind
      obtain ⟨rfl, rfl⟩ := Reads.pure.unique h
      cases o with
      | str | int =>
        cases t with
        | tagClose => exact absurd rfl ht
        | _ => rfl
      | path root names =>
        have hdot := operand_noDot ho
        cases names with
        | nil =>
          -- A parenthesis behind the only word would have made a call of it.
          have hparen : t ≠ .parenOpen := by
            rintro rfl
            obtain ⟨ts, hts, ha, -⟩ := operand_sound ho
            cases ha with
            | path hs =>
              cases hs
              obtain ⟨hu, hrest⟩ := List.cons.inj hts
              cases hu
              exact hcall root q us hrest rfl
          cases t with
          | tagClose => exact absurd rfl ht
          | parenOpen => exact absurd rfl hparen
          | dot => exact absurd rfl (hdot q us)
          | _ => rfl
        | cons name names =>
          cases t with
          | tagClose => exact absurd rfl ht
          | dot => exact absurd rfl (hdot q us)
          | _ => rfl
    · exact hcall
  | case3 => exact absurd h not_reads_error

/-- Behind an expression its tag is open. -/
theorem behindExpression_ne (e : Expr) :
    behindExpression e ≠ .keyword ∧ behindExpression e ≠ .nodes := by
  match e with
  | .operand (.path _ []) => simp [behindExpression]
  | .operand (.path _ (_ :: _)) => simp [behindExpression]
  | .operand (.str _) | .operand (.int _) | .call _ _ => simp [behindExpression]

/-- What is named behind an expression is what could follow it. -/
theorem mem_exprContinues (e : Expr) :
    (∀ t, .token t ∈ exprContinues e ++ [.token .tagClose] ↔
      t.isNamed = true ∧ (positionAfter (behindExpression e) t).isSome = true) ∧
    .endOfInput ∉ exprContinues e := by
  match e with
  | .operand (.path _ []) =>
    refine ⟨fun t => ?_, by simp [exprContinues]⟩
    cases t <;> simp [exprContinues, behindExpression, Token.isNamed, positionAfter]
  | .operand (.path _ (_ :: _)) =>
    refine ⟨fun t => ?_, by simp [exprContinues, operandContinues]⟩
    cases t <;>
      simp [exprContinues, operandContinues, behindExpression, Token.isNamed, positionAfter]
  | .operand (.str _) | .operand (.int _) | .call _ _ =>
    refine ⟨fun t => ?_, by simp [exprContinues, operandContinues]⟩
    cases t <;>
      simp [exprContinues, operandContinues, behindExpression, Token.isNamed, positionAfter]

/-- The end of a tag stops at once where it is missing. -/
theorem closing_fails {p : Position} {continues : List Expectation} (hp : p ≠ .keyword)
    (hn : p ≠ .nodes)
    (hrest : ∀ t us, toks = t :: us → t.item ≠ .tagClose → positionAfter p t.item = none)
    (hexpected : ∀ t, .token t ∈ continues ++ [.token .tagClose] ↔
      t.isNamed = true ∧ (positionAfter p t).isSome = true)
    (hend : .endOfInput ∉ continues) (h : closing continues toks = .error st) :
    Fails ⟨opened, p⟩ toks st := by
  fun_cases closing continues toks with
  | case1 => cases h
  | case2 _ hclose =>
    rw [closing] at h
    · cases h
      refine (halts_of_position hp hn ?_ hexpected (by simpa using hend)).fails
      rintro t us rfl
      refine hrest t us rfl fun e => hclose t.span us ?_
      rw [← e]
    · exact hclose

/-- The end of a tag that has to come stops at once where it is missing. -/
theorem closing_nil_fails (h : closing [] toks = .error st) : Fails ⟨opened, .close⟩ toks st := by
  refine closing_fails (by simp) (by simp) ?_ ?_ (by simp) h
  · rintro ⟨t, q⟩ us - ht
    cases t with
    | tagClose => exact absurd rfl ht
    | _ => rfl
  · intro t
    cases t <;> simp [Token.isNamed, positionAfter]

/-- A tag stops within its expression, or where its end is missing. -/
theorem tag_fails (h : tag toks = .error st) : Fails ⟨opened, .expression⟩ toks st := by
  rcases error_of_steps h with h | ⟨⟨e, span⟩, r, _, hread, h⟩
  · exact expression_fails h
  · have hstops := expression_stops hread
    obtain ⟨es, rfl, he, -⟩ := expression_sound hread
    obtain ⟨hkeyword, hnodes⟩ := behindExpression_ne e
    obtain ⟨hnamed, hend⟩ := mem_exprContinues e
    exact .of_run he.advance (closing_fails hkeyword hnodes hstops hnamed hend h)

end Tags

/-- The conditionals that are open where a body stands. -/
def Place.Fits : Place → List Bool → Prop
  | .top, opened => opened = []
  | .thenBranch, opened => ∃ outer, opened = false :: outer
  | .elseBranch, opened => ∃ outer, opened = true :: outer

/-- Reading the tokens as a body stops where it has to. -/
def BodyFails (place : Place) (toks : Tokens) : Prop :=
  ∀ st opened, place.Fits opened → body place toks = .error st → Fails ⟨opened, .nodes⟩ toks st

/-- Reading the tokens as the branches of a conditional stops where it has to. -/
def BranchesFails (toks : Tokens) : Prop :=
  ∀ st opened, branches toks = .error st → Fails ⟨false :: opened, .expression⟩ toks st

section Bodies

variable {place : Place} {toks rest : Tokens} {st : Stuck} {opened : List Bool}

/-- Between nodes, reading stops at a token that begins no node and does not end the body. -/
theorem halts_nodes (hplace : place.Fits opened) (hend : rest = [] → place ≠ .top)
    (hrest : ∀ t us, rest = t :: us → positionAfter .nodes t.item = none) :
    Halts ⟨opened, .nodes⟩ ⟨rest, place.starts⟩ := by
  have hstep : ∀ t, Progress.step ⟨opened, .nodes⟩ t = _ := step_of_ne_keyword (by simp)
  have hstart : (⟨opened, .nodes⟩ : Progress) = .start ↔ place = .top := by
    cases place with
    | top => simp [Progress.start, show opened = [] from hplace]
    | thenBranch | elseBranch =>
      obtain ⟨outer, rfl⟩ := hplace
      simp [Progress.start]
  refine ⟨fun t us h => ?_, fun h => ?_, fun t => ?_, ?_⟩
  · rw [hstep, hrest t us h]
    rfl
  · exact fun e => hend h (hstart.1 e)
  · rw [hstep, Option.isSome_map]
    cases place <;> cases t <;> simp [Place.starts, Token.isNamed, positionAfter]
  · rw [hstart]
    cases place <;> simp [Place.starts]

/-- Behind the opening of a block, reading stops at what is no keyword that the body allows. -/
theorem halts_keyword (hplace : place.Fits opened)
    (hrest : ∀ t us, rest = t :: us → Progress.step ⟨opened, .keyword⟩ t.item = none) :
    Halts ⟨opened, .keyword⟩ ⟨rest, place.keywords⟩ := by
  refine ⟨hrest, fun _ => by simp [Progress.start], fun t => ?_, ?_⟩
  · cases place with
    | top =>
      cases hplace
      cases t <;> simp [Place.keywords, Token.isNamed, Progress.step, openedAfter, positionAfter]
    | thenBranch | elseBranch =>
      obtain ⟨outer, rfl⟩ := hplace
      cases t <;> simp [Place.keywords, Token.isNamed, Progress.step, openedAfter, positionAfter]
  · cases place <;> simp [Place.keywords, Progress.start]

/-- Behind the opening of a block, reading fails at what is no keyword that the body allows. -/
theorem bodyFails_block {p : Span} (h : body place (⟨.blockOpen, p⟩ :: rest) = .error st)
    (hstuck : body place (⟨.blockOpen, p⟩ :: rest) = .error ⟨rest, place.keywords⟩)
    (hplace : place.Fits opened)
    (hrest : ∀ t us, rest = t :: us → Progress.step ⟨opened, .keyword⟩ t.item = none) :
    Fails ⟨opened, .nodes⟩ (⟨.blockOpen, p⟩ :: rest) st := by
  have hrun : Progress.run ⟨opened, .nodes⟩ [⟨.blockOpen, p⟩] = some ⟨opened, .keyword⟩ := rfl
  rw [hstuck] at h
  cases h
  exact .of_run hrun (halts_keyword hplace hrest).fails

/-- What completes a conditional leads from its keyword to what follows it. -/
theorem Completes.advance {us : Tokens} {c : Branches} (h : Completes us c) :
    Progress.run ⟨false :: opened, .expression⟩ us = some ⟨opened, .nodes⟩ := by
  have hnodes := h default default false [] .nil .nil
  have hrun := hnodes.advance opened
  rwa [advance_opening, List.append_nil] at hrun

/-- Reading a conditional with what follows it stops in one of its two steps. -/
theorem error_of_body_conditional {negated : Bool} {p q : Span}
    (h : body place (⟨.blockOpen, p⟩ :: ⟨opening negated, q⟩ :: toks) = .error st) :
    branches toks = .error st ∨
      ∃ c r, ∃ _ : r.length < toks.length, Reads (branches toks) c r ∧ body place r = .error st := by
  cases negated with
  | false =>
    rw [opening, if_neg Bool.false_ne_true, body] at h
    exact error_of_steps h
  | true =>
    rw [opening, if_pos rfl, body] at h
    exact error_of_steps h

/-- A conditional stops where it has to if its branches and what follows it do. -/
theorem bodyFails_conditional {p q : Span} (hb : BranchesFails toks)
    (ih : ∀ c : Taken Branches toks.length, BodyFails place c.rest) (negated : Bool) :
    BodyFails place (⟨.blockOpen, p⟩ :: ⟨opening negated, q⟩ :: toks) := by
  intro st opened hplace h
  have hopening : Progress.run ⟨opened, .nodes⟩ [⟨.blockOpen, p⟩, ⟨opening negated, q⟩] =
      some ⟨false :: opened, .expression⟩ := advance_opening negated p q []
  refine .of_run hopening ?_
  rcases error_of_body_conditional h with hbranches | ⟨c, r, hr, hc, hbody⟩
  · exact hb st opened hbranches
  · obtain ⟨us, rfl, hus⟩ := sound.2 toks c r hc
    exact .of_run hus.advance (ih ⟨c, r, hr⟩ st opened hplace hbody)

/-- The block that ends a conditional stops behind its keyword. -/
theorem endBlock_fails {seen : Bool} (hends : Ends .elseBranch toks)
    (h : endBlock toks = .error st) : Fails ⟨seen :: opened, .nodes⟩ toks st := by
  obtain ⟨p, q, us, rfl⟩ := hends
  rw [endBlock] at h
  have hmark : Progress.run ⟨seen :: opened, .nodes⟩ [⟨.blockOpen, p⟩, ⟨.kwEnd, q⟩] =
      some ⟨opened, .close⟩ := by
    cases seen <;> rfl
  exact .of_run hmark (closing_nil_fails (error_of_return h))

/-- The branches of a conditional stop where they have to if each of them does. -/
theorem branchesFails
    (ihx : ∀ t : Taken (Located Expr × Nat) toks.length, BodyFails .thenBranch t.rest)
    (ihy : ∀ (t : Taken (Located Expr × Nat) toks.length) (x : Taken Body (t.rest.length + 1))
      (p q : Span) (rest : Tokens), x.rest = ⟨.blockOpen, p⟩ :: ⟨.kwElse, q⟩ :: rest →
      ∀ m : Taken Nat rest.length, BodyFails .elseBranch m.rest) : BranchesFails toks := by
  intro st opened h
  rw [branches] at h
  rcases error_of_bind h with h | ⟨⟨⟨e, w⟩, stop⟩, r, hr, ht, h⟩
  · exact tag_fails h
  -- Behind the tag stands the first branch.
  obtain ⟨es, q, rfl, he, -, -⟩ := tag_sound ht
  have htag : Progress.run ⟨false :: opened, .expression⟩ (es ++ [⟨.tagClose, q⟩]) =
      some ⟨false :: opened, .nodes⟩ := he.advance_tag q []
  have hsplit : es ++ ⟨.tagClose, q⟩ :: r = (es ++ [⟨.tagClose, q⟩]) ++ r := by simp
  rw [hsplit]
  refine .of_run htag ?_
  rcases error_of_bind h with h | ⟨x, r', hr', hx, h⟩
  · exact ihx ⟨_, r, hr⟩ st _ ⟨opened, rfl⟩ h
  obtain ⟨xs, rfl, hxs, hends⟩ := body_sound hx
  refine .of_run (hxs.advance _) ?_
  -- The first branch ends at a block with `else`, or at the one that ends the conditional.
  simp only at h
  split at h
  · rename_i u v rest _ _
    have hmark : Progress.run ⟨false :: opened, .nodes⟩ [⟨.blockOpen, u⟩, ⟨.kwElse, v⟩] =
        some ⟨true :: opened, .close⟩ := rfl
    refine .of_run hmark ?_
    rcases error_of_bind h with h | ⟨_, rm, hm, hc, h⟩
    · exact closing_nil_fails h
    obtain ⟨w', rfl, -⟩ := closing_sound hc
    have hclose : Progress.run ⟨true :: opened, .close⟩ [⟨.tagClose, w'⟩] =
        some ⟨true :: opened, .nodes⟩ := rfl
    refine .of_run hclose ?_
    rcases error_of_bind h with h | ⟨y, ry, _, hy, h⟩
    · exact ihy ⟨_, _, hr⟩ ⟨x, _, hr'⟩ u v _ rfl ⟨_, rm, hm⟩ st _ ⟨opened, rfl⟩ h
    obtain ⟨ys, rfl, hys, hends⟩ := body_sound hy
    refine .of_run (hys.advance _) ?_
    exact endBlock_fails hends (error_of_return h)
  · rename_i hnoElse
    have hends : Ends .elseBranch r' := by
      obtain ⟨u, v, us, hr' | hr'⟩ := hends
      · exact (hnoElse u v us hr').elim
      · exact ⟨u, v, us, hr'⟩
    exact endBlock_fails hends (error_of_return h)

/-- A tag and what follows it stop where they have to. -/
theorem fails_of_tag (hplace : place.Fits opened)
    (ih : ∀ t : Taken (Located Expr × Nat) toks.length, BodyFails place t.rest)
    (h : tag toks = .error st ∨
      ∃ a r, ∃ _ : r.length < toks.length, Reads (tag toks) a r ∧ body place r = .error st) :
    Fails ⟨opened, .expression⟩ toks st := by
  rcases h with h | ⟨⟨⟨e, w⟩, stop⟩, r, hr, ht, h⟩
  · exact tag_fails h
  · have hbody := ih ⟨(⟨e, w⟩, stop), r, hr⟩ st opened hplace h
    obtain ⟨es, q, rfl, he, -, -⟩ := tag_sound ht
    have htag : Progress.run ⟨opened, .expression⟩ (es ++ [⟨.tagClose, q⟩]) =
        some ⟨opened, .nodes⟩ := he.advance_tag q []
    have hsplit : es ++ ⟨.tagClose, q⟩ :: r = (es ++ [⟨.tagClose, q⟩]) ++ r := by simp
    rw [hsplit]
    exact .of_run htag hbody

/-- Whatever the tokens, reading them as a body or as the branches of a conditional stops where it
has to. -/
theorem fails : (∀ place toks, BodyFails place toks) ∧ ∀ toks, BranchesFails toks := by
  -- The cases are those of the reader: no token, text, the three openings, what ends a body where it
  -- stands, and what can stand nowhere.
  apply body.mutual_induct BodyFails BranchesFails
  case case1 =>
    intro st opened _ h
    rw [body, if_pos rfl] at h
    cases h
  case case2 =>
    intro place hp st opened hplace h
    rw [body, if_neg hp] at h
    cases h
    exact (halts_nodes hplace (fun _ => hp) (by simp)).fails
  case case3 =>
    intro place s p rest ih st opened hplace h
    rw [body] at h
    have hrun : Progress.run ⟨opened, .nodes⟩ [⟨.text s, p⟩] = some ⟨opened, .nodes⟩ := rfl
    exact .of_run hrun (ih st opened hplace (error_of_return h))
  case case4 =>
    intro place p rest ih st opened hplace h
    rw [body] at h
    have hrun : Progress.run ⟨opened, .nodes⟩ [⟨.outputOpen, p⟩] = some ⟨opened, .expression⟩ := rfl
    exact .of_run hrun (fails_of_tag hplace ih (error_of_steps h))
  case case5 =>
    intro place p rest ih st opened hplace h
    rw [body] at h
    have hrun : Progress.run ⟨opened, .nodes⟩ [⟨.rawOpen, p⟩] = some ⟨opened, .expression⟩ := rfl
    exact .of_run hrun (fails_of_tag hplace ih (error_of_steps h))
  case case6 =>
    intro place p q rest hb ih
    exact bodyFails_conditional hb ih false
  case case7 =>
    intro place p q rest hb ih
    exact bodyFails_conditional hb ih true
  case case8 =>
    intro p q rest st opened _ h
    rw [body, if_pos rfl] at h
    cases h
  case case9 =>
    intro place p q rest hp st opened hplace h
    refine bodyFails_block h (by rw [body, if_neg hp]) hplace ?_
    rintro t us ⟨⟩
    cases place with
    | thenBranch => exact absurd rfl hp
    | top =>
      cases hplace
      rfl
    | elseBranch =>
      obtain ⟨outer, rfl⟩ := hplace
      rfl
  case case10 =>
    intro p q rest st opened hplace h
    refine bodyFails_block h (by rw [body, if_pos rfl]) hplace ?_
    rintro t us ⟨⟩
    cases hplace
    rfl
  case case11 =>
    intro place p q rest hp st opened _ h
    rw [body, if_neg hp] at h
    cases h
  case case12 =>
    intro place p rest hif hunless helse hend st opened hplace h
    refine bodyFails_block h (by rw [body] <;> assumption) hplace ?_
    rintro ⟨t, q⟩ us rfl
    cases t with
    | kwIf => exact (hif q us rfl).elim
    | kwUnless => exact (hunless q us rfl).elim
    | kwElse => exact (helse q us rfl).elim
    | kwEnd => exact (hend q us rfl).elim
    | _ => simp [Progress.step, openedAfter, positionAfter]
  case case13 =>
    intro place toks hnil htext houtput hraw _ _ _ _ hblock st opened hplace h
    rw [body] at h
    · cases h
      refine (halts_nodes hplace (fun e => (hnil e).elim) ?_).fails
      rintro ⟨t, q⟩ us rfl
      cases t with
      | text s => exact (htext s q us rfl).elim
      | outputOpen => exact (houtput q us rfl).elim
      | rawOpen => exact (hraw q us rfl).elim
      | blockOpen => exact (hblock q us rfl).elim
      | _ => rfl
    all_goals assumption
  case case14 =>
    intro toks ihx ihy
    exact branchesFails ihx ihy

/-- Reading a template stops where it has to. -/
theorem body_fails (h : body .top toks = .error st) : Fails .start toks st :=
  fails.1 .top toks st [] rfl h

end Bodies

end Reader

namespace Grammar

variable {ts us : List (Located Token)} {t : Located Token}

/-- A template can begin with the tokens. -/
def Viable (ts : List (Located Token)) : Prop := ∃ us b, Nodes (ts ++ us) b

/-- Tokens are those of a template exactly if each can come next and the template is at an end then. -/
theorem exists_nodes_iff_run : (∃ b, Nodes ts b) ↔ Progress.run .start ts = some .start := by
  constructor
  · rintro ⟨b, h⟩
    exact h.advance []
  · intro hrun
    cases h : Reader.body .top ts with
    | ok taken =>
      obtain ⟨b, rest, hlt⟩ := taken
      obtain ⟨us, hus, hn, hrest⟩ := Reader.body_sound (r := rest) ⟨hlt, h⟩
      have hts : ts = us := by rw [hus, show rest = [] from hrest, List.append_nil]
      exact ⟨b, hts ▸ hn⟩
    | error st =>
      -- Reading stops only where the next token cannot come, or where the template is not at an end.
      obtain ⟨us, s, hus, hs, hhalts⟩ := Reader.body_fails h
      rw [hus, Progress.run_append, hs] at hrun
      cases hrest : st.rest with
      | nil =>
        rw [hrest] at hrun
        exact absurd (Option.some.inj hrun) (hhalts.unfinished hrest)
      | cons t rest =>
        rw [hrest] at hrun
        simp [hhalts.refused t rest hrest] at hrun

/-- A template can begin with tokens exactly if each of them can come next. -/
theorem viable_iff_run : Viable ts ↔ ∃ s, Progress.run .start ts = some s := by
  constructor
  · rintro ⟨us, b, h⟩
    have hrun := exists_nodes_iff_run.1 ⟨b, h⟩
    rw [Progress.run_append] at hrun
    obtain ⟨s, hs, -⟩ := Option.bind_eq_some_iff.1 hrun
    exact ⟨s, hs⟩
  · rintro ⟨s, hs⟩
    obtain ⟨us, hus⟩ := s.exists_run_start
    have hrun : Progress.run .start (ts ++ us) = some .start := by
      rw [Progress.run_append, hs]
      exact hus
    obtain ⟨b, h⟩ := exists_nodes_iff_run.2 hrun
    exact ⟨us, b, h⟩

/-- Behind tokens that a template can begin with, another one can follow exactly if it can come next.
-/
theorem viable_append_iff {s : Progress} (h : Progress.run .start ts = some s) :
    Viable (ts ++ [t]) ↔ (s.step t.item).isSome = true := by
  rw [viable_iff_run, Progress.run_append, h, Option.isSome_iff_exists]
  simp

end Grammar

end Stencil
