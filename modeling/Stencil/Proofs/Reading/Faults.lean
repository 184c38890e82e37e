import Stencil.Proofs.Reading.Sound

/-!
# What is parsed, and what is refused

A source is parsed exactly if its tokens are derivable, and then to the tree of the derivation, of
which there is one. Main statement: `parse_eq_ok_iff_derivable`, which also names the faults that
make a source be refused. They are found by reading the tokens once from left to right, with the
conditionals that are open, whether a call is open, and what may not come next (`Scan`); derivable
tokens lead from the empty state back to it.
-/

namespace Stencil.Grammar

/-- The conditionals that are open after a token, the innermost first, each with whether its `else`
has come; nothing for an `else` or an `end` that no open conditional can take. -/
def openedAfter (opened : List Bool) : Token → Option (List Bool)
  | .kwIf | .kwUnless => some (false :: opened)
  | .kwElse =>
    match opened with
    | false :: outer => some (true :: outer)
    | _ => none
  | .kwEnd =>
    match opened with
    | _ :: outer => some outer
    | [] => none
  | _ => some opened

/-- What no tokens of a template have. -/
inductive Fault (ts : List Token) : Prop
  /-- Signs that belong to no template. -/
  | unknown (s : String) : .unknown s ∈ ts → Fault ts
  /-- A tag without an end. -/
  | unclosed (opener : String) : .unclosed opener ∈ ts → Fault ts
  /-- An `else` or an `end` outside of conditionals, or a second `else`. -/
  | stray : ts.foldlM openedAfter [] = none → Fault ts
  /-- A conditional without an end. -/
  | unfinished (c : Bool) (opened : List Bool) :
      ts.foldlM openedAfter [] = some (c :: opened) → Fault ts
  /-- A call that begins before another one is closed. -/
  | nestedCall (xs ys zs : List Token) :
      ts = xs ++ .parenOpen :: ys ++ .parenOpen :: zs → .parenClose ∉ ys → Fault ts
  /-- A comma in front of the first argument. -/
  | leadingComma : [.parenOpen, .comma] <:+: ts → Fault ts
  /-- A point with no name behind it. -/
  | trailingDot (xs ys : List Token) :
      ts = xs ++ .dot :: ys → (∀ name zs, ys ≠ .ident name :: zs) → Fault ts

/-- Whether a call is open after a token; nothing for a call within a call. -/
def callAfter (call : Bool) : Token → Option Bool
  | .parenOpen => if call then none else some true
  | .parenClose => some false
  | _ => some call

/-- What a token asks of the one after it. -/
inductive Next where
  | any
  | name
  | noComma
  deriving DecidableEq

/-- What a token asks of the one after it, if it may stand here itself. -/
def nextAfter (next : Next) : Token → Option Next
  | .unknown _ | .unclosed _ => none
  | .ident _ => some .any
  | .comma => if next = .any then some .any else none
  | .dot => if next = .name then none else some .name
  | .parenOpen => if next = .name then none else some .noComma
  | _ => if next = .name then none else some .any

/-- What is known when tokens have been read up to some place. -/
structure Scan where
  opened : List Bool
  call : Bool
  next : Next

namespace Scan

/-- The state before the first token, and between nodes outside of conditionals. -/
def start : Scan := ⟨[], false, .any⟩

/-- One token is read. -/
def step (s : Scan) (t : Token) : Option Scan :=
  (openedAfter s.opened t).bind fun opened =>
    (callAfter s.call t).bind fun call => (nextAfter s.next t).map fun next => ⟨opened, call, next⟩

/-- Tokens are read one after another. -/
def run (s : Scan) (ts : List (Located Token)) : Option Scan :=
  (ts.map (·.item)).foldlM step s

@[simp] theorem run_nil (s : Scan) : s.run [] = some s := rfl

@[simp] theorem run_cons (s : Scan) (t : Located Token) (ts : List (Located Token)) :
    s.run (t :: ts) = (s.step t.item).bind (·.run ts) := rfl

@[simp] theorem run_append (s : Scan) (ts us : List (Located Token)) :
    s.run (ts ++ us) = (s.run ts).bind (·.run us) := by
  rw [run, List.map_append, List.foldlM_append]
  rfl

/-- A token can be read if each part of the state allows it. -/
theorem of_step {s s' : Scan} {t : Token} (h : s.step t = some s') :
    openedAfter s.opened t = some s'.opened ∧ callAfter s.call t = some s'.call ∧
      nextAfter s.next t = some s'.next := by
  obtain ⟨opened, ho, h⟩ := Option.bind_eq_some_iff.1 h
  obtain ⟨call, hc, h⟩ := Option.bind_eq_some_iff.1 h
  obtain ⟨next, hn, rfl⟩ := Option.map_eq_some_iff.1 h
  exact ⟨ho, hc, hn⟩

/-- If tokens can be read then each part of the state has gone through all of them. -/
theorem of_foldlM {s s' : Scan} {ts : List Token} (h : ts.foldlM step s = some s') :
    ts.foldlM openedAfter s.opened = some s'.opened ∧ ts.foldlM callAfter s.call = some s'.call ∧
      ts.foldlM nextAfter s.next = some s'.next := by
  induction ts generalizing s with
  | nil =>
    cases h
    exact ⟨rfl, rfl, rfl⟩
  | cons t ts ih =>
    obtain ⟨s₁, h₁, h⟩ := Option.bind_eq_some_iff.1 h
    obtain ⟨ho, hc, hn⟩ := of_step h₁
    obtain ⟨io, ic, jn⟩ := ih h
    exact ⟨Option.bind_eq_some_iff.2 ⟨_, ho, io⟩, Option.bind_eq_some_iff.2 ⟨_, hc, ic⟩,
      Option.bind_eq_some_iff.2 ⟨_, hn, jn⟩⟩

end Scan

section Derivable

variable {ts : List (Located Token)} {opened : List Bool}

/-- Steps into a value leave the state as it is. -/
theorem Steps.run {names : List String} (h : Steps ts names) (call : Bool) :
    Scan.run ⟨opened, call, .any⟩ ts = some ⟨opened, call, .any⟩ := by
  induction h with
  | nil => rfl
  | cons _ ih =>
    simp only [Scan.run_cons]
    exact ih

/-- An operand can stand where no point has gone before, and asks nothing of what follows. -/
theorem Argument.run {o : Operand} (h : Argument ts o) (call : Bool) {next : Next}
    (hn : next ≠ .name) : Scan.run ⟨opened, call, next⟩ ts = some ⟨opened, call, .any⟩ := by
  cases next with
  | name => exact absurd rfl hn
  | any =>
    cases h with
    | str => rfl
    | int => rfl
    | path h =>
      rw [Scan.run_cons]
      exact h.run call
  | noComma =>
    cases h with
    | str => rfl
    | int => rfl
    | path h =>
      rw [Scan.run_cons]
      exact h.run call

/-- Arguments keep a call open, and the parenthesis behind them closes it. -/
theorem Arguments.run {args : List Operand} (h : Arguments ts args) (q : Span) {next : Next}
    (hn : next ≠ .name) :
    Scan.run ⟨opened, true, next⟩ (ts ++ [⟨.parenClose, q⟩]) = some ⟨opened, false, .any⟩ := by
  induction h generalizing next with
  | nil =>
    cases next with
    | name => exact absurd rfl hn
    | any => rfl
    | noComma => rfl
  | last ha =>
    rw [Scan.run_append, ha.run true hn]
    rfl
  | cons ha _ ih =>
    rw [List.append_assoc, Scan.run_append, ha.run true hn]
    exact ih (by decide)

/-- An expression leaves the state as it is. -/
theorem Expression.run {e : Expr} (h : Expression ts e) :
    Scan.run ⟨opened, false, .any⟩ ts = some ⟨opened, false, .any⟩ := by
  cases h with
  | operand ho => exact ho.run false (by decide)
  | @call _ _ r _ us _ ha =>
    -- The name and the parenthesis open the call that the arguments then stand in.
    have h : Scan.run ⟨opened, true, .noComma⟩ (us ++ [⟨.parenClose, r⟩]) = _ :=
      ha.run r (by decide)
    exact h

/-- A tag leaves the state as it is, from its expression to its end. -/
theorem Expression.run_tag {e : Expr} (h : Expression ts e) (q : Span)
    (us : List (Located Token)) :
    Scan.run ⟨opened, false, .any⟩ (ts ++ ⟨.tagClose, q⟩ :: us) =
      Scan.run ⟨opened, false, .any⟩ us := by
  rw [Scan.run_append, h.run]
  rfl

/-- A conditional begins with a block that opens it. -/
theorem run_opening (negated : Bool) (p q : Span) (us : List (Located Token)) :
    Scan.run ⟨opened, false, .any⟩ (⟨.blockOpen, p⟩ :: ⟨opening negated, q⟩ :: us) =
      Scan.run ⟨false :: opened, false, .any⟩ us := by
  cases negated with
  | false => rfl
  | true => rfl

/-- Nodes leave the state as it is, whichever conditionals they stand in. -/
theorem Nodes.run {b : Body} (h : Nodes ts b) (opened : List Bool) :
    Scan.run ⟨opened, false, .any⟩ ts = some ⟨opened, false, .any⟩ := by
  induction h generalizing opened with
  | nil => rfl
  | text _ ih => exact ih opened
  | output he _ ih => exact (he.run_tag _ _).trans (ih opened)
  | raw he _ ih => exact (he.run_tag _ _).trans (ih opened)
  | @conditional p q r x y z negated es xs ts _ _ _ he _ _ ihx iht =>
    -- The branch is scanned with its conditional open, which the block behind it closes.
    have hx : Scan.run ⟨false :: opened, false, .any⟩ (xs ++ (mark .kwEnd x y z ++ ts)) =
        some ⟨opened, false, .any⟩ := by
      rw [Scan.run_append, ihx]
      exact iht opened
    simp only [List.cons_append, List.append_assoc] at hx ⊢
    rw [run_opening, he.run_tag, hx]
  | @alternative p q r u v w x y z negated es xs ys ts _ _ _ _ he _ _ _ ihx ihy iht =>
    have hy : Scan.run ⟨true :: opened, false, .any⟩ (ys ++ (mark .kwEnd x y z ++ ts)) =
        some ⟨opened, false, .any⟩ := by
      rw [Scan.run_append, ihy]
      exact iht opened
    have hx : Scan.run ⟨false :: opened, false, .any⟩
        (xs ++ (mark .kwElse u v w ++ (ys ++ (mark .kwEnd x y z ++ ts)))) =
          some ⟨opened, false, .any⟩ := by
      rw [Scan.run_append, ihx]
      exact hy
    simp only [List.cons_append, List.append_assoc] at hx ⊢
    rw [run_opening, he.run_tag, hx]

end Derivable

/-- If tokens can be read then so can each of them, after those before it. -/
theorem foldlM_split {σ : Type} {f : σ → Token → Option σ} {s s' : σ} {xs ys : List Token}
    {t : Token} (h : (xs ++ t :: ys).foldlM f s = some s') :
    ∃ s₁ s₂, xs.foldlM f s = some s₁ ∧ f s₁ t = some s₂ ∧ ys.foldlM f s₂ = some s' := by
  rw [List.foldlM_append] at h
  obtain ⟨s₁, h₁, h⟩ := Option.bind_eq_some_iff.1 h
  obtain ⟨s₂, h₂, h⟩ := Option.bind_eq_some_iff.1 h
  exact ⟨s₁, s₂, h₁, h₂, h⟩

/-- A call stays open until a parenthesis closes it. -/
theorem foldlM_callAfter {ys : List Token} {c : Bool} (h : ys.foldlM callAfter true = some c)
    (hy : .parenClose ∉ ys) : c = true := by
  induction ys with
  | nil => exact (Option.some.inj h).symm
  | cons t ys ih =>
    obtain ⟨c₁, h₁, h⟩ := Option.bind_eq_some_iff.1 h
    have hc : c₁ = true := by
      cases t <;> simp_all [callAfter]
    rw [hc] at h
    exact ih h (List.not_mem_of_not_mem_cons hy)

/-- Derivable tokens have no fault. -/
theorem Nodes.not_fault {ts : List (Located Token)} {b : Body} (h : Nodes ts b) :
    ¬ Fault (ts.map (·.item)) := by
  -- The scan of derivable tokens comes through, and each fault stops a part of it.
  obtain ⟨ho, hc, hn⟩ := Scan.of_foldlM (h.run [])
  intro fault
  cases fault with
  | unknown s hs =>
    obtain ⟨xs, ys, e⟩ := List.append_of_mem hs
    rw [e] at hn
    obtain ⟨_, _, _, ht, _⟩ := foldlM_split hn
    cases ht
  | unclosed opener hs =>
    obtain ⟨xs, ys, e⟩ := List.append_of_mem hs
    rw [e] at hn
    obtain ⟨_, _, _, ht, _⟩ := foldlM_split hn
    cases ht
  | stray hs =>
    rw [hs] at ho
    cases ho
  | unfinished c opened hs =>
    rw [hs] at ho
    cases ho
  | nestedCall xs ys zs e hy =>
    rw [e] at hc
    obtain ⟨c₁, c₂, hxy, hp, _⟩ := foldlM_split hc
    obtain ⟨c₃, c₄, _, hp', hys⟩ := foldlM_split hxy
    have hopen : c₄ = true := by
      cases c₃ <;> simp_all [callAfter]
    rw [hopen] at hys
    rw [foldlM_callAfter hys hy] at hp
    cases hp
  | leadingComma he =>
    obtain ⟨xs, ys, e⟩ := he
    rw [← e, List.append_assoc] at hn
    obtain ⟨n₁, n₂, _, hp, h⟩ := foldlM_split hn
    obtain ⟨n₃, hq, _⟩ := Option.bind_eq_some_iff.1 h
    have hnext : n₂ = .noComma := by
      cases n₁ <;> simp_all [nextAfter]
    rw [hnext] at hq
    cases hq
  | trailingDot xs ys e hy =>
    rw [e] at hn
    obtain ⟨n₁, n₂, _, hp, h⟩ := foldlM_split hn
    have hnext : n₂ = .name := by
      cases n₁ <;> simp_all [nextAfter]
    rw [hnext] at h
    cases ys with
    | nil => cases h
    | cons t ys =>
      obtain ⟨n₃, hq, _⟩ := Option.bind_eq_some_iff.1 h
      cases t <;> simp_all [nextAfter]

/-- Tokens describe at most one tree. -/
theorem Nodes.unique {ts : List (Located Token)} {a b : Body} (ha : Nodes ts a)
    (hb : Nodes ts b) : a = b := by
  have ra := Reader.body_append ha .top (r := []) rfl
  have rb := Reader.body_append hb .top (r := []) rfl
  exact (ra.unique rb).1

end Stencil.Grammar

namespace Stencil

/-- A source is parsed exactly if its tokens are derivable, and then to the one tree that they
describe, places included; a source with a fault in its tokens is refused. -/
theorem parse_eq_ok_iff_derivable (source : String) :
    (∀ b, parse source = .ok b ↔ Grammar.Nodes (tokenize source) b) ∧
      (∀ ts a b, Grammar.Nodes ts a → Grammar.Nodes ts b → a = b) ∧
      (Grammar.Fault ((tokenize source).map (·.item)) → ∃ e, parse source = .error e) := by
  refine ⟨fun b => ⟨nodes_of_parse, parse_of_nodes⟩, fun ts a b => Grammar.Nodes.unique, ?_⟩
  intro fault
  cases h : parse source with
  | error e => exact ⟨e, rfl⟩
  | ok b => exact absurd fault (nodes_of_parse h).not_fault

/-- A conditional with a call in one branch is parsed, and a call that begins with a comma is not.
-/
theorem parse_conditional_with_call :
    parse "\x7b% if a.b %\x7dx\x7b% else %\x7d\x7b\x7b f(c, 1,) \x7d\x7d\x7b% end %\x7d" =
        .ok (.conditional ⟨0, 46⟩ false ⟨.operand (.path "a" ["b"]), ⟨6, 9⟩⟩
          (.text ⟨12, 13⟩ "x" .nil)
          (.output ⟨23, 37⟩ ⟨.call "f" [.path "c" [], .int 1], ⟨26, 34⟩⟩ .nil) .nil) ∧
      ∃ e, parse "\x7b\x7b f(, a) \x7d\x7d" = .error e := by
  constructor
  · refine ((parse_eq_ok_iff_derivable _).1 _).2 ?_
    have tokens : tokenize
        "\x7b% if a.b %\x7dx\x7b% else %\x7d\x7b\x7b f(c, 1,) \x7d\x7d\x7b% end %\x7d" =
      [⟨.blockOpen, ⟨0, 2⟩⟩, ⟨.kwIf, ⟨3, 5⟩⟩, ⟨.ident "a", ⟨6, 7⟩⟩, ⟨.dot, ⟨7, 8⟩⟩,
        ⟨.ident "b", ⟨8, 9⟩⟩, ⟨.tagClose, ⟨10, 12⟩⟩, ⟨.text "x", ⟨12, 13⟩⟩,
        ⟨.blockOpen, ⟨13, 15⟩⟩, ⟨.kwElse, ⟨16, 20⟩⟩, ⟨.tagClose, ⟨21, 23⟩⟩,
        ⟨.outputOpen, ⟨23, 25⟩⟩, ⟨.ident "f", ⟨26, 27⟩⟩, ⟨.parenOpen, ⟨27, 28⟩⟩,
        ⟨.ident "c", ⟨28, 29⟩⟩, ⟨.comma, ⟨29, 30⟩⟩, ⟨.int 1, ⟨31, 32⟩⟩, ⟨.comma, ⟨32, 33⟩⟩,
        ⟨.parenClose, ⟨33, 34⟩⟩, ⟨.tagClose, ⟨35, 37⟩⟩, ⟨.blockOpen, ⟨37, 39⟩⟩,
        ⟨.kwEnd, ⟨40, 43⟩⟩, ⟨.tagClose, ⟨44, 46⟩⟩] := by
      decide +kernel
    rw [tokens]
    change Grammar.Nodes (⟨.blockOpen, ⟨0, 2⟩⟩ :: ⟨Grammar.opening false, ⟨3, 5⟩⟩ :: _) _
    exact .alternative (.operand (.path (.cons .nil))) (.text .nil)
      (.output (.call (.cons (.path .nil) (.cons (.int) .nil))) .nil) .nil
  · refine (parse_eq_ok_iff_derivable _).2.2 (.leadingComma ?_)
    have tokens : (tokenize "\x7b\x7b f(, a) \x7d\x7d").map (·.item) =
        [.outputOpen, .ident "f", .parenOpen, .comma, .ident "a", .parenClose, .tagClose] := by
      decide +kernel
    rw [tokens]
    exact ⟨[.outputOpen, .ident "f"], [.ident "a", .parenClose, .tagClose], rfl⟩

end Stencil
