import Mathlib.Data.List.Forall2
import Stencil.Proofs.Markup.Inert
import Stencil.Proofs.Reading.Complete
import Stencil.Proofs.Rendering.Pieces

/-!
# Escaping is complete

A template without triple braces prints its own texts, the captured content, and nothing else that a
reader of markup could take for more than text. Main statement: `output_is_escaped`. It rests on
what evaluation can trust: an expression evaluates to markup only if that is the captured content,
whatever helper hands it on (`trusted_of_eval`).
-/

namespace Stencil

/-- What a body prints without triple braces: a text of its own, or the result of an expression. -/
inductive Leaf where
  | text (s : String)
  | output (e : Expr)
  deriving DecidableEq, Repr

/-- What a leaf may print in a scope. The result of an expression is the captured content as it
stands, or inert. -/
def Leaf.Prints (scope : Scope) : Leaf → Markup → Prop
  | .text s, m => m.html = s
  | .output e, m =>
    (∃ r, e.eval scope = .ok r ∧ r.escaped = m) ∧
      (scope.content = some m ∨ Inert m.html.toList)

/-- The signs that a leaf brings into an output without content. -/
def Leaf.signs : Leaf → List Char
  | .text s => Markup.signs ⟨s⟩
  | .output _ => []

/-- Whether a conditional takes its first branch in a scope; none if its condition has no value. -/
def Expr.holds? (scope : Scope) (negated : Bool) (e : Expr) : Option Bool :=
  match e.eval scope with
  | .ok r => some (r.isTruthy != negated)
  | .error _ => none

namespace Body

/-- Whether a body has no triple braces, in its branches either. -/
def isRawFree : Body → Bool
  | .nil => true
  | .text _ _ rest => rest.isRawFree
  | .output _ _ rest => rest.isRawFree
  | .raw _ _ _ => false
  | .conditional _ _ _ thenBranch elseBranch rest =>
    thenBranch.isRawFree && elseBranch.isRawFree && rest.isRawFree

/-- The leaves that are reached in a scope, in the order of the template. -/
def reached (scope : Scope) : Body → List Leaf
  | .nil => []
  | .text _ s rest => .text s :: rest.reached scope
  | .output _ e rest => .output e.item :: rest.reached scope
  | .raw _ _ rest => rest.reached scope
  | .conditional _ negated e thenBranch elseBranch rest =>
    (match e.item.holds? scope negated with
      | some true => thenBranch.reached scope
      | some false => elseBranch.reached scope
      | none => []) ++ rest.reached scope

/-- Two scopes in which each conditional that is reached takes the same branch. -/
def SameBranches (s t : Scope) : Body → Prop
  | .nil => True
  | .text _ _ rest => rest.SameBranches s t
  | .output _ _ rest => rest.SameBranches s t
  | .raw _ _ rest => rest.SameBranches s t
  | .conditional _ negated e thenBranch elseBranch rest =>
    e.item.holds? s negated = e.item.holds? t negated ∧
      (e.item.holds? s negated = some true → thenBranch.SameBranches s t) ∧
      (e.item.holds? s negated = some false → elseBranch.SameBranches s t) ∧
      rest.SameBranches s t

end Body

section Trust

variable {scope : Scope}

/-- A result that is markup only if it is the captured content, which is empty if there is none. -/
def Result.Trusted (scope : Scope) (r : Result) : Prop :=
  ∀ m, r = .markup m → m = scope.content.getD {}

/-- A value can be trusted, since it is escaped. -/
theorem Result.trusted_value (v : Value) : (Result.value v).Trusted scope := by
  intro m h
  cases h

/-- A change of text keeps a result trusted. -/
theorem Result.Trusted.mapText {r : Result} (h : r.Trusted scope) (f : String → String) :
    (r.mapText f).Trusted scope := by
  cases r with
  | markup m => exact h
  | value v => exact trusted_value _

/-- An operand evaluates to a trusted result. -/
theorem Operand.trusted_of_eval {o : Operand} {r : Result} (h : o.eval scope = .ok r) :
    r.Trusted scope := by
  cases o with
  | str s =>
    cases h
    exact Result.trusted_value _
  | int n =>
    cases h
    exact Result.trusted_value _
  | path root steps =>
    rw [Operand.eval] at h
    split at h
    -- The bare name of the content is the one operand that is markup.
    · cases h
      rintro m ⟨rfl⟩
      rfl
    · obtain ⟨v, -, rfl⟩ := map_eq_ok.1 h
      exact Result.trusted_value _

/-- Operands evaluate to trusted results. -/
theorem Operand.trusted_of_evalAll {os : List Operand} {rs : List Result}
    (h : Operand.evalAll scope os = .ok rs) : ∀ r ∈ rs, r.Trusted scope := by
  induction os generalizing rs with
  | nil =>
    cases h
    simp
  | cons o os ih =>
    obtain ⟨r, hr, h⟩ := bind_eq_ok.1 h
    obtain ⟨rs', hrs, h⟩ := bind_eq_ok.1 h
    cases h
    intro x hx
    rcases List.mem_cons.1 hx with rfl | hx
    · exact Operand.trusted_of_eval hr
    · exact ih hrs x hx

/-- A helper hands on what it can trust: none of the four makes markup of a value. -/
theorem Helper.trusted_of_apply {helper : Helper} {first r : Result} {others : List Result}
    (hf : first.Trusted scope) (ho : ∀ x ∈ others, x.Trusted scope)
    (h : helper.apply scope first others = .ok r) : r.Trusted scope := by
  cases helper with
  | url =>
    rw [Helper.apply] at h
    split at h
    · cases h
      exact Result.trusted_value _
    · cases h
  | upcase =>
    cases h
    exact hf.mapText _
  | downcase =>
    cases h
    exact hf.mapText _
  | default =>
    cases h
    split
    · exact hf
    · cases others with
      | nil => exact Result.trusted_value _
      | cons x others => exact ho x List.mem_cons_self

/-- An expression evaluates to markup only if that is the captured content. -/
theorem Expr.trusted_of_eval {e : Expr} {r : Result} (h : e.eval scope = .ok r) :
    r.Trusted scope := by
  cases e with
  | operand o => exact Operand.trusted_of_eval h
  | call name args =>
    obtain ⟨rs, hrs, h⟩ := bind_eq_ok.1 h
    have hall := Operand.trusted_of_evalAll hrs
    split at h
    · refine Helper.trusted_of_apply ?_ (fun x hx => hall x (List.mem_of_mem_tail hx)) h
      cases rs with
      | nil => exact Result.trusted_value _
      | cons x rs => exact hall x List.mem_cons_self
    · cases h

/-- Between double braces a trusted result is the captured content or inert. -/
theorem Result.Trusted.escaped {r : Result} (h : r.Trusted scope) :
    scope.content = some r.escaped ∨ Inert r.escaped.html.toList := by
  cases r with
  | value v => exact .inr (inert_ofText _)
  | markup m =>
    have hm := h m rfl
    cases hc : scope.content with
    | none =>
      rw [hc] at hm
      subst hm
      exact .inr inert_nil
    | some c =>
      rw [hc] at hm
      subst hm
      exact .inl rfl

end Trust

/-- A leaf that prints without content brings its own signs. -/
theorem Leaf.Prints.signs_eq {scope : Scope} {leaf : Leaf} {m : Markup} (h : leaf.Prints scope m)
    (hc : scope.content = none) : m.signs = leaf.signs := by
  cases leaf with
  | text s =>
    obtain ⟨html⟩ := m
    cases h
    rfl
  | output e =>
    obtain ⟨-, hm | hm⟩ := h
    · rw [hc] at hm
      cases hm
    · exact hm.signs_eq_nil

/-- Leaves that print without content bring their own signs, one after another. -/
theorem flatMap_signs_eq {scope : Scope} {leaves : List Leaf} {ps : List Markup}
    (hc : scope.content = none) (h : List.Forall₂ (Leaf.Prints scope) leaves ps) :
    ps.flatMap Markup.signs = leaves.flatMap Leaf.signs := by
  induction h with
  | nil => rfl
  | cons hp _ ih => rw [List.flatMap_cons, List.flatMap_cons, ih, hp.signs_eq hc]

namespace Body

/-- The condition of a conditional has a value if the conditional is rendered. -/
theorem holds?_eq_some {scope : Scope} {e : Expr} {r : Result} (negated : Bool)
    (h : e.eval scope = .ok r) : e.holds? scope negated = some (r.isTruthy != negated) := by
  rw [Expr.holds?, h]

/-- Each reached leaf prints one piece, in the order of the template. -/
theorem forall₂_prints {scope : Scope} {b : Body} {ps : List Markup} (hb : b.isRawFree = true)
    (h : b.pieces scope = .ok ps) : List.Forall₂ (Leaf.Prints scope) (b.reached scope) ps := by
  induction b generalizing ps with
  | nil =>
    cases h
    exact .nil
  | text span s rest ih =>
    obtain ⟨more, hm, rfl⟩ := pieces_text_eq_ok.1 h
    exact .cons rfl (ih hb hm)
  | output span e rest ih =>
    obtain ⟨r, hr, more, hm, rfl⟩ := pieces_output_eq_ok.1 h
    exact .cons ⟨⟨r, hr, rfl⟩, (Expr.trusted_of_eval hr).escaped⟩ (ih hb hm)
  | raw span e rest ih => cases hb
  | conditional span negated e x y rest ihx ihy ih =>
    obtain ⟨r, hr, branch, hbr, more, hm, rfl⟩ := pieces_conditional_eq_ok.1 h
    simp only [isRawFree, Bool.and_eq_true] at hb
    rw [reached, holds?_eq_some negated hr]
    -- The branch that was rendered is the one whose leaves are reached.
    refine List.rel_append ?_ (ih hb.2 hm)
    cases ht : r.isTruthy != negated with
    | true =>
      rw [if_pos ht] at hbr
      exact ihx hb.1.1 hbr
    | false =>
      rw [if_neg (by simp [ht])] at hbr
      exact ihy hb.1.2 hbr

/-- In scopes that take the same branches the same leaves are reached. -/
theorem SameBranches.reached_eq {s t : Scope} {b : Body} (h : b.SameBranches s t) :
    b.reached s = b.reached t := by
  induction b with
  | nil => rfl
  | text span text rest ih => exact congrArg _ (ih h)
  | output span e rest ih => exact congrArg _ (ih h)
  | raw span e rest ih => exact ih h
  | conditional span negated e x y rest ihx ihy ih =>
    obtain ⟨heq, hx, hy, hrest⟩ := h
    rw [reached, reached, ← heq, ih hrest]
    cases hs : e.item.holds? s negated with
    | none => rfl
    | some branch =>
      cases branch with
      | true => rw [ihx (hx hs)]
      | false => rw [ihy (hy hs)]

/-- Without content the signs of an output are those of the texts that are reached. -/
theorem signs_of_render {scope : Scope} {b : Body} {m : Markup} (hb : b.isRawFree = true)
    (hc : scope.content = none) (h : b.render scope = .ok m) :
    m.signs = (b.reached scope).flatMap Leaf.signs := by
  obtain ⟨ps, hps, rfl⟩ := render_eq_ok.1 h
  rw [Markup.signs_join]
  exact flatMap_signs_eq hc (forall₂_prints hb hps)

end Body

/-- In a template that compiles and has no triple braces, each leaf that is reached prints one
piece, in order: a text prints itself, and an expression prints the captured content or inert text.
So two scopes without content in which the same branches are taken yield outputs with the same
signs. -/
theorem output_is_escaped {a : Adapter} {routine : Routine}
    (h : Handler.html.call a = .ok routine) :
    ∃ b, parse a.source = .ok b ∧ (b.isRawFree = true →
      (∀ scope m, routine scope = .ok m →
        ∃ ps, Markup.join ps = m ∧ List.Forall₂ (Leaf.Prints scope) (b.reached scope) ps) ∧
      ∀ s t m n, s.content = none → t.content = none → b.SameBranches s t →
        routine s = .ok m → routine t = .ok n → m.signs = n.signs) := by
  obtain ⟨b, hp, -, rfl⟩ := Handler.compileHtml_eq_ok.1 h
  refine ⟨b, hp, fun hb => ⟨?_, ?_⟩⟩
  · intro scope m hm
    obtain ⟨ps, hps, hj⟩ := Body.render_eq_ok.1 hm
    exact ⟨ps, hj, Body.forall₂_prints hb hps⟩
  -- Without content an expression brings no sign, so that the texts bring them all.
  · intro s t m n hs ht hst hm hn
    rw [Body.signs_of_render hb hs hm, Body.signs_of_render hb ht hn, hst.reached_eq]

/-- A value in a branch is escaped, and the content that a helper hands on is printed as it stands.
-/
theorem output_is_escaped_in_branch :
    ∃ routine,
      Handler.html.call
          ⟨"\x7b% if a %\x7d<b>\x7b\x7b a \x7d\x7d\x7b\x7b default(b, content) \x7d\x7d\x7b% end %\x7d",
            "html"⟩ = .ok routine ∧
        (∃ ps, Markup.join ps = ⟨"<b>&lt;i&gt;<hr>"⟩ ∧
          List.Forall₂
            (Leaf.Prints ⟨"Box", ⟨[("a", .str "<i>"), ("b", .null)]⟩, some ⟨"<hr>"⟩, .empty⟩)
            [.text "<b>", .output (.operand (.path "a" [])),
              .output (.call "default" [.path "b" [], .path "content" []])] ps) ∧
        Markup.signs ⟨"<b>&lt;i&gt;"⟩ = Markup.signs ⟨"<b>x"⟩ := by
  have hparse : parse
      "\x7b% if a %\x7d<b>\x7b\x7b a \x7d\x7d\x7b\x7b default(b, content) \x7d\x7d\x7b% end %\x7d" =
      .ok (.conditional ⟨0, 54⟩ false ⟨.operand (.path "a" []), ⟨6, 7⟩⟩
        (.text ⟨10, 13⟩ "<b>"
          (.output ⟨13, 20⟩ ⟨.operand (.path "a" []), ⟨16, 17⟩⟩
            (.output ⟨20, 45⟩ ⟨.call "default" [.path "b" [], .path "content" []], ⟨23, 42⟩⟩
              .nil))) .nil .nil) := by
    apply parse_of_nodes
    have tokens : tokenize
        "\x7b% if a %\x7d<b>\x7b\x7b a \x7d\x7d\x7b\x7b default(b, content) \x7d\x7d\x7b% end %\x7d" =
      [⟨.blockOpen, ⟨0, 2⟩⟩, ⟨.kwIf, ⟨3, 5⟩⟩, ⟨.ident "a", ⟨6, 7⟩⟩, ⟨.tagClose, ⟨8, 10⟩⟩,
        ⟨.text "<b>", ⟨10, 13⟩⟩, ⟨.outputOpen, ⟨13, 15⟩⟩, ⟨.ident "a", ⟨16, 17⟩⟩,
        ⟨.tagClose, ⟨18, 20⟩⟩, ⟨.outputOpen, ⟨20, 22⟩⟩, ⟨.ident "default", ⟨23, 30⟩⟩,
        ⟨.parenOpen, ⟨30, 31⟩⟩, ⟨.ident "b", ⟨31, 32⟩⟩, ⟨.comma, ⟨32, 33⟩⟩,
        ⟨.ident "content", ⟨34, 41⟩⟩, ⟨.parenClose, ⟨41, 42⟩⟩, ⟨.tagClose, ⟨43, 45⟩⟩,
        ⟨.blockOpen, ⟨45, 47⟩⟩, ⟨.kwEnd, ⟨48, 51⟩⟩, ⟨.tagClose, ⟨52, 54⟩⟩] := by
      decide +kernel
    rw [tokens]
    change Grammar.Nodes (⟨.blockOpen, ⟨0, 2⟩⟩ :: ⟨Grammar.opening false, ⟨3, 5⟩⟩ :: _) _
    exact .conditional (.operand (.path .nil))
      (.text (.output (.operand (.path .nil))
        (.output (.call (.cons (.path .nil) (.last (.path .nil)))) .nil))) .nil
  have hcall : Handler.html.call ⟨_, "html"⟩ = _ :=
    Handler.compileHtml_eq_ok.2 ⟨_, hparse, rfl, rfl⟩
  obtain ⟨b, hb, h⟩ := output_is_escaped hcall
  cases hparse.symm.trans hb
  obtain ⟨hprints, hsigns⟩ := h rfl
  refine ⟨_, hcall, hprints _ _ ?_,
    hsigns ⟨"Box", ⟨[("a", .str "<i>"), ("b", .null)]⟩, none, .empty⟩
      ⟨"Box", ⟨[("a", .str "x"), ("b", .null)]⟩, none, .empty⟩ _ _ rfl rfl ?_ ?_ ?_⟩
  · rfl
  · exact ⟨rfl, fun _ => trivial, fun _ => trivial, trivial⟩
  · rfl
  · rfl

end Stencil
