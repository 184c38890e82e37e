import Stencil.Handler
import Stencil.Proofs.Joining.Dangling
import Stencil.Proofs.Joining.Refused
import Stencil.Proofs.Joining.Rendering
import Stencil.Proofs.Joining.Trees
import Stencil.Proofs.Rendering.Pieces

/-!
# Joined templates

A template with another source behind it is a template if and only if the other source is one, and it
prints what the two print, one after the other. That holds as long as the two do not meet at a brace
that opens something, and as long as no opening of a tag in the first one is text only because the
source ends. Main statements: `parse_append`, and `joins_iff_not_dangles`, by which the second
condition cannot be weakened.
-/

namespace Stencil

open Segment

/-! ### Tokens of joined sources -/

namespace Segment

variable {cs ds : List Char} {xs : List Segment}

/-- Putting segments in front of others joins the last of them with the first of the others if both
are text, and does nothing else. -/
theorem foldr_cons_cases (h : ∀ before s t after, xs ≠ before ++ .text s :: .text t :: after)
    (ys : List Segment) :
    xs.foldr cons ys = xs ++ ys ∨
      ∃ xs' s t ys', xs = xs' ++ [.text s] ∧ ys = .text t :: ys' ∧
        xs.foldr cons ys = xs' ++ .text (s ++ t) :: ys' := by
  induction xs with
  | nil => exact .inl rfl
  | cons x xs ih =>
    have hxs := ih fun before s t after e => h (x :: before) s t after (congrArg (x :: ·) e)
    -- The new segment is no text in front of another one of those that are given.
    have hfirst : ∀ s t after, x = .text s → xs ≠ .text t :: after := by
      rintro s t after rfl e
      exact h [] s t after (congrArg (.text s :: ·) e)
    rw [List.foldr_cons]
    rcases hxs with hxs | ⟨xs', s, t, ys', rfl, rfl, hxs⟩
    · rw [hxs]
      rcases cons_cases x (xs ++ ys) with ⟨as, bs, after, hx, e, hc⟩ | ⟨hc, -⟩
      · cases xs with
        | nil => exact .inr ⟨[], as, bs, after, by rw [hx, List.nil_append], e, hc⟩
        | cons y xs =>
          obtain ⟨rfl, -⟩ := List.cons.inj e
          exact absurd rfl (hfirst as bs xs hx)
      · exact .inl hc
    · rw [hxs]
      rcases cons_cases x (xs' ++ .text (s ++ t) :: ys') with ⟨as, bs, after, hx, e, -⟩ | ⟨hc, -⟩
      · cases xs' with
        | nil => exact absurd rfl (hfirst as s [] hx)
        | cons y xs' =>
          obtain ⟨rfl, -⟩ := List.cons.inj e
          exact absurd rfl (hfirst as bs _ hx)
      · exact .inr ⟨x :: xs', s, t, ys', rfl, rfl, hc⟩

end Segment

/-- The tokens of two sources that are put together are those of both, but for two texts that become
one. -/
theorem sourceTokens_append {cs ds : List Char} (hd : dangles cs = false)
    (hs : ∀ s ∈ split cs, s.isFaulty = false) (hmeet : ¬ MeetsAtBrace cs ds) :
    sourceTokens (cs ++ ds) = sourceTokens cs ++ sourceTokens ds ∨
      ∃ xs s t ys, sourceTokens cs = xs ++ [.text s] ∧ sourceTokens ds = .text t :: ys ∧
        sourceTokens (cs ++ ds) = xs ++ .text (s ++ t) :: ys := by
  simp only [sourceTokens_eq, split_append hd hs hmeet]
  rcases foldr_cons_cases (fun _ _ _ _ => split_ne_texts) (split ds) with h | h
  · exact .inl (by rw [h, List.flatMap_append])
  · obtain ⟨xs, s, t, ys, hxs, hys, h⟩ := h
    refine .inr ⟨xs.flatMap tokens, String.ofList s, String.ofList t, ys.flatMap tokens, ?_, ?_, ?_⟩
    · rw [hxs, List.flatMap_append]
      rfl
    · rw [hys, List.flatMap_cons]
      rfl
    · rw [h, List.flatMap_append, List.flatMap_cons, ← String.ofList_append]
      rfl

/-! ### Trees of joined sources -/

/-- A template with another source behind it that nothing of it reaches into is a template if and only
if the other source is one, and says what the two say. -/
theorem parse_append {a b : String} {x : Body} (ha : parse a = .ok x)
    (hd : dangles a.toList = false) (hmeet : ¬ MeetsAtBrace a.toList b.toList) :
    (∀ y, parse b = .ok y → ∃ z, parse (a ++ b) = .ok z ∧ z.Joins x y) ∧
      ∀ z, parse (a ++ b) = .ok z → ∃ y, parse b = .ok y := by
  have hx := nodes_of_parse ha
  have hitems := sourceTokens_append hd (not_faulty_of_parse ha) hmeet
  rw [← String.toList_append, ← items_tokenize, ← items_tokenize, ← items_tokenize] at hitems
  rcases hitems with h | ⟨xs, s, t, ys, hfront, hback, h⟩
  · rw [← Grammar.items_append] at h
    constructor
    · intro y hb
      obtain ⟨z, hz, hunplaced⟩ := (hx.append (nodes_of_parse hb)).of_items h
      exact ⟨z, parse_of_nodes hz, (Body.joins_append x y).of_unplaced rfl rfl hunplaced⟩
    · intro z hc
      obtain ⟨z', hz, -⟩ := (nodes_of_parse hc).of_items h.symm
      obtain ⟨y, hy, -⟩ := hx.cancel_left hz
      exact ⟨y, parse_of_nodes hy⟩
  · -- The text at the end of the first source goes on in the second one.
    obtain ⟨us, last, hus, hxs, hlast⟩ := Grammar.items_eq_append hfront
    obtain ⟨p, rest, rfl, hrest⟩ := Grammar.items_eq_cons hlast
    cases Grammar.items_eq_nil hrest
    obtain ⟨q, vs, hvs, hys⟩ := Grammar.items_eq_cons hback
    rw [hus] at hx
    obtain ⟨x', hx', rfl⟩ := hx.exists_of_append_text
    have hjoined : Grammar.items (tokenize (a ++ b)) =
        Grammar.items (us ++ ⟨.text (s ++ t), p⟩ :: vs) := by
      rw [h, Grammar.items_append, Grammar.items_cons, hxs, hys]
    constructor
    · intro y hb
      have hy := nodes_of_parse hb
      rw [hvs] at hy
      cases hy with
      | text hy =>
        obtain ⟨z, hz, hunplaced⟩ := (hx'.append (.text hy)).of_items hjoined
        exact ⟨z, parse_of_nodes hz, (Body.joins_text p p q s t x' _).of_unplaced rfl rfl hunplaced⟩
    · intro z hc
      obtain ⟨z', hz, -⟩ := (nodes_of_parse hc).of_items hjoined.symm
      obtain ⟨y, hy, -⟩ := hx'.cancel_left hz
      cases hy with
      | @text _ _ _ y hy =>
        have hb : Grammar.Nodes (tokenize b) (.text q t y) := by
          rw [hvs]
          exact .text hy
        exact ⟨_, parse_of_nodes hb⟩

/-- A source in which nothing is opened is a template. -/
theorem exists_parse_of_opensNothing {ds : List Char} (h : OpensNothing ds) :
    ∃ y, parse (String.ofList ds) = .ok y := by
  have hitems := items_tokenize (String.ofList ds)
  rw [String.toList_ofList, sourceTokens_eq] at hitems
  by_cases hnil : ds = []
  · subst hnil
    rw [split_nil] at hitems
    refine ⟨.nil, parse_of_nodes ?_⟩
    rw [Grammar.items_eq_nil hitems]
    exact .nil
  · have hsplit := split_run_append hnil (fun c hc => (h c hc).1) []
    rw [List.append_nil, split_nil] at hsplit
    rw [hsplit] at hitems
    obtain ⟨p, rest, htokens, hrest⟩ := Grammar.items_eq_cons hitems
    refine ⟨.text p (String.ofList ds) .nil, parse_of_nodes ?_⟩
    rw [htokens, Grammar.items_eq_nil hrest]
    exact .text .nil

/-! ### Joined templates -/

/-- Rendering a compiled template with another one behind it. -/
theorem compileHtml_append {a b : String} {x : Body} {f g : Routine} (ha : parse a = .ok x)
    (hd : dangles a.toList = false) (hmeet : ¬ MeetsAtBrace a.toList b.toList)
    (hf : Handler.compileHtml a = .ok f) (hg : Handler.compileHtml b = .ok g) :
    ∃ h, Handler.compileHtml (a ++ b) = .ok h ∧ ∀ scope, h scope = do
      let m ← f scope
      let n ← g scope
      return ⟨m.html ++ n.html⟩ := by
  obtain ⟨x', hx', hxhelpers, rfl⟩ := Handler.compileHtml_eq_ok.1 hf
  obtain ⟨y, hy, hyhelpers, rfl⟩ := Handler.compileHtml_eq_ok.1 hg
  cases ha.symm.trans hx'
  obtain ⟨z, hz, hjoins⟩ := (parse_append ha hd hmeet).1 y hy
  refine ⟨_, Handler.compileHtml_eq_ok.2 ⟨z, hz, ?_, rfl⟩, hjoins.render⟩
  rw [Body.unknownHelper?] at hxhelpers hyhelpers ⊢
  rw [hjoins.helpers, List.find?_append, hxhelpers, hyhelpers]
  rfl

/-- A template can be put in front of any source that it does not meet at an opening brace, if and
only if none of its openings dangles: the two are a template if and only if the source is one, and if
both can be compiled then so can the two, which print what the one prints and then what the other
does, or fail as the first of them that fails. -/
theorem joins_iff_not_dangles (a : String) (ha : ∃ x, parse a = .ok x) :
    dangles a.toList = false ↔
      ∀ b : String, ¬ MeetsAtBrace a.toList b.toList →
        ((∃ z, parse (a ++ b) = .ok z) ↔ ∃ y, parse b = .ok y) ∧
        ∀ kind f g, Handler.html.call ⟨a, kind⟩ = .ok f → Handler.html.call ⟨b, kind⟩ = .ok g →
          ∃ h, Handler.html.call ⟨a ++ b, kind⟩ = .ok h ∧ ∀ scope, h scope = do
            let m ← f scope
            let n ← g scope
            return ⟨m.html ++ n.html⟩ := by
  obtain ⟨x, ha⟩ := ha
  constructor
  · intro hd b hmeet
    obtain ⟨hforth, hback⟩ := parse_append ha hd hmeet
    refine ⟨⟨fun ⟨z, hz⟩ => hback z hz, fun ⟨y, hy⟩ => ?_⟩, fun kind f g hf hg => ?_⟩
    · obtain ⟨z, hz, -⟩ := hforth y hy
      exact ⟨z, hz⟩
    · exact compileHtml_append ha hd hmeet hf hg
  · intro h
    rw [← Bool.not_eq_true]
    intro hd
    -- What makes a faulty tag of the opening that dangles is a template, but not behind the opening.
    obtain ⟨ds, hds, hfault⟩ := not_forall_of_dangles hd (not_faulty_of_parse ha)
    obtain ⟨hparse, -⟩ := h (String.ofList ds) (by
      rw [String.toList_ofList]
      exact hds.not_meets _)
    obtain ⟨z, hz⟩ := hparse.2 (exists_parse_of_opensNothing hds)
    apply hfault
    have hclean := not_faulty_of_parse hz
    rwa [String.toList_append, String.toList_ofList] at hclean

/-- Two opening braces in front of a closing one that ends the source are read as text. -/
theorem parse_dangling_braces :
    parse "\x7b\x7b\x7d" = .ok (.text ⟨0, 3⟩ "\x7b\x7b\x7d" .nil) := by
  apply parse_of_nodes
  have tokens : tokenize "\x7b\x7b\x7d" = [⟨.text "\x7b\x7b\x7d", ⟨0, 3⟩⟩] := by
    decide +kernel
  rw [tokens]
  exact .text .nil

/-- Two opening braces and a closing one are a template, and so is a closing brace, but both of them
together are none. -/
theorem stray_braces_not_joined :
    ¬ ∀ a b : String, (∃ x, parse a = .ok x) → ¬ MeetsAtBrace a.toList b.toList →
      ((∃ z, parse (a ++ b) = .ok z) ↔ ∃ y, parse b = .ok y) := by
  intro h
  have hb : parse "\x7d" = .ok (.text ⟨0, 1⟩ "\x7d" .nil) := by
    apply parse_of_nodes
    have tokens : tokenize "\x7d" = [⟨.text "\x7d", ⟨0, 1⟩⟩] := by
      decide +kernel
    rw [tokens]
    exact .text .nil
  have hmeet : ¬ MeetsAtBrace "\x7b\x7b\x7d".toList "\x7d".toList := fun hlast =>
    absurd hlast.1 (by decide +kernel)
  obtain ⟨z, hz⟩ := (h _ _ ⟨_, parse_dangling_braces⟩ hmeet).2 ⟨_, hb⟩
  have htokens : Grammar.items (tokenize ("\x7b\x7b\x7d" ++ "\x7d")) =
      [] ++ .outputOpen :: .tagClose :: [] := by
    decide +kernel
  exact (nodes_of_parse hz).not_closed_at_once rfl htokens

/-- A tag that is closed can have anything behind it; two opening braces and a closing one, which are
taken as text, cannot. -/
theorem tag_joins_stray_braces_do_not :
    (∀ b : String, (∃ z, parse ("\x7b\x7b a \x7d\x7d" ++ b) = .ok z) ↔ ∃ y, parse b = .ok y) ∧
      ¬ ∀ b : String, ¬ MeetsAtBrace "\x7b\x7b\x7d".toList b.toList →
        ((∃ z, parse ("\x7b\x7b\x7d" ++ b) = .ok z) ↔ ∃ y, parse b = .ok y) ∧
        ∀ kind f g, Handler.html.call ⟨"\x7b\x7b\x7d", kind⟩ = .ok f →
          Handler.html.call ⟨b, kind⟩ = .ok g →
            ∃ h, Handler.html.call ⟨"\x7b\x7b\x7d" ++ b, kind⟩ = .ok h ∧ ∀ scope, h scope = do
              let m ← f scope
              let n ← g scope
              return ⟨m.html ++ n.html⟩ := by
  constructor
  · intro b
    have ha : parse "\x7b\x7b a \x7d\x7d" =
        .ok (.output ⟨0, 7⟩ ⟨.operand (.path "a" []), ⟨3, 4⟩⟩ .nil) := by
      apply parse_of_nodes
      have tokens : tokenize "\x7b\x7b a \x7d\x7d" =
          [⟨.outputOpen, ⟨0, 2⟩⟩, ⟨.ident "a", ⟨3, 4⟩⟩, ⟨.tagClose, ⟨5, 7⟩⟩] := by
        decide +kernel
      rw [tokens]
      exact .output (.operand (.path .nil)) .nil
    have hmeet : ¬ MeetsAtBrace "\x7b\x7b a \x7d\x7d".toList b.toList := fun hlast =>
      absurd hlast.1 (by decide +kernel)
    exact ((joins_iff_not_dangles _ ⟨_, ha⟩).1 (by decide +kernel) b hmeet).1
  · intro h
    exact absurd ((joins_iff_not_dangles _ ⟨_, parse_dangling_braces⟩).2 h) (by decide +kernel)

end Stencil
