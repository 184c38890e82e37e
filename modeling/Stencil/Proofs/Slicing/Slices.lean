import Stencil.Proofs.Joining.Closed
import Stencil.Proofs.Joining.Trees
import Stencil.Proofs.Slicing.Nodes

/-!
# Slices of a source

What the lexer finds in a part of a source that consists of whole segments does not depend on what
stands around the part. Main statements: `split_flatMap_chars_of_split` on the segments, and
`Node.exists_slice`, by which the characters of a node are read as the node, at places that are counted
from its first character.
-/

namespace Stencil

open Text

namespace Segment

variable {ds : List Char} {s : Segment} {middle later : List Segment}

/-- A tag or a comment with which a source begins is found in front of anything, unless it is faulty. -/
theorem split_closed_append (h : split ds = s :: later) (hs : s.isClosed = true)
    (hfault : s.isFaulty = false) :
    (∃ es, split es = later) ∧ ∀ k, split (s.chars ++ k) = s :: split k := by
  have hcons : ∀ xs, cons s xs = s :: xs := by
    intro xs
    cases s with
    | text t => cases hs
    | comment body => rfl
    | tag form body => rfl
    | unclosed opener body => rfl
  have hthird : ∀ (k inside r : List Char), s = .tag .output ('{' :: inside) → k ≠ '}' :: r := by
    rintro k inside r rfl
    cases hfault
  cases ds with
  | nil =>
    rw [split_nil] at h
    cases h
  | cons c cs =>
    rw [split_cons] at h
    rcases cons_cases (first c cs).1 (split (first c cs).2) with
      ⟨as, bs, after, -, -, hjoined⟩ | ⟨hapart, -⟩
    · -- A text is no tag and no comment.
      obtain ⟨rfl, -⟩ := List.cons.inj (hjoined.symm.trans h)
      cases hs
    · obtain ⟨hfirst, hlater⟩ := List.cons.inj (hapart.symm.trans h)
      refine ⟨⟨_, hlater⟩, fun k => ?_⟩
      obtain ⟨es, hchars, hagain⟩ :=
        first_closed (k := k) (Prod.ext hfirst rfl : first c cs = (s, _)) hs (hthird k)
      rw [hchars, List.cons_append, split_cons, hagain, hcons]

/-- Whole segments from the beginning of a source are found again without the rest of the source. -/
theorem split_flatMap_chars_of_prefix (h : split ds = middle ++ later)
    (hs : ∀ s ∈ middle, s.isFaulty = false) : split (middle.flatMap chars) = middle := by
  induction middle generalizing ds with
  | nil => exact split_nil
  | cons s middle ih =>
    obtain ⟨hfirst, hmiddle⟩ := List.forall_mem_cons.1 hs
    rw [List.flatMap_cons]
    cases s with
    | text t =>
      obtain ⟨es, -, hes, hapart, -⟩ := eq_append_of_split h
      have hrest := ih hes hmiddle
      have hbehind : Apart (middle.flatMap chars) := by
        intro as after has
        rw [hrest] at has
        rw [has] at hes
        exact hapart as (after ++ later) hes
      have hend : (middle ++ later).isEmpty = true → middle.flatMap chars = [] := by
        intro hempty
        rw [List.isEmpty_iff, List.append_eq_nil_iff] at hempty
        rw [hempty.1]
        rfl
      have hfront : split ds = [] ++ .text t :: (middle ++ later) := h
      have hliteral := literal_of_mem_split hfront
      rw [chars, hliteral.2 _ hbehind hend, hrest]
    | comment body | tag form body =>
      obtain ⟨⟨es, hes⟩, hagain⟩ := split_closed_append h rfl hfirst
      rw [hagain, ih hes hmiddle]
    | unclosed opener body => cases hfirst

/-- Whole segments of a source are found again without what stands around them. -/
theorem split_flatMap_chars_of_split {earlier : List Segment}
    (h : split ds = earlier ++ middle ++ later) (hs : ∀ s ∈ middle, s.isFaulty = false) :
    split (middle.flatMap chars) = middle := by
  cases middle with
  | nil => exact split_nil
  | cons s middle =>
    rw [List.append_assoc, List.cons_append] at h
    obtain ⟨es, hes⟩ := exists_suffix_of_split h
    exact split_flatMap_chars_of_prefix hes hs

end Segment

/-- A place that is counted from another offset, which lies `n` bytes earlier. -/
def Span.shift (n : Nat) (span : Span) : Span := ⟨n + span.start, n + span.stop⟩

namespace Lexeme

/-- Lexemes that stand elsewhere have the same tokens at shifted places. -/
theorem locate_add (n start : Nat) (ls : List Lexeme) :
    locate (n + start) ls =
      (locate start ls).map fun t => ⟨t.item, t.span.shift n⟩ := by
  induction ls generalizing start with
  | nil => rfl
  | cons l ls ih =>
    cases h : l.token? with
    | none => rw [locate_cons_none h, locate_cons_none h, Nat.add_assoc, ih]
    | some tok =>
      rw [locate_cons_some h, locate_cons_some h, Nat.add_assoc, ih]
      rfl

end Lexeme

namespace Grammar

variable {ts us : List (Located Token)} {b n : Body}

/-- Tokens at shifted places. -/
def shift (n : Nat) (ts : List (Located Token)) : List (Located Token) :=
  ts.map fun t => ⟨t.item, t.span.shift n⟩

@[simp] theorem items_shift (n : Nat) (ts : List (Located Token)) : items (shift n ts) = items ts := by
  simp [items, shift]

@[simp] theorem shift_cons (n : Nat) (t : Located Token) (ts : List (Located Token)) :
    shift n (t :: ts) = ⟨t.item, t.span.shift n⟩ :: shift n ts := rfl

@[simp] theorem shift_append (n : Nat) (ts us : List (Located Token)) :
    shift n (ts ++ us) = shift n ts ++ shift n us := List.map_append

/-- The extent of shifted tokens. -/
theorem extent_shift (n : Nat) (hne : ts ≠ []) : extent (shift n ts) = (extent ts).shift n := by
  have hhead := List.head?_eq_some_head hne
  have hlast := List.getLast?_eq_some_getLast hne
  simp [extent, shift, hhead, hlast, Span.shift]

@[simp] theorem shift_mark (n : Nat) (keyword : Token) (x y z : Span) :
    shift n (mark keyword x y z) = mark keyword (x.shift n) (y.shift n) (z.shift n) := rfl

/-- Tokens at shifted places describe what they described, at shifted places. -/
theorem Nodes.shift (n : Nat) (h : Nodes ts b) :
    Nodes (Grammar.shift n ts) (b.mapSpans (Span.shift n)) := by
  have hexpr : ∀ {es : List (Located Token)} {e : Expr}, Expression es e →
      Expression (Grammar.shift n es) e := fun he => he.of_items (items_shift n _)
  induction h with
  | nil => exact .nil
  | text _ ih => exact .text ih
  | output he _ ih =>
    rw [Body.mapSpans, ← extent_shift n he.ne_nil]
    simp only [shift_cons, shift_append, List.cons_append]
    exact .output (hexpr he) ih
  | raw he _ ih =>
    rw [Body.mapSpans, ← extent_shift n he.ne_nil]
    simp only [shift_cons, shift_append, List.cons_append]
    exact .raw (hexpr he) ih
  | conditional he hx _ ihx ih =>
    rw [Body.mapSpans, ← extent_shift n he.ne_nil]
    simp only [shift_cons, shift_append, shift_mark, List.cons_append]
    exact .conditional (hexpr he) ihx ih
  | alternative he hx hy _ ihx ihy ih =>
    rw [Body.mapSpans, ← extent_shift n he.ne_nil]
    simp only [shift_cons, shift_append, shift_mark, List.cons_append]
    exact .alternative (hexpr he) ihx ihy ih

end Grammar

/-! ### The characters of a node -/

namespace Lexeme

variable {start : Nat} {segments : List Segment} {before after : List (Located Token)}
  {t : Located Token}

/-- A segment begins with a token that is a text or opens a tag. -/
theorem exists_begin_of_locate (h : locate start (segments.flatMap ofSegment) = before ++ t :: after)
    (ht : t.item.isText = true ∨ t.item.isOpener = true) :
    ∃ front rest, segments = front ++ rest ∧ locate start (front.flatMap ofSegment) = before ∧
      t.span.start = start + bytes (front.flatMap ofSegment) := by
  obtain ⟨xs, l, ys, hls, hl, hbefore, hspan, -⟩ := exists_of_locate h
  obtain ⟨front, s, later, lead, rest, hsegments, hs, rfl, -⟩ := exists_segment hls
  have hlead : lead = [] := by
    rcases ht with ht | ht
    · obtain ⟨-, -, hlead, -⟩ := eq_text_of_isText hs hl ht
      exact hlead
    · exact (eq_nil_of_isOpener hs hl ht).1
  rw [hlead, List.append_nil] at hbefore hspan
  exact ⟨front, s :: later, hsegments, hbefore, congrArg Span.start hspan⟩

/-- A segment ends with a token that is a text or closes a tag. -/
theorem exists_end_of_locate (h : locate start (segments.flatMap ofSegment) = before ++ t :: after)
    (ht : t.item.isText = true ∨ t.item = .tagClose) :
    ∃ front rest, segments = front ++ rest ∧
      locate start (front.flatMap ofSegment) = before ++ [t] ∧
      t.span.stop = start + bytes (front.flatMap ofSegment) := by
  obtain ⟨xs, l, ys, hls, hl, rfl, hspan, -⟩ := exists_of_locate h
  obtain ⟨earlier, s, later, lead, rest, rfl, hs, rfl, -⟩ := exists_segment hls
  have hrest : rest = [] := by
    rcases ht with ht | ht
    · obtain ⟨-, -, -, hrest⟩ := eq_text_of_isText hs hl ht
      exact hrest
    · exact (eq_nil_of_tagClose hs (hl.trans (congrArg some ht))).1
  have hfront : (earlier ++ [s]).flatMap ofSegment = earlier.flatMap ofSegment ++ lead ++ [l] := by
    rw [List.flatMap_append, List.flatMap_singleton, hs, hrest, List.append_assoc]
  refine ⟨earlier ++ [s], later, List.append_cons earlier s later, ?_, ?_⟩
  · rw [hfront, locate_append, locate_cons_some hl, ← hspan]
    rfl
  · rw [hfront, bytes_append, hspan]
    simp [bytes, Nat.add_assoc]

/-- The bytes of the lexemes of segments are those of the segments. -/
theorem bytes_flatMap_ofSegment (segments : List Segment) :
    bytes (segments.flatMap ofSegment) = byteLength (segments.flatMap Segment.chars) := by
  rw [bytes, List.flatMap_assoc]
  simp only [flatMap_chars_ofSegment]

end Lexeme

section Slices

open Lexeme

variable {source : String} {before us after : List (Located Token)} {n : Body}

/-- A node has whole segments of the source, whose tokens are those of the node, and the place of the
node is that of the segments. -/
theorem Grammar.Node.exists_segments (h : Grammar.Node us n)
    (htokens : tokenize source = before ++ us ++ after) :
    ∃ earlier middle later, Segment.split source.toList = earlier ++ middle ++ later ∧
      locate (bytes (earlier.flatMap ofSegment)) (middle.flatMap ofSegment) = us ∧
      n.span = ⟨bytes (earlier.flatMap ofSegment),
        bytes (earlier.flatMap ofSegment) + bytes (middle.flatMap ofSegment)⟩ := by
  obtain ⟨t, tail, init, u, hhead, hlast, ht, hu, hspan⟩ :
      ∃ t tail init u, us = t :: tail ∧ us = init ++ [u] ∧
        (t.item.isText = true ∨ t.item.isOpener = true) ∧
        (u.item.isText = true ∨ u.item = .tagClose) ∧ n.span = ⟨t.span.start, u.span.stop⟩ := by
    rcases h.text_or_tag with ⟨p, s, rfl, rfl⟩ | ⟨o, p, inner, q, rfl, ho, hspan, -⟩
    · exact ⟨_, _, [], _, rfl, rfl, .inl rfl, .inl rfl, rfl⟩
    · exact ⟨⟨o, p⟩, _, _, ⟨.tagClose, q⟩, rfl, rfl, .inr ho, .inr rfl, hspan⟩
  have hfirst : locate 0 ((Segment.split source.toList).flatMap ofSegment) =
      before ++ t :: (tail ++ after) := by
    rw [← List.cons_append, ← hhead, ← List.append_assoc]
    exact htokens
  obtain ⟨earlier, rest, hsplit, hbefore, hstart⟩ := exists_begin_of_locate hfirst ht
  rw [Nat.zero_add] at hstart
  -- The rest of the segments has the tokens from the first one of the node on.
  have hrest : locate (bytes (earlier.flatMap ofSegment)) (rest.flatMap ofSegment) =
      init ++ u :: after := by
    have happend := locate_append 0 (earlier.flatMap ofSegment) (rest.flatMap ofSegment)
    rw [← List.flatMap_append, ← hsplit, hfirst, hbefore, Nat.zero_add] at happend
    rw [← List.append_cancel_left happend, ← List.cons_append, ← hhead, hlast,
      List.append_assoc, List.singleton_append]
  obtain ⟨middle, later, rfl, hmiddle, hstop⟩ := exists_end_of_locate hrest hu
  refine ⟨earlier, middle, later, by rw [hsplit, List.append_assoc], ?_, ?_⟩
  · rw [hmiddle, hlast]
  · rw [hspan, hstart, hstop]

/-- The characters of a node are read as the node, at places that are counted from the first of them.
-/
theorem Grammar.Node.exists_slice (h : Grammar.Node us n)
    (htokens : tokenize source = before ++ us ++ after)
    (hs : ∀ s ∈ Segment.split source.toList, s.isFaulty = false) :
    ∃ cs, n.span.Shows source.toList cs ∧ ∃ m, parse (String.ofList cs) = .ok m ∧
      m.mapSpans (Span.shift n.span.start) = n := by
  obtain ⟨earlier, middle, later, hsplit, hus, hspan⟩ := h.exists_segments htokens
  rw [hspan]
  refine ⟨middle.flatMap Segment.chars, ?_, ?_⟩
  · rw [bytes_flatMap_ofSegment, bytes_flatMap_ofSegment]
    refine ⟨earlier.flatMap Segment.chars, later.flatMap Segment.chars, ?_, rfl⟩
    rw [← List.flatMap_append, ← List.flatMap_append, ← hsplit, Segment.flatMap_chars_split]
  · have hmiddle : Segment.split (middle.flatMap Segment.chars) = middle :=
      Segment.split_flatMap_chars_of_split hsplit fun s hmem => hs s (by simp [hsplit, hmem])
    -- The slice falls into the segments of the node, so that its tokens are those of the node.
    have hshift : us = Grammar.shift (bytes (earlier.flatMap ofSegment))
        (tokenize (String.ofList (middle.flatMap Segment.chars))) := by
      rw [tokenize, String.toList_ofList, ofSource, hmiddle, ← hus]
      exact locate_add _ 0 _
    have hitems : Grammar.items (tokenize (String.ofList (middle.flatMap Segment.chars))) =
        Grammar.items us := by
      rw [hshift, Grammar.items_shift]
    obtain ⟨m, hm, -⟩ := h.nodes.of_items hitems
    have hback := hm.shift (bytes (earlier.flatMap ofSegment))
    rw [← hshift] at hback
    exact ⟨m, parse_of_nodes hm, hback.unique h.nodes⟩

end Slices

end Stencil
