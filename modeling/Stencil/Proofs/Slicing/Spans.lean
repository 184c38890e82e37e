import Stencil.Proofs.Slicing.Slices

/-!
# Places of nodes

The place of a node in a source says exactly which characters the node is. Main statement:
`spans_are_exact`, on every node of a template that can be read, at whatever depth.
-/

namespace Stencil

open Text Grammar

variable {source : String} {before after : List (Located Token)} {b : Body}

/-- The tokens of a source take bytes each and follow one another. -/
theorem placed_tokenize (source : String) : Placed (tokenize source) := by
  refine ⟨inOrder_tokenize source, fun t ht => ?_⟩
  obtain ⟨before, after, h⟩ := List.append_of_mem ht
  obtain ⟨xs, l, ys, hls, -, -, hspan, -⟩ := Lexeme.exists_of_locate h
  have hmem : l ∈ Lexeme.ofSource source.toList := by simp [hls]
  have hne := (Lexeme.spells_of_mem_ofSource hmem).1
  rw [hspan]
  exact Nat.lt_add_of_pos_right (byteLength_pos hne)

/-- A text is what the source has at its place. -/
theorem Grammar.shows_of_text {p : Span} {s : String}
    (h : tokenize source = before ++ ⟨.text s, p⟩ :: after) : p.Shows source.toList s.toList := by
  obtain ⟨xs, l, ys, hls, hl, -, hspan, -⟩ := Lexeme.exists_of_locate h
  have hshows := Lexeme.shows_of_eq_append hls
  obtain ⟨earlier, segment, later, lead, rest, -, hs, -⟩ := Lexeme.exists_segment hls
  obtain ⟨t, rfl, rfl, rfl⟩ := Lexeme.eq_text_of_isText hs hl rfl
  obtain ⟨-, rfl, -⟩ := Lexeme.eq_of_singleton hs
  obtain rfl : String.ofList t = s := by simpa using hl
  rw [Nat.zero_add] at hspan
  obtain rfl : p = _ := hspan
  rwa [String.toList_ofList]

/-- The place of a node says exactly which characters of the source the node is. -/
structure Body.StandsIn (n : Body) (source : String) : Prop where
  /-- The node takes some bytes. -/
  nonempty : n.span.start < n.span.stop
  /-- The nodes in its branches lie inside it. -/
  children_inside : ∀ m ∈ n.children, n.span.start < m.span.start ∧ m.span.stop < n.span.stop
  /-- The nodes in its branches follow one another, those of the first branch in front. -/
  children_inSequence : InSequence n.children
  /-- The expression in its tag lies behind the token that opens the tag, with which the node begins,
  and before the first token behind that one that closes a tag. -/
  expression_between : ∀ o e, n.tag? = some (o, e) → ∃ before p inner q after,
    tokenize source = before ++ ⟨o, p⟩ :: (inner ++ ⟨.tagClose, q⟩ :: after) ∧
    (∀ t ∈ inner, t.item ≠ .tagClose) ∧ p.start = n.span.start ∧ p.stop ≤ e.span.start ∧
    e.span.start < e.span.stop ∧ e.span.stop ≤ q.start ∧ q.stop ≤ n.span.stop
  /-- If the node is a text, it is what the source has at its place. -/
  text_shown : ∀ span s, n = .text span s .nil → span.Shows source.toList s.toList
  /-- What the source has at its place is read as the node and nothing else, at places that are counted
  from where the node begins. -/
  slice_read : ∃ cs, n.span.Shows source.toList cs ∧
    ∃ m, parse (String.ofList cs) = .ok m ∧ m.mapSpans (Span.shift n.span.start) = n

/-- In a source that can be read the nodes follow one another, and each node, at whatever depth, is
what stands at its place: its branches and its expression lie inside it in their order, and the slice
of the source at its place is read as that node. -/
theorem spans_are_exact (h : parse source = .ok b) :
    InSequence b.nodes ∧ ∀ n ∈ b.everyNode, n.StandsIn source := by
  have hnodes := nodes_of_parse h
  have hplaced := placed_tokenize source
  refine ⟨hnodes.inSequence_nodes hplaced.inOrder, fun n hn => ?_⟩
  -- The tokens of the node stand next to one another, so they have all that those of the source have.
  obtain ⟨us, hinfix, hnode⟩ := hnodes.exists_node hn
  have hus := hplaced.sublist hinfix.sublist
  obtain ⟨before, after, happend⟩ := hinfix
  have htokens := happend.symm
  constructor
  case nonempty => exact hnode.start_lt_stop hus
  case children_inside => exact fun m hm => hnode.children_inside hus hm
  case children_inSequence => exact hnode.inSequence_children hus.inOrder
  case expression_between =>
    intro o e he
    obtain ⟨p, inner, q, behind, rfl, hbetween⟩ := hnode.expression_between hus he
    refine ⟨before, p, inner, q, behind ++ after, ?_, hbetween⟩
    rw [htokens]
    simp
  case text_shown =>
    rintro span s rfl
    cases hnode
    rw [List.append_assoc, List.singleton_append] at htokens
    exact shows_of_text htokens
  case slice_read => exact hnode.exists_slice htokens (not_faulty_of_parse h)

/-- The output tag in a branch stands behind a character of two bytes and a text. -/
theorem output_in_branch_stands_in_source :
    ∃ b, parse "é\x7b% if a %\x7dx\x7b\x7b b \x7d\x7d\x7b% end %\x7d" = .ok b ∧ InSequence b.nodes ∧
      (Body.output ⟨13, 20⟩ ⟨.operand (.path "b" []), ⟨16, 17⟩⟩ .nil).StandsIn
        "é\x7b% if a %\x7dx\x7b\x7b b \x7d\x7d\x7b% end %\x7d" := by
  have tokens : tokenize "é\x7b% if a %\x7dx\x7b\x7b b \x7d\x7d\x7b% end %\x7d" =
    [⟨.text "é", ⟨0, 2⟩⟩, ⟨.blockOpen, ⟨2, 4⟩⟩, ⟨.kwIf, ⟨5, 7⟩⟩, ⟨.ident "a", ⟨8, 9⟩⟩,
      ⟨.tagClose, ⟨10, 12⟩⟩, ⟨.text "x", ⟨12, 13⟩⟩, ⟨.outputOpen, ⟨13, 15⟩⟩,
      ⟨.ident "b", ⟨16, 17⟩⟩, ⟨.tagClose, ⟨18, 20⟩⟩, ⟨.blockOpen, ⟨20, 22⟩⟩,
      ⟨.kwEnd, ⟨23, 26⟩⟩, ⟨.tagClose, ⟨27, 29⟩⟩] := by
    decide +kernel
  have parsed : parse "é\x7b% if a %\x7dx\x7b\x7b b \x7d\x7d\x7b% end %\x7d" =
    .ok (.text ⟨0, 2⟩ "é" (.conditional ⟨2, 29⟩ false ⟨.operand (.path "a" []), ⟨8, 9⟩⟩
      (.text ⟨12, 13⟩ "x" (.output ⟨13, 20⟩ ⟨.operand (.path "b" []), ⟨16, 17⟩⟩ .nil)) .nil
      .nil)) := by
    apply parse_of_nodes
    rw [tokens]
    change Nodes (_ :: ⟨.blockOpen, ⟨2, 4⟩⟩ :: ⟨opening false, ⟨5, 7⟩⟩ :: _) _
    exact .text (.conditional (.operand (.path .nil)) (.text (.output (.operand (.path .nil)) .nil))
      .nil)
  obtain ⟨hsequence, hstands⟩ := spans_are_exact parsed
  exact ⟨_, parsed, hsequence, hstands _ (by simp [Body.everyNode])⟩

end Stencil
