import Stencil.Proofs.Printing.Parsed
import Stencil.Proofs.Printing.Stray
import Stencil.Proofs.Reading.Sound

/-!
# Printing and reading again

The source of a well-formed tree is read as the tree, but for its places. A tree that has been read
is well-formed unless the lexer took an opening of a tag as text, and even then its source is read
as the tree. Main statement: `printed_template_reads_back`.
-/

namespace Stencil

open Segment

variable {source : String} {b : Body}

/-- The source of a tree is read as the tree, if each of its texts is read as it stands. -/
theorem parse_source (h : b.Printable true) :
    ∃ b', parse (String.ofList b.source) = .ok b' ∧ b'.unplaced = b.unplaced := by
  have hitems : Grammar.items (tokenize (String.ofList b.source)) = b.tokens := by
    calc Grammar.items (tokenize (String.ofList b.source))
        = sourceTokens b.source := by rw [items_tokenize, String.toList_ofList]
      _ = sourceTokens (b.source ++ []) := by rw [List.append_nil]
      _ = b.tokens ++ sourceTokens [] := Body.sourceTokens_source h apart_nil fun _ => rfl
      _ = b.tokens := by simp [sourceTokens_eq]
  obtain ⟨b', hn, hb⟩ := Grammar.exists_nodes hitems
  exact ⟨b', parse_of_nodes hn, hb⟩

/-- What the lexer grants to each text that it finds holds of the texts of the tree that is read. -/
theorem fits_of_parse {P : Bool → String → Prop} (hP : ∀ l s, P false s → P l s)
    (htexts : ∀ before cs after, split source.toList = before ++ .text cs :: after →
      P after.isEmpty (String.ofList cs))
    (h : parse source = .ok b) : b.Fits P true := by
  have hitems := items_tokenize source
  apply (nodes_of_parse h).fits (k := [])
  · intro t ht
    rw [hitems] at ht
    exact spelled_of_mem_sourceTokens ht
  · rw [List.append_nil, hitems, sourceTokens_eq]
    exact textsFit_tokens hP htexts

/-- The texts of a tree that has been read are read as they stand. -/
theorem printable_of_parse (h : parse source = .ok b) : b.Printable true := by
  refine fits_of_parse (fun l s hs => hs.mono l) ?_ h
  intro before cs after e
  rw [String.toList_ofList]
  exact literal_of_mem_split e

/-- A text among the tokens of a source is one that the lexer finds. -/
theorem text_mem_items {s : String} :
    .text s ∈ Grammar.items (tokenize source) ↔ .text s.toList ∈ split source.toList := by
  rw [items_tokenize, sourceTokens_eq, List.mem_flatMap]
  constructor
  · rintro ⟨segment, hmem, ht⟩
    rwa [← eq_text_of_mem_tokens ht]
  · intro hmem
    exact ⟨_, hmem, by simp [Segment.tokens, Lexeme.ofSegment]⟩

/-- A tree that has been read is well-formed if and only if no text among the tokens has an opening
of a tag in it. -/
theorem wellFormed_iff_of_parse (h : parse source = .ok b) :
    b.WellFormed true ↔
      ∀ s, .text s ∈ Grammar.items (tokenize source) → ¬ HasStray s.toList := by
  constructor
  · intro hb s hs hstray
    have hfits : b.Fits (fun _ s => hasOpener s.toList = false) true :=
      (Body.wellFormed_iff_fits.1 hb).imp fun _ _ hs => hs.opens_nothing
    have hnone := (nodes_of_parse h).of_text_mem hfits hs
    exact nomatch hnone.symm.trans hstray.hasOpener
  · intro hnone
    rw [Body.wellFormed_iff_fits]
    have hmono : ∀ l s, PlainText false s → PlainText l s := fun _ _ hs =>
      ⟨hs.nonempty, hs.opens_nothing, fun _ => hs.no_brace rfl⟩
    refine fits_of_parse hmono ?_ h
    intro before cs after e
    apply plainText_of_mem_split e
    rw [← Bool.not_eq_true, hasOpener_iff_stray (literal_of_mem_split e)]
    have hmem : .text (String.ofList cs) ∈ Grammar.items (tokenize source) := by
      rw [text_mem_items, String.toList_ofList, e]
      simp
    simpa using hnone _ hmem

/-- The source of a well-formed tree is read as the tree, up to places. A tree that has been read is
well-formed if and only if no text among the tokens of its source has a stray opening of a tag in
it; whether it is or not, its source is read as the tree, up to places. -/
theorem printed_template_reads_back (t : Body) (source : String) :
    (t.WellFormed true →
      ∃ b, parse (String.ofList t.source) = .ok b ∧ b.unplaced = t.unplaced) ∧
    ∀ b, parse source = .ok b →
      (b.WellFormed true ↔
        ∀ s, .text s ∈ Grammar.items (tokenize source) → ¬ HasStray s.toList) ∧
      ∃ b', parse (String.ofList b.source) = .ok b' ∧ b'.unplaced = b.unplaced := by
  constructor
  · intro ht
    have hfits := Body.wellFormed_iff_fits.1 ht
    exact parse_source (hfits.imp fun _ _ hs => literal_of_plainText hs)
  · intro b h
    exact ⟨wellFormed_iff_of_parse h, parse_source (printable_of_parse h)⟩

/-- Two opening braces in front of a single closing brace are read as text. -/
theorem parse_stray_braces :
    parse "\x7b\x7b\x7dx" = .ok (.text ⟨0, 4⟩ "\x7b\x7b\x7dx" .nil) := by
  apply parse_of_nodes
  have tokens : tokenize "\x7b\x7b\x7dx" = [⟨.text "\x7b\x7b\x7dx", ⟨0, 4⟩⟩] := by
    decide +kernel
  rw [tokens]
  exact .text .nil

/-- A tree that has been read need not be well-formed. -/
theorem stray_braces_not_wellFormed :
    ¬ ∀ (source : String) (b : Body), parse source = .ok b → b.WellFormed true := by
  intro h
  obtain ⟨htext, -⟩ := h _ _ parse_stray_braces
  exact nomatch htext.opens_nothing

/-- A call with closing braces and a quote in a string, and two stray opening braces, are printed and
read again. -/
theorem printed_braces_read_back :
    (∃ b, parse (String.ofList
        (Body.output ⟨0, 0⟩ ⟨.call "default" [.path "x" ["y"], .str "\x7d\x7d\""], ⟨0, 0⟩⟩
          .nil).source) = .ok b ∧
      b.unplaced = .output ⟨0, 0⟩ ⟨.call "default" [.path "x" ["y"], .str "\x7d\x7d\""], ⟨0, 0⟩⟩
        .nil) ∧
    ∃ b, parse "\x7b\x7b\x7dx" = .ok b ∧ ¬ b.WellFormed true ∧
      ∃ b', parse (String.ofList b.source) = .ok b' ∧ b'.unplaced = b.unplaced := by
  constructor
  · refine (printed_template_reads_back _ "").1 ⟨?_, trivial⟩
    show isIdentifier "default" = true ∧ ∀ o ∈ [Operand.path "x" ["y"], .str _], o.WellFormed
    refine ⟨by decide +kernel, ?_⟩
    simp only [List.forall_mem_cons, Operand.WellFormed]
    exact ⟨⟨by decide +kernel, by decide +kernel⟩, trivial, nofun⟩
  · obtain ⟨hiff, hread⟩ := (printed_template_reads_back .nil _).2 _ parse_stray_braces
    refine ⟨_, parse_stray_braces, fun hb => ?_, hread⟩
    have hmem : .text "\x7b\x7b\x7dx" ∈ Grammar.items (tokenize "\x7b\x7b\x7dx") := by
      decide +kernel
    exact hiff.1 hb _ hmem ⟨['{', '{', '}'], by decide, ⟨[], ['x'], rfl⟩⟩

end Stencil
