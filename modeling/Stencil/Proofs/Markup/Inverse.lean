import Stencil.Proofs.Markup.Inert
import Stencil.Proofs.Markup.Shown

/-!
# Escaped texts

The inert texts are those that escaping yields, and on them reading the entities back and escaping
are inverse to one another. Main statements: `Inert.escaped` and `Escaped.escape_unescape`, from which
`escape_and_unescape_are_inverse` is put together, with what a sequence of writes adds to an output.
-/

namespace Stencil

variable {cs rest tail : List Char}

/-! ### The image of escaping -/

/-- What an inert text ends with is inert. -/
theorem Inert.of_suffix (h : Inert cs) (hrest : rest <:+ cs) : Inert rest :=
  ⟨fun c hc => h.1 c (hrest.subset hc), fun _ hamp => h.2 _ (hamp.trans hrest)⟩

/-- A character of an inert text that is no ampersand stands for itself. -/
theorem Inert.isPlain {c : Char} (h : Inert cs) (hc : c ∈ cs) (hamp : c ≠ '&') : isPlain c = true := by
  have hsign := h.1 c hc
  simp only [markupSigns, List.mem_cons, List.not_mem_nil, or_false, not_or] at hsign
  simp [Stencil.isPlain, hamp, hsign]

/-- Inert texts are made of plain characters and entities. -/
theorem Inert.escaped (h : Inert cs) : Escaped cs := by
  -- An entity takes several characters at once, so that the induction is on the length.
  induction hn : cs.length using Nat.strongRecOn generalizing cs with
  | _ n ih =>
    subst hn
    cases cs with
    | nil => exact .nil
    | cons c cs =>
      by_cases hamp : c = '&'
      · subst hamp
        obtain ⟨tail, htail, more, rfl⟩ := h.2 cs List.suffix_rfl
        have hmore : more <:+ '&' :: (tail ++ more) :=
          (List.suffix_append tail more).trans (List.suffix_cons _ _)
        refine .entity htail (ih more.length ?_ (h.of_suffix hmore) rfl)
        rw [List.length_cons, List.length_append]
        omega
      · have hrest := h.of_suffix (List.suffix_cons c cs)
        exact .plain (h.isPlain List.mem_cons_self hamp) (ih cs.length (Nat.lt_succ_self _) hrest rfl)

/-- A plain character is written as it stands. -/
theorem escapeChar_of_isPlain {c : Char} (h : isPlain c = true) : escapeChar c = [c] := by
  simp only [isPlain, Bool.and_eq_true, decide_eq_true_eq] at h
  obtain ⟨⟨⟨⟨h₁, h₂⟩, h₃⟩, h₄⟩, h₅⟩ := h
  rw [escapeChar, if_neg h₁, if_neg h₂, if_neg h₃, if_neg h₄, if_neg h₅]

/-- A text of plain characters is written as it stands. -/
theorem escape_of_isPlain {s : String} (h : ∀ c ∈ s.toList, isPlain c = true) : escape s = s := by
  have hchars : ∀ ds : List Char, (∀ c ∈ ds, isPlain c = true) → escapeChars ds = ds := by
    intro ds hds
    induction ds with
    | nil => rfl
    | cons c ds ih =>
      rw [List.forall_mem_cons] at hds
      rw [escapeChars, List.flatMap_cons, escapeChar_of_isPlain hds.1]
      exact congrArg (c :: ·) (ih hds.2)
  rw [escape, hchars _ h, String.ofList_toList]

/-- An entity is read back as one of the characters of which it is the written form. -/
theorem exists_unescapeChars_entity (h : tail ∈ entityTails) (cs : List Char) :
    ∃ c, escapeChar c = '&' :: tail ∧
      unescapeChars ('&' :: tail ++ cs) = c :: unescapeChars cs := by
  simp only [entityTails, List.mem_cons, List.not_mem_nil, or_false] at h
  rcases h with rfl | rfl | rfl | rfl | rfl
  · exact ⟨'&', rfl, rfl⟩
  · exact ⟨'<', rfl, rfl⟩
  · exact ⟨'>', rfl, rfl⟩
  · exact ⟨'"', rfl, rfl⟩
  · exact ⟨'\'', rfl, rfl⟩

/-- Escaping undoes the reading of an escaped text. -/
theorem Escaped.escape_unescape (h : Escaped cs) : escapeChars (unescapeChars cs) = cs := by
  induction h with
  | nil => rfl
  | @plain c cs hc _ ih =>
    have hamp : c ≠ '&' := by
      rintro rfl
      cases hc
    rw [unescapeChars_cons hamp, escapeChars, List.flatMap_cons, escapeChar_of_isPlain hc]
    exact congrArg (c :: ·) ih
  | @entity tail cs ht _ ih =>
    obtain ⟨c, hc, hread⟩ := exists_unescapeChars_entity ht cs
    rw [hread, escapeChars, List.flatMap_cons, hc]
    exact congrArg ('&' :: tail ++ ·) ih

/-- Reading an escaped text back undoes escaping. -/
theorem unescape_escape (s : String) : unescape (escape s) = s := Markup.toText_ofText s

/-- Escaping undoes the reading of an inert text. -/
theorem escape_unescape {m : String} (h : Inert m.toList) : escape (unescape m) = m := by
  rw [escape, unescape, String.toList_ofList, h.escaped.escape_unescape, String.ofList_toList]

/-- The inert texts are those that escaping yields. -/
theorem exists_escape_iff_inert (m : String) : (∃ s, escape s = m) ↔ Inert m.toList := by
  refine ⟨?_, fun h => ⟨unescape m, escape_unescape h⟩⟩
  rintro ⟨s, rfl⟩
  exact inert_ofText s

/-! ### Writing to an output -/

/-- What can be written to an output: a text that is to be escaped, markup, or a text as it stands. -/
inductive Write where
  | text (s : String)
  | markup (m : Markup)
  | raw (s : String)

/-- What is written. -/
def Write.html : Write → String
  | .text s => escape s
  | .markup m => m.html
  | .raw s => s

namespace Output

/-- The output behind one more write. -/
def write (out : Output) : Write → Output
  | .text s => out.text s
  | .markup m => out.markup m
  | .raw s => out.raw s

/-- The output behind writes in a row. -/
def writeAll (out : Output) (writes : List Write) : Output := writes.foldl write out

/-- A write adds to the output what is written. -/
theorem html_write (out : Output) (w : Write) : (out.write w).html = out.html ++ w.html := by
  cases w <;> rfl

/-- Writes add to the output what is written, in their order. -/
theorem html_writeAll (out : Output) (writes : List Write) :
    (out.writeAll writes).html = out.html ++ String.join (writes.map Write.html) := by
  induction writes generalizing out with
  | nil => exact String.append_empty.symm
  | cons w writes ih =>
    rw [writeAll, List.foldl_cons, ← writeAll, ih, html_write, List.map_cons, String.join_cons,
      String.append_assoc]

/-- Writes of escaped texts show the texts after one another. -/
theorem toText_writeAll {writes : List Write} {texts : List String}
    (h : writes.map Write.html = texts.map escape) :
    (({} : Output).writeAll writes).toMarkup.toText = String.join texts := by
  have hjoin : (({} : Output).writeAll writes).toMarkup = .join (texts.map .ofText) := by
    rw [toMarkup, html_writeAll, h, Markup.join, List.map_map]
    exact congrArg Markup.mk String.empty_append
  rw [hjoin, Markup.join_ofText, Markup.toText_ofText]

end Output

/-- Escaping and reading back are inverse to one another on the escaped texts, which are those without
a sign of markup in which each ampersand begins one of the five entities. What is written to an output
is behind what was there, piece by piece; and if each piece is the escaped form of a text, the output
shows the texts after one another. -/
theorem escape_and_unescape_are_inverse :
    (∀ s, unescape (escape s) = s) ∧
    (∀ m, (∃ s, escape s = m) ↔ Inert m.toList) ∧
    (∀ m, Inert m.toList → escape (unescape m) = m) ∧
    (∀ (out : Output) (writes : List Write),
      (out.writeAll writes).html = out.html ++ String.join (writes.map Write.html)) ∧
    ∀ (writes : List Write) (texts : List String), writes.map Write.html = texts.map escape →
      (({} : Output).writeAll writes).toMarkup.toText = String.join texts :=
  ⟨unescape_escape, exists_escape_iff_inert, fun _ => escape_unescape, Output.html_writeAll,
    fun _ _ => Output.toText_writeAll⟩

/-- What an entity yields is not read again, and an ampersand that begins no entity stays. -/
example : unescape "a &amp;lt; b &" = "a &lt; b &" := by decide

end Stencil
