import Stencil.Proofs.Rules.Blankness

/-!
# The text of nested lists

That a list lies within a list leaves no trace in what is printed: only the leaves are seen, in their
order, and of those only the ones with a text. Main statements: `Value.text_eq_joinWords`, by which the
text of a value is put together from the texts of its leaves, however deep they lie, and
`text_is_joined_leaves`, by which regrouping the items of lists does not change what is printed.
-/

namespace Stencil

mutual

/-- The values at the bottom of nested lists, from left to right. What is no list is its own leaf. -/
def Value.leaves : Value → List Value
  | .arr items => Value.itemLeaves items
  | v => [v]

/-- The leaves of the items of a list, item by item. -/
def Value.itemLeaves : List Value → List Value
  | [] => []
  | v :: vs => v.leaves ++ Value.itemLeaves vs

end

/-! ### Joined words -/

section Words

variable {texts : List String}

/-- Nothing is joined from texts that are all empty. -/
theorem joinWords_eq_empty_iff : joinWords texts = "" ↔ texts.filter (· ≠ "") = [] := by
  rw [joinWords]
  cases h : texts.filter (· ≠ "") with
  | nil => simp
  | cons a words =>
    have ha : a ≠ "" := by
      have hmem : a ∈ texts.filter (· ≠ "") := h ▸ List.mem_cons_self
      simpa using (List.mem_filter.1 hmem).2
    cases words with
    | nil => simpa using ha
    | cons b words => simp [ha]

/-- A text on its own is joined to itself. -/
theorem joinWords_singleton (a : String) : joinWords [a] = a := by
  by_cases ha : a = ""
  · subst ha
    rfl
  · rw [joinWords, List.filter_cons_of_pos (by simpa using ha)]
    exact String.intercalate_singleton

/-- Of two texts an empty one is left out, and the blank beside it with it. -/
theorem joinWords_pair (a b : String) :
    joinWords [a, b] = if a = "" then b else if b = "" then a else a ++ " " ++ b := by
  split_ifs with ha hb
  · subst ha
    exact joinWords_singleton b
  · simp [joinWords, ha, hb]
  · simp [joinWords, ha, hb]

/-- What is joined from some texts stands for them where it is joined with others. -/
theorem joinWords_append (xs ys : List String) :
    joinWords (xs ++ ys) = joinWords [joinWords xs, joinWords ys] := by
  have hwords : joinWords (xs ++ ys) =
      " ".intercalate (xs.filter (· ≠ "") ++ ys.filter (· ≠ "")) := by
    rw [joinWords, List.filter_append]
  -- A side on which no word is left must not leave its blank behind.
  rw [hwords, joinWords_pair]
  split_ifs with hx hy
  · rw [joinWords_eq_empty_iff.1 hx]
    rfl
  · rw [joinWords_eq_empty_iff.1 hy, List.append_nil]
    rfl
  · exact String.intercalate_append_of_ne_nil (mt joinWords_eq_empty_iff.2 hx)
      (mt joinWords_eq_empty_iff.2 hy)

end Words

/-! ### Leaves -/

namespace Value

/-- The leaves of items in a row. -/
theorem itemLeaves_append (xs ys : List Value) :
    itemLeaves (xs ++ ys) = itemLeaves xs ++ itemLeaves ys := by
  induction xs with
  | nil => rfl
  | cons x xs ih => rw [List.cons_append, itemLeaves, itemLeaves, ih, List.append_assoc]

mutual

/-- The text of a value is joined from those of its leaves. -/
theorem text_eq_joinWords : ∀ v : Value, v.text = joinWords (v.leaves.map text)
  | .arr items => joinWords_itemTexts items
  | .null | .bool _ | .int _ | .float _ | .str _ | .obj _ => (joinWords_singleton _).symm

/-- The text of a list is joined from those of all the leaves. -/
theorem joinWords_itemTexts :
    ∀ items : List Value, joinWords (itemTexts items) = joinWords ((itemLeaves items).map text)
  | [] => rfl
  | v :: vs =>
    calc joinWords (v.text :: itemTexts vs)
        = joinWords [joinWords [v.text], joinWords (itemTexts vs)] := joinWords_append [v.text] _
      _ = joinWords [joinWords (v.leaves.map text), joinWords ((itemLeaves vs).map text)] := by
          rw [joinWords_singleton, text_eq_joinWords v, joinWords_itemTexts vs]
      _ = joinWords ((itemLeaves (v :: vs)).map text) := by
          rw [← joinWords_append, itemLeaves, List.map_append]

end

mutual

/-- A leaf is no list. -/
theorem ne_arr_of_mem_leaves {l : Value} (items : List Value) :
    ∀ v : Value, l ∈ v.leaves → l ≠ .arr items
  | .arr inner, h => ne_arr_of_mem_itemLeaves items inner h
  | .null, h | .bool _, h | .int _, h | .float _, h | .str _, h | .obj _, h => by
    rw [leaves, List.mem_singleton] at h
    · rintro rfl
      cases h
    · exact nofun

/-- A leaf of the items of a list is no list. -/
theorem ne_arr_of_mem_itemLeaves {l : Value} (items : List Value) :
    ∀ vs : List Value, l ∈ itemLeaves vs → l ≠ .arr items
  | v :: vs, h => by
    rw [itemLeaves, List.mem_append] at h
    rcases h with h | h
    · exact ne_arr_of_mem_leaves items v h
    · exact ne_arr_of_mem_itemLeaves items vs h

end

/-- What is no list is its own leaf. -/
theorem leaves_of_ne_arr {v : Value} (h : ∀ items, v ≠ .arr items) : v.leaves = [v] := by
  cases v with
  | arr items => exact absurd rfl (h items)
  | _ => rfl

/-- A list of values that are no lists has these for its leaves. -/
theorem itemLeaves_of_ne_arr {vs : List Value} (h : ∀ v ∈ vs, ∀ items, v ≠ .arr items) :
    itemLeaves vs = vs := by
  induction vs with
  | nil => rfl
  | cons v vs ih =>
    rw [List.forall_mem_cons] at h
    rw [itemLeaves, leaves_of_ne_arr h.1, ih h.2]
    rfl

/-- The text of a double has a point or an exponent. -/
theorem floatText_ne_empty (x : Float) : floatText x ≠ "" := by
  have hplace : ∀ s, Decimal.Layout.plain.place s ≠ "" := by
    intro s
    unfold Decimal.Layout.place
    dsimp only
    split_ifs <;> simp [Decimal.Layout.plain]
  have hzero : Decimal.Layout.plain.zero ≠ "" := by decide
  intro h
  rw [floatText, Decimal.Layout.write, String.append_eq_empty_iff] at h
  obtain ⟨-, h⟩ := h
  split_ifs at h with hx
  · exact hzero h
  · exact hplace _ h

/-- The text of an integer has a digit. -/
theorem intText_ne_empty (n : Int) : intText n ≠ "" := by
  rw [intText, Ne, ← String.toList_eq_nil_iff, toList_toString_int]
  split
  · exact Nat.toDigits_ne_nil
  · exact List.cons_ne_nil _ _

/-- Of the values that are no lists, null and the empty text are those without a text. -/
theorem text_eq_empty_iff {v : Value} (h : ∀ items, v ≠ .arr items) :
    v.text = "" ↔ v = .null ∨ v = .str "" := by
  cases v with
  | arr items => exact absurd rfl (h items)
  | null => simp [text]
  | bool b => cases b <;> simp [text, boolText]
  | int n => simp [text, intText_ne_empty]
  | float x => simp [text, floatText_ne_empty]
  | str s => simp [text]
  | obj fields => simp [text, json]

/-! ### Regrouping -/

/-- One value comes from another by regrouping: items of a list are put into a list of their own, or
taken out of one, and items without a text are put in or taken out, at whatever depth. -/
inductive Regrouped : Value → Value → Prop
  | refl (v : Value) : Regrouped v v
  | symm {v w : Value} : Regrouped v w → Regrouped w v
  | trans {u v w : Value} : Regrouped u v → Regrouped v w → Regrouped u w
  | group (xs ys zs : List Value) : Regrouped (.arr (xs ++ ys ++ zs)) (.arr (xs ++ .arr ys :: zs))
  | insert (xs zs : List Value) {v : Value} (h : v ∈ [.null, .str "", .arr []]) :
      Regrouped (.arr (xs ++ zs)) (.arr (xs ++ v :: zs))
  | within (xs zs : List Value) {v w : Value} :
      Regrouped v w → Regrouped (.arr (xs ++ v :: zs)) (.arr (xs ++ w :: zs))

/-- The texts of the leaves that have one. -/
def words (v : Value) : List String := (v.leaves.map text).filter (· ≠ "")

/-- The words of a list that stand at an item of it are those of the item. -/
theorem words_arr (xs zs : List Value) (v : Value) :
    (arr (xs ++ v :: zs)).words = (arr xs).words ++ v.words ++ (arr zs).words := by
  simp only [words, leaves, itemLeaves_append, itemLeaves, List.map_append, List.filter_append,
    List.append_assoc]

/-- Regrouping keeps the words. -/
theorem Regrouped.words_eq {v w : Value} (h : v.Regrouped w) : v.words = w.words := by
  induction h with
  | refl v => rfl
  | symm _ ih => exact ih.symm
  | trans _ _ ih₁ ih₂ => exact ih₁.trans ih₂
  | group xs ys zs =>
    -- The leaves are the same ones, whether or not a list is around them.
    simp only [words, leaves, itemLeaves_append, itemLeaves, List.append_assoc]
  | @insert xs zs v hv =>
    have hempty : v.words = [] := by
      simp only [List.mem_cons, List.not_mem_nil, or_false] at hv
      rcases hv with rfl | rfl | rfl
      · rfl
      · rfl
      · rfl
    rw [words_arr, hempty, List.append_nil]
    simp only [words, leaves, itemLeaves_append, List.map_append, List.filter_append]
  | within xs zs _ ih => rw [words_arr, words_arr, ih]

end Value

/-- A template prints the text of an attribute. -/
theorem printHtml_attribute {scope : Scope} {name : String} {v : Value}
    (hname : isIdentifier name = true) (hother : name ≠ contentName)
    (hv : scope.attributes.find? name = some v) :
    Handler.printHtml (outputTemplate name) scope = .ok (.ofText v.text) :=
  printHtml_name hname (Operand.eval_name hother hv)

/-- The text of a value is joined, with single blanks, from the non-empty texts of its leaves, none of
which is a list, and which have no text exactly if they are null or the empty text. So a list of the
leaves has the text of the whole value, and values that come from one another by regrouping have the
same text and are printed alike. -/
theorem text_is_joined_leaves :
    (∀ v : Value, v.text = " ".intercalate ((v.leaves.map Value.text).filter (· ≠ "")) ∧
      ∀ l ∈ v.leaves, (∀ items, l ≠ .arr items) ∧ (l.text = "" ↔ l = .null ∨ l = .str "")) ∧
    (∀ v : Value, (Value.arr v.leaves).text = v.text) ∧
    ∀ v w : Value, v.Regrouped w → v.text = w.text ∧
      ∀ (name : String) (s t : Scope), isIdentifier name = true → name ≠ contentName →
        s.attributes.find? name = some v → t.attributes.find? name = some w →
        Handler.printHtml (outputTemplate name) s = .ok (.ofText v.text) ∧
          Handler.printHtml (outputTemplate name) t = .ok (.ofText v.text) := by
  refine ⟨fun v => ⟨Value.text_eq_joinWords v, fun l hl => ?_⟩, fun v => ?_, ?_⟩
  · have hleaf : ∀ items, l ≠ .arr items := fun items => Value.ne_arr_of_mem_leaves items v hl
    exact ⟨hleaf, Value.text_eq_empty_iff hleaf⟩
  · have hleaves : (Value.arr v.leaves).leaves = v.leaves :=
      Value.itemLeaves_of_ne_arr fun l hl items => Value.ne_arr_of_mem_leaves items v hl
    rw [Value.text_eq_joinWords, hleaves, ← Value.text_eq_joinWords]
  · intro v w h
    have htext : v.text = w.text := by
      calc v.text = " ".intercalate v.words := Value.text_eq_joinWords v
        _ = " ".intercalate w.words := by rw [h.words_eq]
        _ = w.text := (Value.text_eq_joinWords w).symm
    refine ⟨htext, fun name s t hname hother hs ht => ?_⟩
    rw [printHtml_attribute hname hother hs, printHtml_attribute hname hother ht, htext]
    exact ⟨rfl, rfl⟩

/-- A component with tags. -/
def taggedScope (tags : Value) : Scope := { component := "Card", attributes := ⟨[("tags", tags)]⟩ }

/-- A tag in a list of its own, beside an empty list and in front of a number, is printed like the tag
and the number alone. -/
theorem text_is_joined_leaves_of_tags :
    (∀ items, (Value.str "a" : Value) ≠ .arr items) ∧
    (Value.arr [.arr [.str "a", .arr []], .int 3]).Regrouped (.arr [.str "a", .int 3]) ∧
    Handler.printHtml "{{ tags }}" (taggedScope (.arr [.arr [.str "a", .arr []], .int 3])) =
      .ok ⟨"a 3"⟩ ∧
    Handler.printHtml "{{ tags }}" (taggedScope (.arr [.str "a", .int 3])) = .ok ⟨"a 3"⟩ := by
  obtain ⟨hjoined, -, hregrouped⟩ := text_is_joined_leaves
  have hname : isIdentifier "tags" = true := by decide +kernel
  have hgroup : (Value.arr [.str "a", .int 3]).Regrouped (.arr [.arr [.str "a"], .int 3]) :=
    .group [] [.str "a"] [.int 3]
  have hinsert : (Value.arr [.str "a"]).Regrouped (.arr [.str "a", .arr []]) :=
    .insert [.str "a"] [] (by simp)
  have htags : (Value.arr [.arr [.str "a", .arr []], .int 3]).Regrouped (.arr [.str "a", .int 3]) :=
    .symm (hgroup.trans (.within [] [.int 3] hinsert))
  obtain ⟨-, hprinted⟩ := hregrouped _ _ htags
  obtain ⟨hleft, hright⟩ := hprinted "tags" (taggedScope _) (taggedScope _) hname (by decide) rfl rfl
  have hshown : Markup.ofText (Value.arr [.arr [.str "a", .arr []], .int 3]).text = ⟨"a 3"⟩ := by
    decide +kernel
  rw [hshown] at hleft hright
  exact ⟨((hjoined (.str "a")).2 _ List.mem_cons_self).1, htags, hleft, hright⟩

end Stencil
