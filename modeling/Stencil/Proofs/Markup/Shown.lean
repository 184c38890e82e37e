import Mathlib.Tactic.SplitIfs
import Stencil.Markup.Basic

/-!
# The text that markup shows

Markup that was made of a text shows that text, and is blank if the text is. Main statements:
`unescapeChars_escapeChars`, by which reading the entities back undoes escaping, and
`Markup.join_ofText`, by which it makes no difference whether texts are put together before they
are escaped or after.
-/

namespace Stencil

/-- A character that begins no entity is read as it stands. -/
theorem unescapeChars_cons {c : Char} (h : c ≠ '&') (cs : List Char) :
    unescapeChars (c :: cs) = c :: unescapeChars cs := by
  rw [unescapeChars.eq_def]
  split <;> simp_all

/-- The written form of a character is read back as that character, whatever stands behind it. -/
theorem unescapeChars_escapeChar_append (c : Char) (cs : List Char) :
    unescapeChars (escapeChar c ++ cs) = c :: unescapeChars cs := by
  rw [escapeChar]
  split_ifs with h₁ h₂ h₃ h₄ h₅
  case neg => exact unescapeChars_cons h₁ cs
  -- Each of the other five is read back from its entity.
  all_goals
    subst c
    rfl

/-- Reading the entities back undoes escaping. -/
theorem unescapeChars_escapeChars (cs : List Char) : unescapeChars (escapeChars cs) = cs := by
  induction cs with
  | nil => rfl
  | cons c cs ih =>
    have hcons : escapeChars (c :: cs) = escapeChar c ++ escapeChars cs := List.flatMap_cons
    rw [hcons, unescapeChars_escapeChar_append, ih]

/-- The written form of a character is blank if the character is: no entity holds a blank, and no
blank is written as an entity. -/
theorem all_isBlankChar_escapeChar (c : Char) :
    (escapeChar c).all Text.isBlankChar = Text.isBlankChar c := by
  rw [escapeChar]
  split_ifs
  case neg => exact Bool.and_true _
  all_goals
    subst c
    rfl

/-- The escaped form of a text is blank if the text is. -/
theorem isBlank_escape (s : String) : Text.isBlank (escape s) = Text.isBlank s := by
  simp only [Text.isBlank, escape, escapeChars, String.toList_ofList, List.all_flatMap,
    all_isBlankChar_escapeChar]

namespace Markup

/-- The markup of a text shows the text. -/
@[simp] theorem toText_ofText (s : String) : (ofText s).toText = s := by
  simp [ofText, toText, escape, unescape, unescapeChars_escapeChars]

/-- The markup of a text is blank if the text is. -/
@[simp] theorem isBlank_ofText (s : String) : (ofText s).isBlank = Text.isBlank s :=
  isBlank_escape s

/-- The markup of texts, piece after piece, is that of the text that they make up. -/
theorem join_ofText (texts : List String) :
    join (texts.map ofText) = ofText (String.join texts) := by
  have hmap : (texts.map ofText).map html = texts.map escape := by
    rw [List.map_map]
    rfl
  have hhtml : (String.join (texts.map escape)).toList = escapeChars (String.join texts).toList := by
    simp only [String.toList_join, List.flatMap_map, escape, String.toList_ofList, escapeChars,
      List.flatMap_assoc]
  rw [join, ofText, hmap, escape, ← hhtml, String.ofList_toList]

end Markup

end Stencil
