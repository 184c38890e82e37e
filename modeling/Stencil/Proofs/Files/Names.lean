import Stencil.Proofs.Files.Paths

/-!
# The last name of a path

What is written in front of a path does not change its last name, and a name divides at its last point
unless that leads it. Main statements: `fileName?_join` and `divide_append`.
-/

namespace Stencil.Path

open Text

section LastNames

variable {path name own : String} {p : List Char} {ps qs : List (List Char)}

/-- What goes before is kept if anything is kept of what follows. -/
theorem trim_append (h : trim qs ≠ []) : trim (ps ++ qs) = ps ++ trim qs := by
  have hkept : qs.reverse.dropWhile isIdle ≠ [] := fun hnil => h (by rw [trim, hnil]; rfl)
  rw [trim, trim, List.reverse_append, List.dropWhile_append, if_neg (by simpa using hkept),
    List.reverse_append, List.reverse_reverse]

/-- An idle part at the beginning is never the last that is kept. -/
theorem getLast?_trim_cons (hp : isIdle p = true) : (trim (p :: ps)).getLast? = (trim ps).getLast? := by
  rw [trim_cons]
  cases trim ps with
  | nil => simp [hp]
  | cons q qs => simp

/-- The last part that is kept is not idle. -/
theorem isIdle_of_getLast?_trim (h : (trim ps).getLast? = some p) : isIdle p = false := by
  have hne : trim ps ≠ [] := by
    intro hnil
    rw [hnil] at h
    cases h
  rw [List.getLast?_eq_some_getLast hne] at h
  rw [← Option.some.inj h]
  exact Bool.eq_false_iff.2 (List.rdropWhile_last_not isIdle ps hne)

/-- The last part of a path is the last of all its parts that is not idle. -/
theorem getLast?_rest (path : String) :
    (parse path).rest.getLast? = (trim (slashParts path.toList)).getLast? := by
  obtain ⟨start, body, hpath, hopens⟩ := exists_opens path
  rw [parse_of_opens hopens hpath, hpath]
  cases hopens with
  | root => exact (getLast?_trim_cons rfl).symm
  | here h =>
    obtain ⟨ps, hps⟩ := List.head?_eq_some_iff.1 h
    rw [List.singleton_append, slashParts_cons (by decide) hps, hps, getLast?_trim_cons rfl,
      getLast?_trim_cons rfl]
  | name => rfl
  | empty => rfl

/-- The last name of a path is its last part that is not idle, unless that leads to a parent. -/
theorem fileName?_eq_some :
    fileName? path = some own ↔
      (trim (slashParts path.toList)).getLast? = some own.toList ∧ own ≠ ".." := by
  rw [fileName?, getLast?_rest, Option.map_eq_some_iff]
  constructor
  · rintro ⟨cs, hcs, rfl⟩
    obtain ⟨hlast, hparent⟩ := Option.filter_eq_some_iff.1 hcs
    refine ⟨by rw [hlast, String.toList_ofList], fun h => ?_⟩
    have hcs : cs = ['.', '.'] := by rw [← String.toList_ofList (l := cs), h]; rfl
    simp [hcs] at hparent
  · rintro ⟨hlast, hparent⟩
    refine ⟨own.toList, Option.filter_eq_some_iff.2 ⟨hlast, ?_⟩, String.ofList_toList⟩
    exact decide_eq_true fun h => hparent (String.toList_injective h)

/-- A last name is not empty. -/
theorem fileName?_ne_empty (h : fileName? path = some own) : own ≠ "" := by
  rintro rfl
  exact absurd (isIdle_of_getLast?_trim (fileName?_eq_some.1 h).1) (by decide)

/-- The parts of a path stand behind those of the directory that it is taken from. -/
theorem exists_slashParts_join (hrelative : isRelative path = true) (dir : String) :
    ∃ ps, slashParts (join dir path).toList = ps ++ slashParts path.toList := by
  rw [join, if_neg (by simp [hrelative])]
  split_ifs with h
  · rcases h with rfl | hlast
    · exact ⟨[], by simp⟩
    · obtain ⟨front, hfront⟩ := List.getLast?_eq_some_iff.1 hlast
      exact ⟨slashParts front, by
        rw [String.toList_append, hfront, List.append_assoc, List.singleton_append, slashParts_append]⟩
  · refine ⟨slashParts dir.toList, ?_⟩
    have hslash : "/".toList = ['/'] := rfl
    rw [String.toList_append, String.toList_append, hslash, List.append_assoc, List.singleton_append,
      slashParts_append]

/-- A path that is taken from a directory begins with that. -/
theorem toList_isPrefix_join (hrelative : isRelative path = true) (dir : String) :
    dir.toList <+: (join dir path).toList := by
  rw [join, if_neg (by simp [hrelative])]
  split_ifs
  · rw [String.toList_append]
    exact List.prefix_append _ _
  · rw [String.toList_append, String.toList_append, List.append_assoc]
    exact List.prefix_append _ _

/-- A path that is taken from a directory is not empty, and it begins where the directory does. -/
theorem isRelative_join {dir : String} (hrelative : isRelative path = true) (hdir : dir ≠ "") :
    join dir path ≠ "" ∧ isRelative (join dir path) = isRelative dir := by
  obtain ⟨rest, hrest⟩ := toList_isPrefix_join hrelative dir
  have hne : dir.toList ≠ [] := by simpa using hdir
  constructor
  · intro hempty
    rw [hempty] at hrest
    exact hne (List.append_eq_nil_iff.1 hrest).1
  · rw [isRelative, isRelative, ← hrest, List.head?_append_of_ne_nil _ hne]

/-- A path that is taken from a directory keeps its last name. -/
theorem fileName?_join (h : fileName? path = some own) (dir : String) :
    fileName? (join dir path) = some own := by
  cases hrelative : isRelative path with
  | false => rwa [join, hrelative]
  | true =>
    obtain ⟨hlast, hparent⟩ := fileName?_eq_some.1 h
    obtain ⟨ps, hps⟩ := exists_slashParts_join hrelative dir
    have hne : trim (slashParts path.toList) ≠ [] := by
      intro hnil
      rw [hnil] at hlast
      cases hlast
    rw [fileName?_eq_some, hps, trim_append hne, List.getLast?_append_of_ne_nil _ hne]
    exact ⟨hlast, hparent⟩

/-- The last name of a name is itself. -/
theorem IsName.fileName? (h : IsName name) : fileName? name = some name := by
  refine fileName?_eq_some.2 ⟨?_, h.2.2.1⟩
  rw [slashParts_of_not_mem h.2.2.2, trim_cons]
  simp [h.isIdle_eq_false, trim]

end LastNames

section Extensions

variable {name front kind stem : String}

/-- A name divides at its last point if there is text in front of that. -/
theorem divide_append (hfront : front ≠ "") (hkind : '.' ∉ kind.toList) :
    divide (front ++ "." ++ kind) = (front, some kind) := by
  have hpoint : ".".toList = ['.'] := rfl
  have hreversed : (front ++ "." ++ kind).toList.reverse =
      kind.toList.reverse ++ '.' :: front.toList.reverse := by
    simp [hpoint]
  have hall : ∀ c ∈ kind.toList.reverse, decide (c ≠ '.') = true := by
    intro c hc
    refine decide_eq_true ?_
    rintro rfl
    exact hkind (List.mem_reverse.1 hc)
  have hafter : (kind.toList.reverse ++ '.' :: front.toList.reverse).takeWhile (· ≠ '.') =
      kind.toList.reverse := by
    rw [List.takeWhile_append_of_pos hall]
    simp
  have hbefore : (kind.toList.reverse ++ '.' :: front.toList.reverse).dropWhile (· ≠ '.') =
      '.' :: front.toList.reverse := by
    rw [List.dropWhile_append_of_pos hall]
    simp
  rw [divide, hreversed, hafter, hbefore]
  obtain ⟨c, cs, hcs⟩ := List.exists_cons_of_ne_nil
    (show front.toList.reverse ≠ [] by simpa using hfront)
  simp only [hcs]
  rw [← hcs, List.reverse_reverse, List.reverse_reverse, String.ofList_toList, String.ofList_toList]

/-- A name has text in front of its extension. -/
theorem divide_fst_ne_empty (h : name ≠ "") : (divide name).1 ≠ "" := by
  rw [divide]
  split
  · exact h
  · exact h
  · rename_i c before hne hbefore
    intro hempty
    exact hne (by simpa using hempty)

/-- A name with a point divides at its last one. -/
theorem exists_last_point (h : '.' ∈ name.toList) :
    ∃ front kind, name = front ++ "." ++ kind ∧ '.' ∉ kind.toList := by
  have hmem : '.' ∈ name.toList.reverse := List.mem_reverse.2 h
  obtain ⟨after, before, hsplit, hafter⟩ := List.eq_append_cons_of_mem hmem
  have hname : name.toList = before.reverse ++ '.' :: after.reverse := by
    rw [← List.reverse_reverse name.toList, hsplit]
    simp
  have hpoint : ".".toList = ['.'] := rfl
  exact ⟨String.ofList before.reverse, String.ofList after.reverse,
    String.toList_injective (by simp [hname, hpoint]), by simpa using hafter⟩

/-- A name that goes on with a point after some text has text in front of its last point. -/
theorem front_ne_empty (hstem : stem ≠ "")
    (h : stem.toList ++ ['.'] <+: (front ++ "." ++ kind).toList) (hkind : '.' ∉ kind.toList) :
    front ≠ "" := by
  rintro rfl
  obtain ⟨rest, hrest⟩ := h
  obtain ⟨c, cs, hcs⟩ := List.exists_cons_of_ne_nil (show stem.toList ≠ [] by simpa using hstem)
  have hpoint : ("" ++ "." ++ kind).toList = '.' :: kind.toList := by
    simp [show ".".toList = ['.'] from rfl]
  rw [hpoint, hcs] at hrest
  -- The point that follows the text would stand behind the last one.
  have htail : cs ++ ['.'] ++ rest = kind.toList := (List.cons.inj hrest).2
  exact hkind (by simp [← htail])

end Extensions

end Stencil.Path
