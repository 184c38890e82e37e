import Mathlib.Data.List.Sort
import Mathlib.Data.String.Basic
import Stencil.Value.Basic

/-!
# Pairs under names

Fields, attributes, handlers and aliases are lists of pairs in which a name is looked up. Main
statements: `lookup_sortByName`, by which sorting keeps the last pair of each name, and
`sortByName_congr`, by which lists in which the same is found that way are sorted to the same list.
-/

namespace Stencil

variable {α : Type} {x : α}

section Keys

variable {κ : Type} [BEq κ] [LawfulBEq κ] {pairs : List (κ × α)} {name : κ}

/-- A name is found if it is the name of a pair. -/
theorem isSome_lookup_iff : (pairs.lookup name).isSome = true ↔ name ∈ pairs.map (·.1) := by
  simp only [List.lookup_isSome_iff, List.mem_map, beq_iff_eq, @eq_comm _ name]

/-- A name is not found if it is the name of no pair. -/
theorem lookup_eq_none_iff_not_mem : pairs.lookup name = none ↔ name ∉ pairs.map (·.1) := by
  rw [← isSome_lookup_iff, ← Option.isNone_iff_eq_none, ← Option.not_isSome, Bool.not_eq_true,
    Bool.not_eq_true']

/-- What is found is one of the pairs. -/
theorem mem_of_lookup_eq_some (h : pairs.lookup name = some x) : (name, x) ∈ pairs := by
  obtain ⟨before, after, rfl, -⟩ := List.lookup_eq_some_iff.1 h
  exact List.mem_append_right _ List.mem_cons_self

/-- Where no two pairs have the same name each of them is found. -/
theorem mem_iff_lookup_eq_some (h : (pairs.map (·.1)).Nodup) :
    (name, x) ∈ pairs ↔ pairs.lookup name = some x := by
  refine ⟨fun hmem => ?_, mem_of_lookup_eq_some⟩
  obtain ⟨before, after, rfl⟩ := List.append_of_mem hmem
  rw [List.map_append, List.map_cons, List.nodup_middle, List.nodup_cons] at h
  have hbefore : name ∉ before.map (·.1) := fun hn => h.1 (List.mem_append_left _ hn)
  rw [List.lookup_append, lookup_eq_none_iff_not_mem.2 hbefore, Option.none_or,
    List.lookup_cons_self]

end Keys

variable {pairs others : List (String × α)} {name other : String}

section Lookup

/-- The first pair is found under its name, and the rest under other names. -/
theorem lookup_cons_eq_ite (name : String) (x : α) (pairs : List (String × α)) (other : String) :
    ((name, x) :: pairs).lookup other = if other = name then some x else pairs.lookup other := by
  by_cases h : other = name
  · rw [if_pos h, h, List.lookup_cons_self]
  · rw [if_neg h, List.lookup_cons, beq_eq_false_iff_ne.2 h]

/-- A pair at the end does not change what is found under other names. -/
theorem lookup_append_singleton_ne (h : other ≠ name) :
    (pairs ++ [(name, x)]).lookup other = pairs.lookup other := by
  rw [List.lookup_append, lookup_cons_eq_ite, if_neg h, List.lookup_nil, Option.or_none]

/-- A pair at the end is found if its name is new. -/
theorem lookup_append_singleton_self (h : name ∉ pairs.map (·.1)) :
    (pairs ++ [(name, x)]).lookup name = some x := by
  rw [List.lookup_append, lookup_eq_none_iff_not_mem.2 h, Option.none_or, List.lookup_cons_self]

end Lookup

section Order

/-- The names are in strict order. -/
def InNameOrder (pairs : List (String × α)) : Prop := pairs.Pairwise fun p q => p.1 < q.1

/-- In strict order no name occurs twice. -/
theorem InNameOrder.nodup (h : InNameOrder pairs) : (pairs.map (·.1)).Nodup :=
  List.pairwise_map.2 (h.imp ne_of_lt)

/-- A pair that is put among others is found, and under other names what was found before. -/
theorem lookup_insertByName (name : String) (x : α) (pairs : List (String × α)) (other : String) :
    (insertByName name x pairs).lookup other =
      if other = name then some x else pairs.lookup other := by
  induction pairs with
  | nil => exact lookup_cons_eq_ite name x [] other
  | cons p pairs ih =>
    obtain ⟨k, y⟩ := p
    rw [insertByName]
    by_cases hlt : name < k
    · rw [if_pos hlt]
      exact lookup_cons_eq_ite name x _ other
    rw [if_neg hlt]
    by_cases heq : name = k
    · rw [if_pos heq, lookup_cons_eq_ite, lookup_cons_eq_ite, heq]
      by_cases hother : other = k
      · rw [if_pos hother, if_pos hother]
      · rw [if_neg hother, if_neg hother, if_neg hother]
    · rw [if_neg heq, lookup_cons_eq_ite, lookup_cons_eq_ite, ih]
      by_cases hother : other = k
      · rw [if_pos hother, if_pos hother, if_neg (hother ▸ Ne.symm heq)]
      · rw [if_neg hother, if_neg hother]

/-- A pair that is put among others comes first of its name. -/
theorem lookup_foldl_insertByName (pairs sorted : List (String × α)) (name : String) :
    (pairs.foldl (fun sorted p => insertByName p.1 p.2 sorted) sorted).lookup name =
      (pairs.reverse.lookup name).or (sorted.lookup name) := by
  induction pairs generalizing sorted with
  | nil => rfl
  | cons p pairs ih =>
    rw [List.foldl_cons, ih, lookup_insertByName, List.reverse_cons, List.lookup_append,
      Option.or_assoc]
    rw [lookup_cons_eq_ite, List.lookup_nil]
    by_cases hname : name = p.1
    · rw [if_pos hname, if_pos hname, Option.some_or]
    · rw [if_neg hname, if_neg hname, Option.none_or]

/-- In sorted pairs the last pair of each name is found. -/
theorem lookup_sortByName (pairs : List (String × α)) (name : String) :
    (sortByName pairs).lookup name = pairs.reverse.lookup name := by
  rw [sortByName, lookup_foldl_insertByName, List.lookup_nil, Option.or_none]

/-- A pair that is put among others is at most one more. -/
theorem length_insertByName_le (name : String) (x : α) (pairs : List (String × α)) :
    (insertByName name x pairs).length ≤ pairs.length + 1 := by
  induction pairs with
  | nil => exact le_rfl
  | cons p pairs ih =>
    rw [insertByName]
    split_ifs with hlt heq
    · exact le_rfl
    · exact Nat.le_succ _
    · exact Nat.succ_le_succ ih

/-- Sorted pairs are not more than there were. -/
theorem length_sortByName_le (pairs : List (String × α)) :
    (sortByName pairs).length ≤ pairs.length := by
  suffices h : ∀ sorted : List (String × α),
      (pairs.foldl (fun sorted p => insertByName p.1 p.2 sorted) sorted).length ≤
        sorted.length + pairs.length by
    have hnil := h []
    rwa [List.length_nil, Nat.zero_add] at hnil
  induction pairs with
  | nil => exact fun sorted => le_rfl
  | cons p pairs ih =>
    intro sorted
    have hstep := ih (insertByName p.1 p.2 sorted)
    have hinsert := length_insertByName_le p.1 p.2 sorted
    rw [List.foldl_cons, List.length_cons]
    omega

/-- A pair that is put among others is the only one that is new. -/
theorem mem_of_mem_insertByName {p : String × α} (h : p ∈ insertByName name x pairs) :
    p = (name, x) ∨ p ∈ pairs := by
  induction pairs with
  | nil => exact .inl (List.mem_singleton.1 h)
  | cons q pairs ih =>
    rw [insertByName] at h
    split_ifs at h with hlt heq
    · exact List.mem_cons.1 h
    · exact (List.mem_cons.1 h).imp_right (List.mem_cons_of_mem _)
    · rcases List.mem_cons.1 h with rfl | h
      · exact .inr List.mem_cons_self
      · exact (ih h).imp_right (List.mem_cons_of_mem _)

/-- A pair takes its place in the order. -/
theorem InNameOrder.insertByName (h : InNameOrder pairs) (name : String) (x : α) :
    InNameOrder (insertByName name x pairs) := by
  induction pairs with
  | nil => exact List.pairwise_singleton _ _
  | cons q pairs ih =>
    obtain ⟨k, y⟩ := q
    obtain ⟨hk, hpairs⟩ := List.pairwise_cons.1 h
    rw [Stencil.insertByName]
    split_ifs with hlt heq
    · refine List.pairwise_cons.2 ⟨fun p hp => ?_, h⟩
      rcases List.mem_cons.1 hp with rfl | hp
      · exact hlt
      · exact hlt.trans (hk p hp)
    · subst heq
      exact List.pairwise_cons.2 ⟨hk, hpairs⟩
    · refine List.pairwise_cons.2 ⟨fun p hp => ?_, ih hpairs⟩
      rcases mem_of_mem_insertByName hp with rfl | hp
      · exact lt_of_le_of_ne (not_lt.1 hlt) (Ne.symm heq)
      · exact hk p hp

/-- Sorted pairs are in strict order. -/
theorem inNameOrder_sortByName (pairs : List (String × α)) : InNameOrder (sortByName pairs) :=
  List.foldlRecOn pairs _ List.Pairwise.nil fun _ h p _ => h.insertByName p.1 p.2

/-- Pairs in strict order are determined by what is found in them. -/
theorem InNameOrder.eq_of_lookup (h : InNameOrder pairs) (h' : InNameOrder others)
    (hlookup : ∀ name, pairs.lookup name = others.lookup name) : pairs = others := by
  have hperm : pairs.Perm others := by
    refine (List.perm_ext_iff_of_nodup h.nodup.of_map h'.nodup.of_map).2 fun ⟨name, x⟩ => ?_
    rw [mem_iff_lookup_eq_some h.nodup, mem_iff_lookup_eq_some h'.nodup, hlookup]
  exact hperm.eq_of_pairwise (fun p q _ _ hpq hqp => absurd hpq hqp.not_gt) h h'

/-- Lists whose last pairs of each name are the same are sorted to the same list. -/
theorem sortByName_congr (h : ∀ name, pairs.reverse.lookup name = others.reverse.lookup name) :
    sortByName pairs = sortByName others :=
  (inNameOrder_sortByName pairs).eq_of_lookup (inNameOrder_sortByName others) fun name => by
    rw [lookup_sortByName, lookup_sortByName, h]

end Order

end Stencil
