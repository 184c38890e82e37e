import Mathlib.Data.List.Sort
import Mathlib.Data.String.Basic
import Stencil.Proofs.Files.Directories
import Stencil.Proofs.Files.Names
import Stencil.Proofs.Values.Named

/-!
# Which sidecar is taken

The names of the entries next to a source file say which of them is its sidecar, in whatever order they
are listed. What stands under other names makes no difference, but for the way there: a sidecar that is
a link is read where the link leads. Main statements: `selection_of_list`, on whatever answers to
questions about files, `FileTree.AgreesBeside.locate_eq`, on two trees that differ in other entries of
the directory, and `sidecar_is_selected_by_entries`.
-/

namespace Stencil

namespace Sidecar

/-- The names are those of the entries that are considered for a sidecar, each once and in order: the
entries that are no directories, whose names go on with a point after the stem, and that are not the
source file itself. -/
structure Considered (stem own : String) (entries : List Listed) (names : List String) : Prop where
  /-- The names are in strict order. -/
  ordered : names.Pairwise (· < ·)
  /-- The names are those of the entries that are considered. -/
  mem_iff : ∀ name, name ∈ names ↔
    ⟨name, false⟩ ∈ entries ∧ stem.toList ++ ['.'] <+: name.toList ∧ name ≠ own

/-- What locating a sidecar comes to, by the names of the entries that are considered. -/
structure Selection (settings : Settings) (files : Files) (component anchor dir stem : String)
    (names : List String) : Prop where
  /-- Without any the template is missing. -/
  missing : names = [] →
    locate settings files component anchor =
      .error (.missingTemplate component (Path.join dir (stem ++ ".*")))
  /-- The name of the only one has an extension. -/
  extension : ∀ name, names = [name] →
    ∃ front kind, name = front ++ "." ++ kind ∧ '.' ∉ kind.toList
  /-- The only one is read, and its kind is what stands behind the last point. -/
  only : ∀ front kind, names = [front ++ "." ++ kind] → '.' ∉ kind.toList →
    (∀ text, files.readText (Path.join dir (front ++ "." ++ kind)) = .ok text →
      locate settings files component anchor =
        .ok ⟨.file (Path.join dir (front ++ "." ++ kind)), kind, text⟩) ∧
    ∀ e, files.readText (Path.join dir (front ++ "." ++ kind)) = .error e →
      locate settings files component anchor =
        .error (.template (Path.join dir (front ++ "." ++ kind)) (.unreadable e))
  /-- With several all of them are told. -/
  several : 1 < names.length →
    locate settings files component anchor =
      .error (.ambiguousTemplate component (names.map (Path.join dir)))
  /-- A template never lacks its extension. -/
  hasKind : ∀ path, locate settings files component anchor ≠ .error (.template path .noExtension)

section Names

variable {stem own : String} {entries others : List Listed} {names otherNames : List String}

/-- The names that are chosen are those that are considered. -/
theorem considered_choose (stem own : String) (hnodup : (entries.map Listed.name).Nodup) :
    Considered stem own entries (choose stem own entries) := by
  have hperm := ((entries.filter fun e => !e.isDir && isCandidate stem own e.name).map
    Listed.name).mergeSort_perm (· ≤ ·)
  constructor
  · have hsorted : (choose stem own entries).Pairwise (· ≤ ·) := List.pairwise_mergeSort' (· ≤ ·) _
    have hdistinct : (choose stem own entries).Pairwise (· ≠ ·) :=
      hperm.nodup_iff.2 (hnodup.sublist (List.filter_sublist.map _))
    exact (hsorted.and hdistinct).imp fun h => lt_of_le_of_ne h.1 h.2
  · intro name
    rw [choose, hperm.mem_iff, List.mem_map]
    constructor
    · rintro ⟨⟨name, isDir⟩, he, rfl⟩
      obtain ⟨hentry, hcandidate⟩ := List.mem_filter.1 he
      simp only [Bool.and_eq_true, Bool.not_eq_true', isCandidate, List.isPrefixOf_iff_prefix,
        bne_iff_ne, ne_eq] at hcandidate
      obtain ⟨rfl, hbegins, hown⟩ := hcandidate
      exact ⟨hentry, hbegins, hown⟩
    · rintro ⟨hentry, hbegins, hown⟩
      refine ⟨⟨name, false⟩, List.mem_filter.2 ⟨hentry, ?_⟩, rfl⟩
      simp only [Bool.and_eq_true, Bool.not_false, isCandidate, List.isPrefixOf_iff_prefix,
        bne_iff_ne, ne_eq, true_and]
      exact ⟨hbegins, hown⟩

/-- The names that are considered depend on the entries that begin with the stem and a point only, and
not on the order of these. -/
theorem Considered.congr (h : Considered stem own entries names)
    (hiff : ∀ name, stem.toList ++ ['.'] <+: name.toList →
      (⟨name, false⟩ ∈ entries ↔ ⟨name, false⟩ ∈ others)) : Considered stem own others names := by
  refine ⟨h.ordered, fun name => (h.mem_iff name).trans ?_⟩
  constructor
  · exact fun ⟨hentry, hbegins, hown⟩ => ⟨(hiff name hbegins).1 hentry, hbegins, hown⟩
  · exact fun ⟨hentry, hbegins, hown⟩ => ⟨(hiff name hbegins).2 hentry, hbegins, hown⟩

/-- The names that are considered are one list. -/
theorem Considered.unique (h : Considered stem own entries names)
    (h' : Considered stem own entries otherNames) : names = otherNames :=
  h.ordered.eq_of_mem_iff h'.ordered fun name => (h.mem_iff name).trans (h'.mem_iff name).symm

end Names

section Outcomes

variable {settings : Settings} {files : Files} {component anchor own : String} {entries : List Listed}
  {names : List String}

/-- A source file keeps its name when it is taken from the root of the templates. -/
theorem fileName?_resolve (hown : Path.fileName? anchor = some own) (settings : Settings) :
    Path.fileName? (resolve settings anchor) = some own := by
  rw [resolve]
  cases settings.root? with
  | none => exact hown
  | some root => exact Path.fileName?_join hown root

/-- The candidates are the entries of the directory that are chosen. -/
theorem candidates_eq (hown : Path.fileName? anchor = some own)
    (hlist : files.list (directory anchor) = .ok entries) :
    candidates files anchor =
      .ok ((choose (Path.divide own).1 own entries).map (Path.join (directory anchor))) := by
  rw [candidates, Path.stem?, hown]
  simp only [Option.map_some, hlist]
  rfl

/-- The pattern for a sidecar has the stem of the source file. -/
theorem pattern_eq (hown : Path.fileName? anchor = some own) :
    pattern anchor = Path.join (directory anchor) ((Path.divide own).1 ++ ".*") := by
  rw [pattern, Path.stem?, hown]
  rfl

/-- Locating a sidecar goes by the names that are considered. -/
theorem locate_eq (component : String) (hown : Path.fileName? anchor = some own)
    (hlist : files.list (directory (resolve settings anchor)) = .ok entries)
    (hnodup : (entries.map Listed.name).Nodup)
    (hnames : Considered (Path.divide own).1 own entries names) :
    locate settings files component anchor =
      match names.map (Path.join (directory (resolve settings anchor))) with
      | [] => .error (.missingTemplate component
          (Path.join (directory (resolve settings anchor)) ((Path.divide own).1 ++ ".*")))
      | [path] => Source.read files path
      | paths => .error (.ambiguousTemplate component paths) := by
  have hresolved := fileName?_resolve hown settings
  have hchoose : choose (Path.divide own).1 own entries = names :=
    (considered_choose _ _ hnodup).unique hnames
  rw [locate]
  simp only [candidates_eq hresolved hlist, hchoose, pattern_eq hresolved]
  match names with
  | [] => rfl
  | [_] => rfl
  | _ :: _ :: _ => rfl

/-- A file with a name that divides is read, with the extension for its kind. -/
theorem read_join {dir name front kind : String} (hname : Path.IsName name)
    (hdivide : Path.divide name = (front, some kind)) :
    Source.read files (Path.join dir name) =
      match files.readText (Path.join dir name) with
      | .ok text => .ok ⟨.file (Path.join dir name), kind, text⟩
      | .error e => .error (.template (Path.join dir name) (.unreadable e)) := by
  have hextension : Path.extension? (Path.join dir name) = some kind := by
    rw [Path.extension?, Path.fileName?_join hname.fileName?, Option.bind_some, hdivide]
  rw [Source.read]
  cases files.readText (Path.join dir name) with
  | ok text => simp only [hextension]
  | error e => simp only [hextension]

/-- What locating a sidecar comes to, by the entries of the directory. -/
theorem selection_of_list (hown : Path.fileName? anchor = some own)
    (hlist : files.list (directory (resolve settings anchor)) = .ok entries)
    (hnodup : (entries.map Listed.name).Nodup) (hisName : ∀ e ∈ entries, Path.IsName e.name)
    (hnames : Considered (Path.divide own).1 own entries names) :
    Selection settings files component anchor (directory (resolve settings anchor))
      (Path.divide own).1 names := by
  have hlocate := locate_eq component hown hlist hnodup hnames
  have hstem := Path.divide_fst_ne_empty (Path.fileName?_ne_empty hown)
  have hdivide : ∀ front kind, front ++ "." ++ kind ∈ names → '.' ∉ kind.toList →
      Path.IsName (front ++ "." ++ kind) ∧
        Path.divide (front ++ "." ++ kind) = (front, some kind) := by
    intro front kind hname hkind
    obtain ⟨hentry, hbegins, -⟩ := (hnames.mem_iff _).1 hname
    exact ⟨hisName _ hentry,
      Path.divide_append (Path.front_ne_empty hstem hbegins hkind) hkind⟩
  have hparts : ∀ name ∈ names, ∃ front kind, name = front ++ "." ++ kind ∧ '.' ∉ kind.toList := by
    intro name hname
    obtain ⟨-, hbegins, -⟩ := (hnames.mem_iff name).1 hname
    exact Path.exists_last_point (hbegins.mem (List.mem_append_right _ List.mem_cons_self))
  refine ⟨?_, ?_, ?_, ?_, ?_⟩
  · rintro rfl
    exact hlocate
  · rintro name rfl
    exact hparts name List.mem_cons_self
  · rintro front kind rfl hkind
    obtain ⟨hname, hparts⟩ := hdivide front kind List.mem_cons_self hkind
    have hone := hlocate.trans (read_join hname hparts)
    constructor
    · intro text htext
      rw [hone, htext]
    · intro e he
      rw [hone, he]
  · intro hlength
    rw [hlocate]
    match names, hlength with
    | _ :: _ :: _, _ => rfl
  · intro path
    rw [hlocate]
    match names with
    | [] => simp
    | [name] =>
      obtain ⟨front, kind, rfl, hkind⟩ := hparts name List.mem_cons_self
      obtain ⟨hname, hparts⟩ := hdivide front kind List.mem_cons_self hkind
      simp only [List.map_cons, List.map_nil]
      rw [read_join hname hparts]
      cases files.readText
        (Path.join (directory (resolve settings anchor)) (front ++ "." ++ kind)) with
      | ok text => simp
      | error e => simp
    | _ :: _ :: _ => simp

end Outcomes

end Sidecar

namespace FileTree

/-- The trees are the same but for what stands in a directory under names that do not begin so, and
for what stands below such names. -/
def AgreesBeside (tree other : FileTree) (here : List String) (beginning : List Char) : Prop :=
  ∀ entry : List String × Entry,
    (∀ name rest, entry.1 = here ++ name :: rest → beginning <+: name.toList) →
      (entry ∈ tree.entries ↔ entry ∈ other.entries)

section Ways

variable {tree : FileTree} {spot target : Spot} {here : List String} {links : Nat}
  {dir name : String}

/-- A way goes on from where its first names lead, with the links that are left. -/
theorem exists_walk_append {names : List String} (h : tree.walk links spot names = .ok target) :
    ∃ left, ∀ more, tree.walk links spot (names ++ more) = tree.walk left target more := by
  fun_induction walk tree links spot names with
  | case1 links spot =>
    cases h
    exact ⟨links, fun _ => rfl⟩
  | case2 links spot name rest e he => cases h
  | case3 links spot name rest next hnext ih =>
    obtain ⟨left, hleft⟩ := ih h
    refine ⟨left, fun more => ?_⟩
    rw [List.cons_append, walk, hnext]
    exact hleft more
  | case4 spot name rest through hthrough => cases h
  | case5 spot name rest through hthrough links ih =>
    obtain ⟨left, hleft⟩ := ih h
    refine ⟨left, fun more => ?_⟩
    rw [List.cons_append, walk, hthrough]
    simp only
    rw [← List.append_assoc]
    exact hleft more

/-- The names in the path to an entry are those of the directory and its own, but for an idle one at the
end of the directory. -/
theorem exists_names_join (hdir : dir ≠ "") (hname : Path.IsName name) :
    ∃ front idle, names dir = front ++ idle ∧ (∀ n ∈ idle, isIdle n = true) ∧
      names (Path.join dir name) = front ++ [name] := by
  have hown : names name = [name] := by
    rw [names, Text.slashParts_of_not_mem hname.2.2.2, List.map_singleton, String.ofList_toList]
  have hslash : "/".toList = ['/'] := rfl
  rw [Path.join, if_neg (by simp [hname.isRelative])]
  split_ifs with hjoin
  · obtain ⟨front, hfront⟩ := List.getLast?_eq_some_iff.1 (hjoin.resolve_left hdir)
    refine ⟨(Text.slashParts front).map String.ofList, [""], ?_, by simp [isIdle], ?_⟩
    · rw [names, hfront, Text.slashParts_append, List.map_append]
      rfl
    · rw [names, String.toList_append, hfront, List.append_assoc, List.singleton_append,
        Text.slashParts_append, List.map_append]
      exact congrArg _ hown
  · refine ⟨names dir, [], (List.append_nil _).symm, List.forall_mem_nil _, ?_⟩
    rw [names, String.toList_append, String.toList_append, hslash, List.append_assoc,
      List.singleton_append, Text.slashParts_append, List.map_append]
    exact congrArg _ hown

/-- The way to an entry leads to its directory first. -/
theorem exists_find_join (h : tree.find dir = .ok target) (ht : tree.isDir target = true)
    (hname : Path.IsName name) :
    ∃ left, tree.find (Path.join dir name) =
      match ReadError.ofPath? (Path.join dir name) with
      | some e => .error e
      | none => tree.walk left target [name] := by
  unfold find at h
  split at h
  · cases h
  · by_cases hempty : dir = ""
    · rw [if_pos hempty] at h
      cases h
    · rw [if_neg hempty] at h
      obtain ⟨front, idle, hdir, hidle, hjoin⟩ := exists_names_join hempty hname
      rw [hdir, walk_append_idle ht hidle] at h
      obtain ⟨left, hleft⟩ := exists_walk_append h
      refine ⟨left, ?_⟩
      obtain ⟨hne, hrelative⟩ := Path.isRelative_join hname.isRelative hempty
      rw [find]
      cases ReadError.ofPath? (Path.join dir name) with
      | some e => simp only
      | none => simp only [if_neg hne, hrelative, hjoin, hleft]

/-- A name that an entry can have is followed to the entry. -/
theorem step_of_isName (hs : tree.isDir (some here) = true) (hname : Path.IsName name) :
    tree.step (some here) name =
      if nameLimit < name.utf8ByteSize then .error .nameTooLong
      else
        match tree.entry? (here ++ [name]) with
        | none => .error .notFound
        | some (.link target) => .ok (.through target)
        | some _ => .ok (.arrived (some (here ++ [name]))) := by
  have hbusy : isIdle name = false := by
    simp [isIdle, hname.1, hname.2.1]
  unfold step
  rw [if_neg (by simp [hs]), if_neg (by simp [hbusy])]
  by_cases hlong : nameLimit < name.utf8ByteSize
  · rw [if_pos hlong, if_pos hlong]
  · rw [if_neg hlong, if_neg hlong]
    cases hentry : tree.entry? (here ++ [name]) with
    | none => simp only [if_neg hname.2.2.1, hentry]
    | some e =>
      cases e with
      | file bytes => simp only [if_neg hname.2.2.1, hentry]
      | dir => simp only [if_neg hname.2.2.1, hentry]
      | link target => simp only [if_neg hname.2.2.1, hentry]

/-- An entry that is no link is found, however many links were followed on the way to its directory. -/
theorem find_join (h : tree.find dir = .ok (some here)) (hs : tree.isDir (some here) = true)
    (hname : Path.IsName name) (hlink : ∀ target, tree.entry? (here ++ [name]) ≠ some (.link target)) :
    tree.find (Path.join dir name) =
      match ReadError.ofPath? (Path.join dir name) with
      | some e => .error e
      | none =>
        if nameLimit < name.utf8ByteSize then .error .nameTooLong
        else if (tree.entry? (here ++ [name])).isNone then .error .notFound
        else .ok (some (here ++ [name])) := by
  obtain ⟨left, hleft⟩ := exists_find_join h hs hname
  rw [hleft]
  cases ReadError.ofPath? (Path.join dir name) with
  | some e => rfl
  | none =>
    simp only
    rw [walk, step_of_isName hs hname]
    split_ifs with hlong hnone
    · rfl
    · rw [Option.isNone_iff_eq_none.1 hnone]
    · cases hentry : tree.entry? (here ++ [name]) with
      | none => simp [hentry] at hnone
      | some e =>
        cases e with
        | file bytes => simp only [walk]
        | dir => simp only [walk]
        | link target => exact absurd hentry (hlink target)

end Ways

section Trees

variable {tree other : FileTree} {here : List String} {beginning : List Char} {dir name : String}
  {entries others : List Listed}

/-- A directory that is listed is one, and its listing is that of the entries which stand in it. -/
theorem list_of_find (h : tree.find dir = .ok (some here)) (hlist : tree.list dir = .ok entries) :
    tree.isDir (some here) = true ∧ entries = tree.entries.filterMap (listed? here) := by
  rw [list, h] at hlist
  cases hdir : tree.isDir (some here) with
  | true =>
    simp only [bind, Except.bind, hdir] at hlist
    exact ⟨rfl, (Except.ok.inj hlist).symm⟩
  | false =>
    simp only [bind, Except.bind, hdir] at hlist
    cases hlist

/-- An entry is listed as no directory exactly if something else stands under its name. -/
theorem mem_filterMap_listed? :
    ⟨name, false⟩ ∈ tree.entries.filterMap (listed? here) ↔
      ∃ e, (here ++ [name], e) ∈ tree.entries ∧ (e matches .dir) = false := by
  have hlisted : ∀ e : Entry,
      listed? here (here ++ [name], e) = some ⟨name, e matches .dir⟩ := by
    intro e
    cases e with
    | file bytes => simp [listed?]
    | dir => simp [listed?]
    | link target => simp [listed?]
  rw [List.mem_filterMap]
  constructor
  · rintro ⟨⟨place, e⟩, hentry, hname⟩
    obtain rfl : place = here ++ [name] := eq_of_listed? hname
    rw [hlisted] at hname
    exact ⟨e, hentry, (Listed.mk.inj (Option.some.inj hname)).2⟩
  · rintro ⟨e, hentry, he⟩
    exact ⟨_, hentry, by rw [hlisted, he]⟩

/-- What stands at a place is the entry for it. -/
theorem WellFormed.entry?_eq_some (hwf : tree.WellFormed) {place : List String} (hne : place ≠ [])
    {e : Entry} : tree.entry? place = some e ↔ (place, e) ∈ tree.entries := by
  rw [mem_iff_lookup_eq_some hwf.distinct, entry?]
  exact hne

/-- The trees have the same entry under a name that begins so. -/
theorem AgreesBeside.entry?_eq (h : tree.AgreesBeside other here beginning) (hwf : tree.WellFormed)
    (hother : other.WellFormed) (hname : beginning <+: name.toList) :
    tree.entry? (here ++ [name]) = other.entry? (here ++ [name]) := by
  have hne : here ++ [name] ≠ [] := by simp
  ext e
  rw [hwf.entry?_eq_some hne, hother.entry?_eq_some hne]
  refine h _ fun name' rest heq => ?_
  obtain ⟨rfl, -⟩ := List.cons.inj (List.append_cancel_left heq)
  exact hname

/-- The trees list the same under names that begin so, but for directories. -/
theorem AgreesBeside.mem_listed_iff (h : tree.AgreesBeside other here beginning)
    (hname : beginning <+: name.toList) :
    ⟨name, false⟩ ∈ tree.entries.filterMap (listed? here) ↔
      ⟨name, false⟩ ∈ other.entries.filterMap (listed? here) := by
  rw [mem_filterMap_listed?, mem_filterMap_listed?]
  refine exists_congr fun e => and_congr_left fun _ => h _ fun name' rest heq => ?_
  obtain ⟨rfl, -⟩ := List.cons.inj (List.append_cancel_left heq)
  exact hname

/-- The trees have the same directory. -/
theorem AgreesBeside.isDir_eq (h : tree.AgreesBeside other here beginning) (hwf : tree.WellFormed)
    (hother : other.WellFormed) : tree.isDir (some here) = other.isDir (some here) := by
  by_cases hroot : here = []
  · subst hroot
    rfl
  · have hentry : tree.entry? here = other.entry? here := by
      ext e
      rw [hwf.entry?_eq_some hroot, hother.entry?_eq_some hroot]
      refine h _ fun name rest heq => ?_
      have hlength := congrArg List.length heq
      simp at hlength
    rw [isDir, isDir, hentry]

/-- The trees have the same under a name that begins so, unless a link stands there. -/
theorem AgreesBeside.read_eq (h : tree.AgreesBeside other here beginning) (hwf : tree.WellFormed)
    (hother : other.WellFormed) (hs : tree.isDir (some here) = true)
    (hfind : tree.find dir = .ok (some here)) (hfind' : other.find dir = .ok (some here))
    (hisName : Path.IsName name) (hname : beginning <+: name.toList)
    (hlink : ∀ target, tree.entry? (here ++ [name]) ≠ some (.link target)) :
    tree.read (Path.join dir name) = other.read (Path.join dir name) := by
  have hentry := h.entry?_eq hwf hother hname
  have hs' : other.isDir (some here) = true := by rwa [← h.isDir_eq hwf hother]
  have hsame : tree.find (Path.join dir name) = other.find (Path.join dir name) := by
    rw [find_join hfind hs hisName hlink, find_join hfind' hs' hisName (by rwa [← hentry]), hentry]
  have hplace : ∀ spot, tree.find (Path.join dir name) = .ok spot → spot = some (here ++ [name]) := by
    intro spot hspot
    rw [find_join hfind hs hisName hlink] at hspot
    split at hspot
    · cases hspot
    · split_ifs at hspot
      exact (Except.ok.inj hspot).symm
  -- What is found is the entry itself, so that nothing but its bytes is left to compare.
  rw [read, read, ← hsame]
  cases hspot : tree.find (Path.join dir name) with
  | error e => rfl
  | ok spot =>
    obtain rfl := hplace spot hspot
    simp only [bind, Except.bind, Option.bind_some, hentry]

end Trees

end FileTree

section Congruence

variable {settings : Settings} {component anchor own dir : String} {tree other : FileTree}
  {here names : List String} {entries : List Listed}

/-- What is read as a template is the same if the files have the same bytes. -/
theorem Source.read_congr {files others : Files} {path : String} (h : files.read path = others.read path) :
    Source.read files path = Source.read others path := by
  rw [Source.read, Source.read, Files.readText, Files.readText, h]

/-- Locating a sidecar comes to the same in trees that differ in other entries of the directory, if a
link that is the only one considered leads to the same bytes. -/
theorem FileTree.AgreesBeside.locate_eq (hwf : tree.WellFormed) (hother : other.WellFormed)
    (hown : Path.fileName? anchor = some own)
    (hdir : Sidecar.directory (Sidecar.resolve settings anchor) = dir)
    (hlist : tree.list dir = .ok entries) (hfind : tree.find dir = .ok (some here))
    (hfind' : other.find dir = .ok (some here))
    (h : tree.AgreesBeside other here ((Path.divide own).1.toList ++ ['.']))
    (hlink : ∀ name target, Sidecar.Considered (Path.divide own).1 own entries [name] →
      tree.entry? (here ++ [name]) = some (.link target) →
        tree.read (Path.join dir name) = other.read (Path.join dir name)) :
    Sidecar.locate settings tree.files component anchor =
      Sidecar.locate settings other.files component anchor := by
  subst hdir
  obtain ⟨hs, rfl⟩ := list_of_find hfind hlist
  have hlist' : other.list (Sidecar.directory (Sidecar.resolve settings anchor)) =
      .ok (other.entries.filterMap (listed? here)) := by
    rw [list, hfind']
    simp only [bind, Except.bind, ← h.isDir_eq hwf hother, hs]
    rfl
  have hnames : Sidecar.Considered (Path.divide own).1 own (tree.entries.filterMap (listed? here))
      (Sidecar.choose (Path.divide own).1 own (tree.entries.filterMap (listed? here))) :=
    Sidecar.considered_choose _ _ (hwf.nodup_list hlist)
  revert hnames
  generalize Sidecar.choose (Path.divide own).1 own (tree.entries.filterMap (listed? here)) = names
  intro hnames
  rw [Sidecar.locate_eq _ hown hlist (hwf.nodup_list hlist) hnames,
    Sidecar.locate_eq _ hown hlist' (hother.nodup_list hlist')
      (hnames.congr fun _ hname => h.mem_listed_iff hname)]
  -- The names are the same in both trees, so that only what a single one leads to can differ.
  match names, hnames with
  | [], _ => rfl
  | [name], hnames =>
    obtain ⟨hentry, hbegins, -⟩ := (hnames.mem_iff name).1 List.mem_cons_self
    apply Source.read_congr
    by_cases hthrough : ∃ target, tree.entry? (here ++ [name]) = some (.link target)
    · obtain ⟨target, htarget⟩ := hthrough
      exact hlink name target hnames htarget
    · exact h.read_eq hwf hother hs hfind hfind' (hwf.isName_of_mem_list hlist hentry) hbegins
        fun target htarget => hthrough ⟨target, htarget⟩
  | _ :: _ :: _, _ => rfl

end Congruence

/-- The sidecar of a source file is selected by the entries of its directory. Considered are, in strict
order, the entries that are no directories, have the stem of the source file and a point in front, and
are not the source file itself. Without any the template is missing, several are told as they are, and
the only one is read, with what stands behind its last point for its kind; that there is something is
never in doubt. In trees of files, directories and links, what stands in the directory under other names
has no effect on the outcome, as long as the way to the directory leads there and the only sidecar that
is considered, if it is a link, leads to the same bytes. -/
theorem sidecar_is_selected_by_entries (settings : Settings) (component : String)
    {anchor own dir : String} (hown : Path.fileName? anchor = some own)
    (hdir : Sidecar.directory (Sidecar.resolve settings anchor) = dir) :
    (∀ (files : Files) (entries : List Listed), files.list dir = .ok entries →
      (entries.map Listed.name).Nodup → (∀ e ∈ entries, Path.IsName e.name) →
      ∃ names, Sidecar.Considered (Path.divide own).1 own entries names ∧
        Sidecar.Selection settings files component anchor dir (Path.divide own).1 names) ∧
    ∀ (tree other : FileTree) (here : List String) (entries : List Listed),
      tree.WellFormed → other.WellFormed → tree.list dir = .ok entries →
      tree.find dir = .ok (some here) → other.find dir = .ok (some here) →
      tree.AgreesBeside other here ((Path.divide own).1.toList ++ ['.']) →
      (∀ name target, Sidecar.Considered (Path.divide own).1 own entries [name] →
        tree.entry? (here ++ [name]) = some (.link target) →
          tree.read (Path.join dir name) = other.read (Path.join dir name)) →
      Sidecar.locate settings tree.files component anchor =
        Sidecar.locate settings other.files component anchor := by
  refine ⟨fun files entries hlist hnodup hisName => ?_, fun tree other here entries hwf hother hlist
    hfind hfind' hagree hlink =>
      hagree.locate_eq hwf hother hown hdir hlist hfind hfind' hlink⟩
  subst hdir
  have hnames := Sidecar.considered_choose (Path.divide own).1 own hnodup
  exact ⟨_, hnames, Sidecar.selection_of_list hown hlist hnodup hisName hnames⟩

/-! ### A sidecar that is a link -/

/-- A directory with a source file and a link for its sidecar, and what the link leads to. -/
def linkedTree : FileTree :=
  ⟨[(["badge.rs"], .file .empty), (["badge.html"], .link "shared.html"),
    (["shared.html"], .file .empty)]⟩

/-- The same directory with one more file. -/
def fullerTree : FileTree := ⟨linkedTree.entries ++ [(["badges.html"], .file .empty)]⟩

/-- The same directory when what the link leads to is gone. -/
def danglingTree : FileTree := linkedTree.remove ["shared.html"]

/-- The current directory is found. -/
theorem find_point (tree : FileTree) : tree.find "." = .ok (some []) := by
  have hnames : FileTree.names "." = ["."] := by decide
  have horder : ReadError.ofPath? "." = none := by decide
  have hrelative : Path.isRelative "." = true := by decide
  have hstep : tree.step (some []) "." = .ok (.arrived (some [])) := rfl
  simp [FileTree.find, horder, hrelative, FileTree.walk, hnames, hstep]

/-- A link for a sidecar is followed in the current directory. -/
theorem find_badge {tree : FileTree}
    (h : tree.step (some []) "badge.html" = .ok (.through "shared.html")) :
    tree.find "./badge.html" = tree.walk 39 (some []) ["shared.html"] := by
  have hnames : FileTree.names "./badge.html" = [".", "badge.html"] := by decide
  have htarget : FileTree.names "shared.html" = ["shared.html"] := by decide
  have horder : ReadError.ofPath? "./badge.html" = none := by decide
  have hrelative : Path.isRelative "./badge.html" = true ∧ Path.isRelative "shared.html" = true := by
    decide
  have hstep : tree.step (some []) "." = .ok (.arrived (some [])) := rfl
  simp [FileTree.find, horder, hrelative, FileTree.walk, hnames, hstep, h, htarget,
    FileTree.linkLimit]

/-- The sidecar is read as long as the link leads to something. -/
theorem read_badge : linkedTree.read "./badge.html" = .ok .empty ∧
    fullerTree.read "./badge.html" = .ok .empty ∧
    danglingTree.read "./badge.html" = .error .notFound := by
  have hthere : ∀ tree : FileTree,
      tree.step (some []) "badge.html" = .ok (.through "shared.html") →
      tree.step (some []) "shared.html" = .ok (.arrived (some ["shared.html"])) →
      tree.entry? ["shared.html"] = some (.file .empty) →
      tree.read "./badge.html" = .ok .empty := by
    intro tree hlink hshared hentry
    rw [FileTree.read, find_badge hlink, FileTree.walk, hshared]
    simp only [FileTree.walk, bind, Except.bind, Option.bind_some, hentry]
  have hlost : danglingTree.step (some []) "shared.html" = .error .notFound := by rfl
  refine ⟨hthere _ rfl rfl rfl, hthere _ rfl rfl rfl, ?_⟩
  rw [FileTree.read, find_badge rfl, FileTree.walk, hlost]
  rfl

/-- The text of the sidecar is empty. -/
theorem readText_linkedTree : linkedTree.files.readText "./badge.html" = .ok "" := by
  rw [Files.readText, show linkedTree.files.read "./badge.html" = .ok .empty from read_badge.1]
  rfl

/-- The trees have one entry for a place, and names that an entry can have. -/
theorem wellFormed_linkedTree :
    linkedTree.WellFormed ∧ fullerTree.WellFormed ∧ danglingTree.WellFormed := by
  have hlinked : linkedTree.WellFormed := ⟨by decide, by unfold Path.IsName; decide⟩
  have hkept : danglingTree.entries.Sublist linkedTree.entries := List.filter_sublist
  exact ⟨hlinked, ⟨by decide, by unfold Path.IsName; decide⟩,
    hlinked.distinct.sublist (hkept.map _),
    fun entry hentry => hlinked.named entry (hkept.mem hentry)⟩

/-- The entries of the directory. -/
def linkedEntries : List Listed :=
  [⟨"badge.rs", false⟩, ⟨"badge.html", false⟩, ⟨"shared.html", false⟩]

/-- The directory is listed. -/
theorem list_linkedTree : linkedTree.list "." = .ok linkedEntries := by
  rw [FileTree.list, find_point]
  rfl

/-- The link is the only entry that is considered. -/
theorem considered_badge {entries : List Listed} (hnodup : (entries.map Listed.name).Nodup)
    (h : (entries.filter fun e => !e.isDir && Sidecar.isCandidate "badge" "badge.rs" e.name).map
      Listed.name = ["badge.html"]) :
    Sidecar.Considered "badge" "badge.rs" entries ["badge.html"] := by
  have hnames := Sidecar.considered_choose "badge" "badge.rs" hnodup
  rwa [Sidecar.choose, h, List.mergeSort_singleton] at hnames

/-- The sidecar is read through the link, and a further file makes no difference to that. -/
theorem sidecar_is_selected_by_entries_through_link :
    Sidecar.locate {} linkedTree.files "Badge" "badge.rs" =
      .ok ⟨.file "./badge.html", "html", ""⟩ ∧
    Sidecar.locate {} linkedTree.files "Badge" "badge.rs" =
      Sidecar.locate {} fullerTree.files "Badge" "badge.rs" := by
  obtain ⟨hwf, hwf', -⟩ := wellFormed_linkedTree
  obtain ⟨hread, hread', -⟩ := read_badge
  have hown : Path.fileName? "badge.rs" = some "badge.rs" := by decide
  have hdir : Sidecar.directory (Sidecar.resolve {} "badge.rs") = "." := by decide
  obtain ⟨hselect, hsame⟩ := sidecar_is_selected_by_entries {} "Badge" hown hdir
  have hbadge : Sidecar.Considered "badge" "badge.rs" linkedEntries ["badge.html"] :=
    considered_badge (by decide) (by decide)
  constructor
  · obtain ⟨names, hnames, hlocate⟩ := hselect linkedTree.files linkedEntries list_linkedTree
      (by decide) (by unfold Path.IsName; decide)
    obtain rfl : names = ["badge.html"] := hnames.unique hbadge
    exact (hlocate.only "badge" "html" rfl (by decide)).1 "" readText_linkedTree
  · refine hsame linkedTree fullerTree [] linkedEntries hwf hwf' list_linkedTree (find_point _)
      (find_point _) ?_ ?_
    · intro entry hbegins
      refine ⟨List.mem_append_left _, fun hentry => (List.mem_append.1 hentry).resolve_right ?_⟩
      intro hmore
      have hplace : entry.1 = [] ++ "badges.html" :: [] :=
        congrArg Prod.fst (List.mem_singleton.1 hmore)
      exact absurd (hbegins "badges.html" [] hplace) (by decide)
    · intro name target hname hlink
      obtain rfl : name = "badge.html" := List.singleton_inj.1 (hname.unique hbadge)
      exact hread.trans hread'.symm

/-- What a link leads to can be taken away, and the sidecar cannot be read any more, although the name of
what is gone does not begin with the stem of the source file. -/
theorem sidecar_is_lost_behind_link :
    ¬ ∀ (settings : Settings) (component anchor own dir : String) (tree other : FileTree)
      (here : List String) (entries : List Listed), Path.fileName? anchor = some own →
      Sidecar.directory (Sidecar.resolve settings anchor) = dir → tree.WellFormed → other.WellFormed →
      tree.list dir = .ok entries → tree.find dir = .ok (some here) → other.find dir = .ok (some here) →
      tree.AgreesBeside other here ((Path.divide own).1.toList ++ ['.']) →
      Sidecar.locate settings tree.files component anchor =
        Sidecar.locate settings other.files component anchor := by
  intro h
  obtain ⟨hwf, -, hwf'⟩ := wellFormed_linkedTree
  obtain ⟨-, -, hread'⟩ := read_badge
  have hown : Path.fileName? "badge.rs" = some "badge.rs" := by decide
  have hagree : linkedTree.AgreesBeside danglingTree [] ['b', 'a', 'd', 'g', 'e', '.'] := by
    intro entry hbegins
    refine ⟨fun hentry => List.mem_filter.2 ⟨hentry, ?_⟩, List.mem_of_mem_filter⟩
    cases hshared : ["shared.html"].isPrefixOf entry.1 with
    | false => simp [hshared]
    | true =>
      obtain ⟨rest, hrest⟩ := List.isPrefixOf_iff_prefix.1 hshared
      exact absurd (hbegins "shared.html" rest hrest.symm) (by decide)
  have hlist' : danglingTree.list "." = .ok [⟨"badge.rs", false⟩, ⟨"badge.html", false⟩] := by
    rw [FileTree.list, find_point]
    rfl
  have hsame := h {} "Badge" "badge.rs" "badge.rs" "." linkedTree danglingTree [] _ hown (by decide)
    hwf hwf' list_linkedTree (find_point _) (find_point _) hagree
  have hlocate : Sidecar.locate {} linkedTree.files "Badge" "badge.rs" =
      Source.read linkedTree.files "./badge.html" :=
    Sidecar.locate_eq _ hown list_linkedTree (by decide) (considered_badge (by decide) (by decide))
  have hlocate' : Sidecar.locate {} danglingTree.files "Badge" "badge.rs" =
      Source.read danglingTree.files "./badge.html" :=
    Sidecar.locate_eq _ hown hlist' (by decide) (considered_badge (by decide) (by decide))
  have hkind : Path.extension? "./badge.html" = some "html" := by decide
  have htext' : danglingTree.files.readText "./badge.html" = .error .notFound := by
    rw [Files.readText, show danglingTree.files.read "./badge.html" = .error .notFound from hread']
    rfl
  rw [hlocate, hlocate', Source.read, Source.read, hkind] at hsame
  simp only [readText_linkedTree, htext'] at hsame
  cases hsame

end Stencil
