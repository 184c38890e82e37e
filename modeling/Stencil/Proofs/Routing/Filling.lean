import Stencil.Route
import Stencil.Proofs.Files.Paths
import Stencil.Proofs.Routing.Percent

/-!
# Filling a route

The URL of a route has the segments of the pattern in their places, but for those that stand for a
parameter; from each of these the text of its parameter can be read back. Main statement:
`urls_are_exact`, by which no parameter adds a segment or hides one, and parameters with other texts
make another URL.
-/

namespace Stencil.Routes

open Text

/-- Whether a segment of a pattern stands for a parameter. -/
def isPlaceholder (s : List Char) : Bool := s.head? = some ':'

/-- What a parameter says: a string says itself, and any other value its JSON text. -/
inductive IsText : Value → String → Prop where
  | string (s : String) : IsText (.str s) s
  | json {v : Value} (hv : ∀ s, v ≠ .str s) : IsText v v.json

/-- The two parameters say the same. -/
def SameText (v w : Value) : Prop := ∃ t, IsText v t ∧ IsText w t

/-- What the parameter says is read back from the segment. -/
def Carries (segment : List Char) (v : Value) : Prop :=
  ∃ t, IsText v t ∧ percentDecode? segment = some t

/-- The parameters, taken in order, fill the places of the segments that stand for one. -/
inductive Fills : List (List Char) → List Value → List (List Char) → Prop where
  | nil : Fills [] [] []
  | param {s : List Char} {segments filled : List (List Char)} {v : Value} {vs : List Value}
      (hs : isPlaceholder s = true) (h : Fills segments vs filled) :
      Fills (s :: segments) (v :: vs) (paramSegment v :: filled)
  | fixed {s : List Char} {segments filled : List (List Char)} {vs : List Value}
      (hs : isPlaceholder s = false) (h : Fills segments vs filled) :
      Fills (s :: segments) vs (s :: filled)

variable {s : List Char} {segments filled places : List (List Char)} {v w : Value} {t : String}
  {params others : List Value}

/-! ### Texts of parameters -/

/-- The text with which a segment is filled is what the parameter says. -/
theorem isText_iff : IsText v t ↔ paramText v = t := by
  have hother : (∀ s, v ≠ .str s) → paramText v = v.json := by
    intro hv
    rw [paramText]
    exact hv
  constructor
  · intro h
    cases h with
    | string s => rfl
    | json hv => exact hother hv
  · rintro rfl
    by_cases hv : ∃ s, v = .str s
    · obtain ⟨s, rfl⟩ := hv
      exact .string s
    · rw [not_exists] at hv
      rw [hother hv]
      exact .json hv

/-- Two parameters say the same exactly if they fill a segment with the same text. -/
theorem sameText_iff : SameText v w ↔ paramText v = paramText w := by
  simp only [SameText, isText_iff]
  exact ⟨fun ⟨t, hv, hw⟩ => hv.trans hw.symm, fun h => ⟨_, h, rfl⟩⟩

/-- What a parameter says is read back from the segment that it fills. -/
theorem carries_paramSegment (v : Value) : Carries (paramSegment v) v :=
  ⟨paramText v, isText_iff.2 rfl, percentDecode_percentEncode (paramText v)⟩

/-- Parameters that are read back from the same segments say the same, one by one. -/
theorem forall₂_sameText_of_carries (h : List.Forall₂ Carries places params)
    (ho : List.Forall₂ Carries places others) : List.Forall₂ SameText others params := by
  induction h generalizing others with
  | nil =>
    cases ho
    exact .nil
  | cons hv _ ih =>
    obtain ⟨t, htext, hread⟩ := hv
    cases ho with
    | cons hw hrest =>
      obtain ⟨u, hother, hagain⟩ := hw
      obtain rfl : t = u := Option.some.inj (hread.symm.trans hagain)
      exact .cons ⟨t, hother, htext⟩ (ih hrest)

/-! ### Filling segments -/

/-- A segment that stands for a parameter takes the first one. -/
theorem fill_param (hs : isPlaceholder s = true) (segments : List (List Char)) (v : Value)
    (params : List Value) :
    fill (s :: segments) (v :: params) = (fill segments params).map (paramSegment v :: ·) := by
  obtain ⟨rest, rfl⟩ := List.head?_eq_some_iff.1 (by simpa [isPlaceholder] using hs)
  rfl

/-- A segment that stands for a parameter needs one. -/
theorem fill_param_nil (hs : isPlaceholder s = true) (segments : List (List Char)) :
    fill (s :: segments) [] = none := by
  obtain ⟨rest, rfl⟩ := List.head?_eq_some_iff.1 (by simpa [isPlaceholder] using hs)
  rfl

/-- Any other segment stays as it is. -/
theorem fill_fixed (hs : isPlaceholder s = false) (segments : List (List Char))
    (params : List Value) :
    fill (s :: segments) params = (fill segments params).map (s :: ·) := by
  have hne : ∀ rest, s ≠ ':' :: rest := by
    rintro rest rfl
    cases hs
  rw [fill.eq_def]
  split <;> simp_all

/-- What is filled is told by the places, one by one. -/
theorem fill_eq_some_iff : fill segments params = some filled ↔ Fills segments params filled := by
  constructor
  · intro h
    induction segments generalizing params filled with
    | nil =>
      cases params with
      | nil =>
        cases h
        exact .nil
      | cons v params => cases h
    | cons s segments ih =>
      cases hs : isPlaceholder s with
      | true =>
        cases params with
        | nil => cases (fill_param_nil hs segments).symm.trans h
        | cons v params =>
          rw [fill_param hs] at h
          obtain ⟨rest, hrest, rfl⟩ := Option.map_eq_some_iff.1 h
          exact .param hs (ih hrest)
      | false =>
        rw [fill_fixed hs] at h
        obtain ⟨rest, hrest, rfl⟩ := Option.map_eq_some_iff.1 h
        exact .fixed hs (ih hrest)
  · intro h
    induction h with
    | nil => rfl
    | param hs _ ih => rw [fill_param hs, ih, Option.map_some]
    | fixed hs _ ih => rw [fill_fixed hs, ih, Option.map_some]

/-- Segments can be filled with as many parameters as there are places for them, and with no other
number. -/
theorem exists_fills_iff :
    (∃ filled, Fills segments params filled) ↔
      (segments.filter isPlaceholder).length = params.length := by
  constructor
  · rintro ⟨filled, h⟩
    induction h with
    | nil => rfl
    | param hs _ ih => rw [List.filter_cons_of_pos hs, List.length_cons, ih, List.length_cons]
    | fixed hs _ ih => rw [List.filter_cons_of_neg (by simp [hs]), ih]
  · intro h
    induction segments generalizing params with
    | nil =>
      obtain rfl := List.length_eq_zero_iff.1 h.symm
      exact ⟨[], .nil⟩
    | cons s segments ih =>
      cases hs : isPlaceholder s with
      | true =>
        rw [List.filter_cons_of_pos hs, List.length_cons] at h
        cases params with
        | nil => cases h
        | cons v params =>
          obtain ⟨filled, hfilled⟩ := ih (Nat.succ.inj h)
          exact ⟨_, .param hs hfilled⟩
      | false =>
        rw [List.filter_cons_of_neg (by simp [hs])] at h
        obtain ⟨filled, hfilled⟩ := ih h
        exact ⟨_, .fixed hs hfilled⟩

/-! ### What the filled segments are -/

/-- There are as many segments as before. -/
theorem Fills.length_eq (h : Fills segments params filled) : filled.length = segments.length := by
  induction h with
  | nil => rfl
  | param _ _ ih | fixed _ _ ih => rw [List.length_cons, ih, List.length_cons]

/-- A segment that stands for no parameter is unchanged, and one that stands for a parameter is made
of characters that mean nothing in a URL. -/
theorem Fills.of_mem_zip (h : Fills segments params filled) :
    ∀ p ∈ segments.zip filled, (isPlaceholder p.1 = false → p.2 = p.1) ∧
      (isPlaceholder p.1 = true → ∀ c ∈ p.2, IsSegmentChar c) := by
  induction h with
  | nil => simp
  | @param s _ _ v _ hs _ ih =>
    rw [List.zip_cons_cons, List.forall_mem_cons]
    refine ⟨⟨fun hfixed => ?_, fun _ => isSegmentChar_percentEncode (paramText v)⟩, ih⟩
    cases hs.symm.trans hfixed
  | fixed hs _ ih =>
    rw [List.zip_cons_cons, List.forall_mem_cons]
    refine ⟨⟨fun _ => rfl, fun hparam => ?_⟩, ih⟩
    cases hs.symm.trans hparam

/-- From the segments that stand for a parameter is read back what the parameters say. -/
theorem Fills.decoded (h : Fills segments params filled) :
    List.Forall₂ Carries
      (((segments.zip filled).filter (isPlaceholder ·.1)).map Prod.snd) params := by
  induction h with
  | nil => exact .nil
  | @param _ _ _ v _ hs _ ih =>
    rw [List.zip_cons_cons, List.filter_cons_of_pos (by simpa using hs), List.map_cons]
    exact .cons (carries_paramSegment v) ih
  | fixed hs _ ih =>
    rw [List.zip_cons_cons, List.filter_cons_of_neg (by simp [hs])]
    exact ih

/-- No slash is in a filled segment if none was in the segments. -/
theorem Fills.slash_not_mem (h : Fills segments params filled) (hs : ∀ p ∈ segments, '/' ∉ p) :
    ∀ p ∈ filled, '/' ∉ p := by
  induction h with
  | nil => simp
  | @param _ _ _ v _ _ _ ih =>
    rw [List.forall_mem_cons] at hs ⊢
    refine ⟨fun hslash => ?_, ih hs.2⟩
    exact (isSegmentChar_percentEncode (paramText v) _ hslash).2.2 (by decide)
  | fixed _ _ ih =>
    rw [List.forall_mem_cons] at hs ⊢
    exact ⟨hs.1, ih hs.2⟩

/-- Parameters that say the same fill segments alike. -/
theorem Fills.of_sameText (h : Fills segments params filled)
    (hsame : List.Forall₂ SameText others params) : Fills segments others filled := by
  induction h generalizing others with
  | nil =>
    cases hsame
    exact .nil
  | @param _ _ _ v _ hs _ ih =>
    cases hsame with
    | @cons w _ _ _ hw hrest =>
      have hsegment : paramSegment w = paramSegment v := by
        rw [paramSegment, sameText_iff.1 hw, paramSegment]
      rw [← hsegment]
      exact .param hs (ih hrest)
  | fixed hs _ ih => exact .fixed hs (ih hsame)

/-! ### URLs -/

/-- A URL has the segments of a pattern with parameters in their places. -/
structure IsFilled (pattern : String) (params : List Value) (url : String) : Prop where
  /-- The URL has as many segments as the pattern. -/
  length_eq : (slashParts url.toList).length = (slashParts pattern.toList).length
  /-- A segment that stands for no parameter is unchanged, in its place. -/
  fixed : ∀ p ∈ (slashParts pattern.toList).zip (slashParts url.toList),
    isPlaceholder p.1 = false → p.2 = p.1
  /-- In the place of a parameter there are only printable characters of ASCII that are not reserved. -/
  clean : ∀ p ∈ (slashParts pattern.toList).zip (slashParts url.toList),
    isPlaceholder p.1 = true → ∀ c ∈ p.2, IsSegmentChar c
  /-- What the parameters say is read back from their places, in their order. -/
  decoded : List.Forall₂ Carries
    ((((slashParts pattern.toList).zip (slashParts url.toList)).filter (isPlaceholder ·.1)).map
      Prod.snd) params

/-- The URL of a route is its pattern, filled. -/
theorem urlFor_eq_some_iff {routes : Routes} {name url : String} :
    routes.urlFor name params = some url ↔
      ∃ pattern filled, routes.patterns.lookup name = some pattern ∧
        Fills (slashParts pattern.toList) params filled ∧
        url = String.ofList (joinSlashes filled) := by
  simp only [urlFor, Option.bind_eq_bind, Option.bind_eq_some_iff, fill_eq_some_iff,
    Option.pure_def, Option.some.injEq]
  grind

/-- The parts of a filled pattern are what it was filled with. -/
theorem Fills.slashParts_eq {pattern : String} (h : Fills (slashParts pattern.toList) params filled) :
    slashParts (String.ofList (joinSlashes filled)).toList = filled := by
  have hne : filled ≠ [] := by
    have hlength := List.length_pos_iff.2 (slashParts_ne_nil pattern.toList)
    rw [← h.length_eq] at hlength
    exact List.length_pos_iff.1 hlength
  rw [String.toList_ofList]
  exact slashParts_joinSlashes hne (h.slash_not_mem fun p => not_mem_of_mem_slashParts)

/-- A filled pattern is a URL with the segments of the pattern and the parameters in their places. -/
theorem Fills.isFilled {pattern : String} (h : Fills (slashParts pattern.toList) params filled) :
    IsFilled pattern params (String.ofList (joinSlashes filled)) := by
  refine ⟨?_, ?_, ?_, ?_⟩
  all_goals rw [h.slashParts_eq]
  · exact h.length_eq
  · exact fun p hp => (h.of_mem_zip p hp).1
  · exact fun p hp => (h.of_mem_zip p hp).2
  · exact h.decoded

/-- A route has a URL exactly if it is in the table and as many parameters are given as segments of its
pattern begin with a colon. The URL has the segments of the pattern in their places, those that stand
for a parameter are made of characters that mean nothing in a URL, and what the parameters say is read
back from them: a string says itself, any other value its JSON text. So parameters make the same URL if
and only if they say the same, one by one. -/
theorem urls_are_exact (routes : Routes) (name : String) (params : List Value) :
    ((∃ url, routes.urlFor name params = some url) ↔
      ∃ pattern, routes.patterns.lookup name = some pattern ∧
        ((slashParts pattern.toList).filter isPlaceholder).length = params.length) ∧
    ∀ pattern url, routes.patterns.lookup name = some pattern →
      routes.urlFor name params = some url →
        IsFilled pattern params url ∧
        ∀ others, routes.urlFor name others = some url ↔ List.Forall₂ SameText others params := by
  constructor
  · simp only [urlFor_eq_some_iff]
    constructor
    · rintro ⟨url, pattern, filled, hpattern, hfills, -⟩
      exact ⟨pattern, hpattern, exists_fills_iff.1 ⟨filled, hfills⟩⟩
    · rintro ⟨pattern, hpattern, hlength⟩
      obtain ⟨filled, hfills⟩ := exists_fills_iff.2 hlength
      exact ⟨_, pattern, filled, hpattern, hfills, rfl⟩
  · intro pattern url hpattern hurl
    obtain ⟨found, filled, hfound, hfills, rfl⟩ := urlFor_eq_some_iff.1 hurl
    cases hpattern.symm.trans hfound
    refine ⟨hfills.isFilled, fun others => ⟨fun hother => ?_, fun hsame => ?_⟩⟩
    · obtain ⟨again, filled', hagain, hfills', hurl⟩ := urlFor_eq_some_iff.1 hother
      cases hpattern.symm.trans hagain
      -- The parts of the URL are what either list of parameters fills the pattern with.
      have hparts := hfills.slashParts_eq
      rw [hurl, hfills'.slashParts_eq] at hparts
      rw [hparts] at hfills'
      exact forall₂_sameText_of_carries hfills.decoded hfills'.decoded
    · exact urlFor_eq_some_iff.2
        ⟨pattern, filled, hpattern, hfills.of_sameText hsame, rfl⟩

/-- A table with one route, which takes two parameters. -/
def searchRoutes : Routes := ⟨[("search", "/find/:what/in/:where")]⟩

/-- A list of values of all kinds but for doubles, with a text in it for which all escapes are needed. -/
def searchPlaces : Value :=
  .arr [.int (-7), .bool true, .null, .str "\"\\\n\t\r\x08\x0c\x1fé",
    .obj [("k", .arr []), ("l", .bool false)]]

/-- The JSON text of that list. -/
def searchText : String :=
  "[-7,true,null,\"\\\"\\\\\\n\\t\\r\\b\\f\\u001fé\",\x7b\"k\":[],\"l\":false\x7d]"

/-- The URL with that list in it, behind a string with a slash. -/
def searchUrl : String :=
  "/find/a%2Fb/in/[-7,true,null,%22\\%22\\\\\\n\\t\\r\\b\\f\\u001f%C3%A9%22,%7B%22k%22:[],%22l%22:false%7D]"

/-- This is the URL that is made of the string and the list. -/
theorem urlFor_searchRoutes :
    searchRoutes.urlFor "search" [.str "a/b", searchPlaces] = some searchUrl := by
  have hparts : slashParts "/find/:what/in/:where".toList =
      [[], "find".toList, ":what".toList, "in".toList, ":where".toList] := by
    decide +kernel
  have hfills : Fills (slashParts "/find/:what/in/:where".toList) [.str "a/b", searchPlaces]
      [[], "find".toList, paramSegment (.str "a/b"), "in".toList, paramSegment searchPlaces] := by
    rw [hparts]
    exact .fixed rfl (.fixed rfl (.param rfl (.fixed rfl (.param rfl .nil))))
  refine urlFor_eq_some_iff.2 ⟨_, _, rfl, hfills, ?_⟩
  rw [paramSegment, paramSegment, toList_percentEncode, toList_percentEncode]
  decide +kernel

/-- In the URL of a route a string stands as it is, but for its slash, and a list stands as its JSON
text. The string that is this text makes the same URL, and a string that lacks a part makes another. -/
theorem urls_are_exact_of_string_and_list :
    searchRoutes.urlFor "search" [.str "a/b", searchPlaces] = some searchUrl ∧
      IsFilled "/find/:what/in/:where" [.str "a/b", searchPlaces] searchUrl ∧
      searchRoutes.urlFor "search" [.str "a/b", .str searchText] = some searchUrl ∧
      searchRoutes.urlFor "search" [.str "a", searchPlaces] ≠ some searchUrl := by
  obtain ⟨-, hexact⟩ := urls_are_exact searchRoutes "search" [.str "a/b", searchPlaces]
  obtain ⟨hfilled, hothers⟩ := hexact "/find/:what/in/:where" searchUrl rfl urlFor_searchRoutes
  have htext : IsText searchPlaces searchText := isText_iff.2 (by decide +kernel)
  refine ⟨urlFor_searchRoutes, hfilled, ?_, ?_⟩
  · rw [hothers]
    exact .cons ⟨"a/b", .string _, .string _⟩ (.cons ⟨searchText, .string _, htext⟩ .nil)
  · rw [Ne, hothers]
    rintro (_ | ⟨hsame, -⟩)
    exact absurd (sameText_iff.1 hsame) (by decide)

end Stencil.Routes
