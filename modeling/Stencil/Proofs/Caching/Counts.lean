import Stencil.Proofs.Values.Named
import Stencil.Proofs.Views.Stages

/-!
# What a cache counts

Whatever is done with a renderer, its cache is what the events of that make of an empty one
(`passes_exec`), so that all that is said of caches here is said of events, one after another. Main
statement: `compilations_are_misses`, on the number of compilations, on the states of components, and
on the numbers of components in each state. It rests on `compilations_after`, by which each request
that finds nothing is one compilation, and on `countP_missed_le_one`, by which that happens to a
component at most once as long as nothing drops its result.
-/

namespace Stencil

/-! ### Caches by their events -/

/-- What an event makes of a cache. -/
def Event.apply (r : Renderer) (cache : Cache) : Event → Cache
  | .ensured c files _ => (r.ensure files c cache).2
  | .reloaded c => (cache.reload c).2
  | .cleared => cache.clear

/-- What an event tells of the answer to a request is what the cache answers. -/
def Event.Met (r : Renderer) (cache : Cache) : Event → Prop
  | .ensured c files result => result = (r.ensure files c cache).1
  | .reloaded _ | .cleared => True

/-- The component that an event requests while nothing is kept for it. -/
def Event.missed? (cache : Cache) : Event → Option Component
  | .ensured c _ _ => if cache.find? c = none then some c else none
  | .reloaded _ | .cleared => none

namespace Cache

/-- What some events make of a cache, one after another. -/
def after (r : Renderer) (cache : Cache) (history : List Event) : Cache :=
  history.foldl (Event.apply r) cache

/-- The components that are requested while nothing is kept for them, in the order of the requests. -/
def missed (r : Renderer) (cache : Cache) : List Event → List Component
  | [] => []
  | e :: rest => (e.missed? cache).toList ++ missed r (e.apply r cache) rest

/-- A cache passes through events and becomes another one, and each request meets it as it is then. -/
inductive Passes (r : Renderer) : Cache → List Event → Cache → Prop
  | nil {cache : Cache} : Passes r cache [] cache
  | cons {cache other : Cache} {e : Event} {rest : List Event} :
      e.Met r cache → Passes r (e.apply r cache) rest other → Passes r cache (e :: rest) other

end Cache

section After

variable {r : Renderer} {cache middle other : Cache} {before rest : List Event}

/-- A cache that has passed through events is what they make of it. -/
theorem Cache.Passes.eq_after (h : cache.Passes r before other) : other = cache.after r before := by
  induction h with
  | nil => rfl
  | cons _ _ ih => exact ih

/-- A cache passes through events part by part. -/
theorem Cache.Passes.append (h : cache.Passes r before middle) (hrest : middle.Passes r rest other) :
    cache.Passes r (before ++ rest) other := by
  induction h with
  | nil => exact hrest
  | cons hmet _ ih => exact .cons hmet (ih hrest)

/-- Each request that finds nothing is a compilation, and nothing else is. -/
theorem compilations_apply (e : Event) :
    (e.apply r cache).compilations = cache.compilations + (e.missed? cache).toList.length := by
  cases e with
  | ensured c files result =>
    rw [Event.apply, Renderer.ensure, Cache.ensure, Event.missed?]
    cases cache.find? c with
    | some kept => rfl
    | none => rfl
  | reloaded c => rfl
  | cleared => rfl

/-- There are as many more compilations after some events as requests among them found nothing. -/
theorem compilations_after (history : List Event) :
    (cache.after r history).compilations =
      cache.compilations + (cache.missed r history).length := by
  induction history generalizing cache with
  | nil => rfl
  | cons e rest ih =>
    have hrest : ((e.apply r cache).after r rest).compilations = _ := ih
    rw [Cache.after, List.foldl_cons, ← Cache.after, hrest, compilations_apply, Cache.missed,
      List.length_append, Nat.add_assoc]

/-- What events make of a cache they make of it part by part. -/
theorem after_append (before rest : List Event) :
    cache.after r (before ++ rest) = (cache.after r before).after r rest :=
  List.foldl_append

end After

/-- The events of the block of a render, which is run only if there is a routine. -/
def View.blockEvents (r : Renderer) (i : Instance) (b : Option Block) (v : View) (s : Session) :
    List Event :=
  match (s.ensure r i.component).1 with
  | .ok _ => View.contentEvents r i b v s
  | .error _ => []

/-- The events of a render: its component is requested, and then its block is run. -/
def View.renderEvents (r : Renderer) (i : Instance) (b : Option Block) (v : View) (s : Session) :
    List Event :=
  .ensured i.component s.files (s.ensure r i.component).1 :: View.blockEvents r i b v s

section Events

variable {r : Renderer}

/-- Without a block there are no events of one. -/
theorem blockEvents_none (i : Instance) (v : View) (s : Session) :
    View.blockEvents r i none v s = [] := by
  rw [View.blockEvents]
  cases (s.ensure r i.component).1 with
  | error f => rfl
  | ok compiled => rfl

/-- A render takes the cache through its events, if its block does so. -/
theorem passes_render_of_block {b : Option Block} (i : Instance) (v : View) (s : Session)
    (hb : ∀ x ∈ b, ∀ v (s : Session), s.cache.Passes r (x.events r v s) (x.exec r v s).2.2.cache) :
    s.cache.Passes r (View.renderEvents r i b v s) (View.render r i b v s).2.2.cache := by
  refine .cons rfl ?_
  rw [View.blockEvents]
  cases h : (s.ensure r i.component).1 with
  | error f =>
    rw [render_of_ensure_error h]
    exact .nil
  | ok compiled =>
    rw [render_of_ensure_ok h]
    cases b with
    | none => exact .nil
    | some x => exact hb x rfl { v with output := {} } (s.ensure r i.component).2

/-- A block takes the cache through its events. -/
theorem passes_exec (b : Block) (v : View) (s : Session) :
    s.cache.Passes r (b.events r v s) (b.exec r v s).2.2.cache := by
  induction b generalizing v s with
  | done => exact .nil
  | fail f => exact .nil
  | text written next ih => exact ih _ _
  | markup m next ih => exact ih _ _
  | url name params next ih => exact ih _ _ _
  | change files next ih => exact ih _ { s with files }
  | ensure c next ih => exact .cons rfl (ih _ v (s.ensure r c).2)
  | reload c next ih => exact .cons trivial (ih _ v (s.reload c).2)
  | clear next ih => exact .cons trivial (ih v s.clear)
  | source template attributes content next ih => exact ih _ _ _
  | render i next ih =>
    have hrender := passes_render_of_block (r := r) i v s (b := none) (by simp)
    rw [View.renderEvents, blockEvents_none] at hrender
    exact hrender.append (ih _ _ _)
  | renderWith i content next ihc ih =>
    have hrender := passes_render_of_block (r := r) i v s (b := some content) (by simpa using ihc)
    exact hrender.append (ih _ _ _)
  | capture content next ihc ih => exact (ihc _ _).append (ih _ _ _)

/-- A render takes the cache through its events. -/
theorem passes_render (i : Instance) (b : Option Block) (v : View) (s : Session) :
    s.cache.Passes r (View.renderEvents r i b v s) (View.render r i b v s).2.2.cache :=
  passes_render_of_block i v s fun x _ => passes_exec x

end Events

/-! ### Requests that find nothing -/

section Missed

variable {r : Renderer} {cache : Cache} {n : Nat} {result : Except Failure Compiled}

/-- What is kept stays so when an event does not drop it. -/
theorem lookup_apply {e : Event} (h : cache.results.lookup n = some result) (he : ¬ e.Drops n) :
    (e.apply r cache).results.lookup n = some result := by
  cases e with
  | ensured c files _ => exact kept_ensure (s := { files, cache }) c h
  | reloaded c => exact (lookup_filter_other cache.results (Ne.symm he)).trans h
  | cleared => exact absurd trivial he

/-- A component that is missed had no result, and has one from then on. -/
theorem kept_of_missed? {e : Event} {c : Component} (h : e.missed? cache = some c) :
    cache.results.lookup c.identity = none ∧
      ∃ result, (e.apply r cache).results.lookup c.identity = some result := by
  cases e with
  | ensured d files answer =>
    rw [Event.missed?] at h
    split at h
    · rename_i hnone
      cases h
      exact ⟨hnone, _, find?_ensure r c { files, cache }⟩
    · cases h
  | reloaded d => cases h
  | cleared => cases h

/-- The first event misses a component or none, and then the rest does. -/
theorem missed_cons_cases (r : Renderer) (cache : Cache) (e : Event) (rest : List Event) :
    cache.missed r (e :: rest) = (e.apply r cache).missed r rest ∨
      ∃ c, e.missed? cache = some c ∧
        cache.missed r (e :: rest) = c :: (e.apply r cache).missed r rest := by
  rw [Cache.missed]
  cases e.missed? cache with
  | none => exact .inl rfl
  | some c => exact .inr ⟨c, rfl, rfl⟩

/-- A component is not missed while a result for it is kept. -/
theorem countP_missed_of_kept {history : List Event} (h : cache.results.lookup n = some result)
    (hn : ∀ e ∈ history, ¬ e.Drops n) :
    (cache.missed r history).countP (·.identity = n) = 0 := by
  induction history generalizing cache with
  | nil => rfl
  | cons e rest ih =>
    rw [List.forall_mem_cons] at hn
    have hrest := ih (lookup_apply (r := r) h hn.1) hn.2
    rcases missed_cons_cases r cache e rest with heq | ⟨c, hc, heq⟩
    · rw [heq, hrest]
    · have hne : c.identity ≠ n := by
        rintro rfl
        have hnone := (kept_of_missed? (r := r) hc).1
        rw [h] at hnone
        cases hnone
      rw [heq, List.countP_cons_of_neg (by simpa using hne), hrest]

/-- A component is missed at most once while nothing drops its result. -/
theorem countP_missed_le_one {history : List Event} (hn : ∀ e ∈ history, ¬ e.Drops n) :
    (cache.missed r history).countP (·.identity = n) ≤ 1 := by
  induction history generalizing cache with
  | nil => exact Nat.zero_le 1
  | cons e rest ih =>
    rw [List.forall_mem_cons] at hn
    rcases missed_cons_cases r cache e rest with heq | ⟨c, hc, heq⟩
    · rw [heq]
      exact ih hn.2
    · by_cases hid : c.identity = n
      · -- Once it has been missed its result is kept.
        subst hid
        obtain ⟨-, result, hkept⟩ := kept_of_missed? (r := r) hc
        rw [heq, List.countP_cons_of_pos (by simp), countP_missed_of_kept hkept hn.2]
      · rw [heq, List.countP_cons_of_neg (by simpa using hid)]
        exact ih hn.2

end Missed

/-! ### States of components -/

/-- No two results are kept for the same component. -/
def Cache.Distinct (cache : Cache) : Prop := (cache.results.map (·.1)).Nodup

/-- There are exactly `n` types of components that are so. -/
def NumberOfTypes (p : Component → Prop) (n : Nat) : Prop :=
  ∃ identities : List Nat,
    identities.Nodup ∧ identities.length = n ∧ ∀ c, p c ↔ c.identity ∈ identities

section States

variable {r : Renderer} {cache : Cache} {c : Component}

/-- Each event keeps at most one result for a component. -/
theorem Cache.Distinct.apply (h : cache.Distinct) (e : Event) : (e.apply r cache).Distinct := by
  cases e with
  | ensured c files result =>
    rw [Event.apply, Renderer.ensure, Cache.ensure]
    cases hc : cache.find? c with
    | some kept => exact h
    | none =>
      have hnew : c.identity ∉ cache.results.map (·.1) := lookup_eq_none_iff_not_mem.1 hc
      exact List.nodup_cons.2 ⟨hnew, h⟩
  | reloaded c => exact h.sublist (List.filter_sublist.map _)
  | cleared => exact .nil

/-- Whatever the events, at most one result is kept for a component. -/
theorem Cache.Distinct.after (h : cache.Distinct) (history : List Event) :
    (cache.after r history).Distinct := by
  induction history generalizing cache with
  | nil => exact h
  | cons e rest ih => exact ih (h.apply e)

/-- There are as many types of components for which such a result is kept as there are such results. -/
theorem Cache.Distinct.numberOfTypes (h : cache.Distinct) (q : Except Failure Compiled → Bool) :
    NumberOfTypes (fun c => ∃ x, cache.find? c = some x ∧ q x = true)
      (cache.results.countP fun p => q p.2) := by
  have hnodup : (cache.results.map (·.1)).Nodup := h
  refine ⟨(cache.results.filter fun p => q p.2).map (·.1), ?_, ?_, ?_⟩
  · exact hnodup.sublist (List.filter_sublist.map _)
  · rw [List.length_map, List.countP_eq_length_filter]
  · intro c
    simp only [Cache.find?, ← mem_iff_lookup_eq_some hnodup, List.mem_map, List.mem_filter]
    constructor
    · rintro ⟨x, hx, hq⟩
      exact ⟨(c.identity, x), ⟨hx, hq⟩, rfl⟩
    · rintro ⟨⟨identity, x⟩, ⟨hx, hq⟩, rfl⟩
      exact ⟨x, hx, hq⟩

/-- A component is compiled if a routine is kept for it. -/
theorem state_eq_compiled : cache.state c = .compiled ↔ ∃ d, cache.find? c = some (.ok d) := by
  rw [Cache.state]
  rcases cache.find? c with _ | _ | d <;> simp

/-- A component has failed if a failure is kept for it. -/
theorem state_eq_failed : cache.state c = .failed ↔ ∃ f, cache.find? c = some (.error f) := by
  rw [Cache.state]
  rcases cache.find? c with _ | f | _ <;> simp

/-- A component is not compiled if nothing is kept for it. -/
theorem state_eq_uncompiled : cache.state c = .uncompiled ↔ cache.find? c = none := by
  rw [Cache.state]
  rcases cache.find? c with _ | f | _ <;> simp

/-- As many types of components are so as are so in other words. -/
theorem NumberOfTypes.congr {p q : Component → Prop} {n : Nat} (h : NumberOfTypes p n)
    (hpq : ∀ c, q c ↔ p c) : NumberOfTypes q n := by
  obtain ⟨identities, hnodup, hlength, hmem⟩ := h
  exact ⟨identities, hnodup, hlength, fun c => (hpq c).trans (hmem c)⟩

/-- The count of routines is the number of types that are compiled. -/
theorem Cache.Distinct.numberOfTypes_compiled (h : cache.Distinct) :
    NumberOfTypes (cache.state · = .compiled) cache.compiledCount := by
  refine (h.numberOfTypes fun
    | .ok _ => true
    | .error _ => false).congr fun c => state_eq_compiled.trans ?_
  constructor
  · rintro ⟨d, hd⟩
    exact ⟨.ok d, hd, rfl⟩
  · rintro ⟨_ | d, hd, hok⟩
    · cases hok
    · exact ⟨d, hd⟩

/-- The results that are no routines are those of the types that failed. -/
theorem Cache.Distinct.numberOfTypes_failed (h : cache.Distinct) :
    ∃ n, NumberOfTypes (cache.state · = .failed) n ∧
      cache.results.length = cache.compiledCount + n := by
  refine ⟨_, (h.numberOfTypes fun
    | .ok _ => false
    | .error _ => true).congr fun c => state_eq_failed.trans ?_, ?_⟩
  · constructor
    · rintro ⟨f, hf⟩
      exact ⟨.error f, hf, rfl⟩
    · rintro ⟨f | _, hf, hfailed⟩
      · exact ⟨f, hf⟩
      · cases hfailed
  · rw [Cache.compiledCount, List.length_eq_countP_add_countP]
    congr 2
    funext p
    rcases p with ⟨_, _ | _⟩ <;> rfl

/-- Dropping a result changes the state of its own component only. -/
theorem state_reload (d : Component) :
    (cache.reload c).2.state d = if d.identity = c.identity then .uncompiled else cache.state d := by
  by_cases h : d.identity = c.identity
  · rw [if_pos h, state_eq_uncompiled, Cache.find?, h]
    exact lookup_filter_self _
  · have hfind : (cache.reload c).2.find? d = cache.find? d := lookup_filter_other _ h
    rw [if_neg h, Cache.state, Cache.state, hfind]

end States

/-- What there is to say of a cache that has come about by some events. -/
structure Cache.Accounts (r : Renderer) (history : List Event) (cache : Cache) : Prop where
  /-- The compilations are the requests that found nothing. -/
  compilations : cache.compilations = (Cache.missed r {} history).length
  /-- The state of a component is that of the result that is kept for it. -/
  compiled : ∀ c, cache.state c = .compiled ↔ ∃ d, cache.find? c = some (.ok d)
  failed : ∀ c, cache.state c = .failed ↔ ∃ f, cache.find? c = some (.error f)
  uncompiled : ∀ c, cache.state c = .uncompiled ↔ cache.find? c = none
  /-- The numbers that are told are those of the types in each state. -/
  numbers : ∃ m n, NumberOfTypes (cache.state · = .compiled) m ∧
    NumberOfTypes (cache.state · = .failed) n ∧ cache.compiledCount = m ∧
    cache.describe = "Compiler \x7b types: " ++ toString (m + n) ++ ", compilations: " ++
      toString cache.compilations ++ " \x7d"
  /-- Dropping a result tells whether there was one, and leaves the other components as they are. -/
  reload : ∀ c, ((cache.reload c).1 = true ↔ cache.state c ≠ .uncompiled) ∧
    (cache.reload c).2.state c = .uncompiled ∧
    ∀ d, d.identity ≠ c.identity → (cache.reload c).2.state d = cache.state d
  /-- Dropping results compiles nothing. -/
  dropped : (∀ c, (cache.reload c).2.compilations = cache.compilations) ∧
    cache.clear.compilations = cache.compilations
  /-- Rendering a component for which a result is kept compiles what its block requests in vain, and
  nothing if there is no block. -/
  rendered : ∀ i b v files, cache.find? i.component ≠ none →
    (View.render r i b v { files, cache }).2.2.cache.compilations = cache.compilations +
        (cache.missed r (View.blockEvents r i b v { files, cache })).length ∧
      View.blockEvents r i none v { files, cache } = []

/-- A cache that has come about by events accounts for them. -/
theorem accounts_after (r : Renderer) (history : List Event) :
    (Cache.after r {} history).Accounts r history := by
  have hempty : Cache.Distinct {} := List.nodup_nil
  have hdistinct : (Cache.after r {} history).Distinct := hempty.after history
  generalize hcache : Cache.after r {} history = cache at hdistinct ⊢
  obtain ⟨n, hfailed, hlength⟩ := hdistinct.numberOfTypes_failed
  refine ⟨?_, fun _ => state_eq_compiled, fun _ => state_eq_failed, fun _ => state_eq_uncompiled,
    ⟨_, n, hdistinct.numberOfTypes_compiled, hfailed, rfl, ?_⟩, fun c => ⟨?_, ?_, ?_⟩,
    ⟨fun _ => rfl, rfl⟩, fun i b v files hkept => ⟨?_, blockEvents_none _ _ _⟩⟩
  · rw [← hcache, compilations_after]
    exact Nat.zero_add _
  · unfold Cache.describe
    rw [hlength]
  · rw [Ne, state_eq_uncompiled, Cache.reload, Option.isSome_iff_ne_none]
  · rw [state_reload, if_pos rfl]
  · intro d hd
    rw [state_reload, if_neg hd]
  · -- The request for the component itself is not in vain.
    obtain ⟨result, hfind⟩ := Option.ne_none_iff_exists'.1 hkept
    have hensure := ensure_of_find? (r := r) (s := { files, cache }) hfind
    have happly : Event.apply r cache (.ensured i.component files result) = cache :=
      congrArg (fun x => x.2.cache) hensure
    rw [(passes_render i b v { files, cache }).eq_after, View.renderEvents, hensure,
      compilations_after, Cache.missed, Event.missed?, if_neg hkept, happly]
    rfl

/-- Whatever is done with a renderer, its cache passes through the events of that from an empty one, and
rendering a source adds none to them. After any events there were as many compilations as requests that
found nothing; the states of components, the numbers that are told of them and the effects of dropping
and rendering accord with what is kept. The number of compilations never falls, and as long as nothing
drops the result of a component it is compiled at most once. -/
theorem compilations_are_misses (r : Renderer) :
    (∀ (b : Block) v files,
      Cache.Passes r {} (b.events r v { files }) (b.exec r v { files }).2.2.cache) ∧
    (∀ template attributes content next v s,
      (Block.source template attributes content next).events r v s =
        (next (r.renderSource template attributes content)).events r v s) ∧
    ∀ before later : List Event,
      (Cache.after r {} before).Accounts r before ∧
      (Cache.after r {} before).compilations ≤ (Cache.after r {} (before ++ later)).compilations ∧
      ∀ n, (∀ e ∈ later, ¬ e.Drops n) →
        ((Cache.after r {} before).missed r later).countP (·.identity = n) ≤ 1 := by
  refine ⟨fun b v files => passes_exec b v { files }, fun _ _ _ _ _ _ => rfl, ?_⟩
  intro before later
  refine ⟨accounts_after r before, ?_, fun n hn => countP_missed_le_one hn⟩
  rw [after_append, compilations_after later]
  exact Nat.le_add_right _ _

/-- Renders a component without a template twice, once in the content of another component. -/
def lostTwice : Block :=
  .renderWith ⟨lineComponent, .ok .null⟩ (.render ⟨lostComponent, .ok .null⟩ fun _ => .done)
    fun _ => .render ⟨lostComponent, .ok .null⟩ fun _ => .done

/-- The component without a template is looked for only once, while both components are counted as
compilations; and rendering the other one again compiles nothing. -/
theorem compilations_are_misses_of_lost :
    (lostTwice.exec markupRenderer {} emptySession).2.2.cache.compilations = 2 ∧
      (Cache.missed markupRenderer {} (lostTwice.events markupRenderer {} emptySession)).countP
        (·.identity = lostComponent.identity) ≤ 1 ∧
      (View.render markupRenderer ⟨lineComponent, .ok .null⟩ none {}
        (lostTwice.exec markupRenderer {} emptySession).2.2).2.2.cache.compilations = 2 := by
  obtain ⟨hpasses, -, hafter⟩ := compilations_are_misses markupRenderer
  have hcache := (hpasses lostTwice {} emptySession.files).eq_after
  obtain ⟨haccounts, -, -⟩ := hafter (lostTwice.events markupRenderer {} emptySession) []
  have htwo : (lostTwice.exec markupRenderer {} emptySession).2.2.cache.compilations = 2 := by
    refine (congrArg Cache.compilations hcache).trans (haccounts.compilations.trans ?_)
    rfl
  refine ⟨htwo, ?_, ?_⟩
  · refine (hafter [] (lostTwice.events markupRenderer {} emptySession)).2.2 0 ?_
    rintro e (_ | ⟨_, _ | ⟨_, _ | ⟨_, ⟨⟩⟩⟩⟩)
    all_goals exact id
  · exact (haccounts.rendered ⟨lineComponent, .ok .null⟩ none {} emptySession.files nofun).1

end Stencil
