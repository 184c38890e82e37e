import Mathlib.Data.List.Basic
import Mathlib.Data.List.Induction
import Stencil.Renderer

/-!
# What a cache answers, by its history

The cache of a renderer keeps results by the identities of components. Its history is the list of
what was asked of it: results for components, with the files as they were, and that results be
dropped. Main statement: `Follows.exec`. The invariant `Follows` says that the cache keeps what the
history says, and that each result given so far is the one that came of compiling at the first
request since the last drop; each operation preserves it, and so does each block, whatever it nests.
-/

namespace Stencil

/-- Something that was asked of a cache. -/
inductive Event where
  | ensured (c : Component) (files : Files) (result : Except Failure Compiled)
  | reloaded (c : Component)
  | cleared

/-- A request for a component, the files at that time, and the result that was given. -/
structure Request where
  component : Component
  files : Files
  result : Except Failure Compiled

/-- The result is what comes of finding and compiling the component among the files. -/
def Request.IsCompiled (r : Renderer) (q : Request) : Prop :=
  ∃ serial, q.result = Cache.compile r.handlers r.settings q.files serial q.component

/-- The first request for an identity since its result was last dropped, after one more event. -/
def Event.first (identity : Nat) (before : Option Request) : Event → Option Request
  | .ensured c files result =>
    if c.identity = identity then before <|> some ⟨c, files, result⟩ else before
  | .reloaded c => if c.identity = identity then none else before
  | .cleared => none

/-- The first request for an identity since its result was last dropped. -/
def firstSince (identity : Nat) (history : List Event) : Option Request :=
  history.foldl (Event.first identity) none

@[simp] theorem firstSince_append_singleton (identity : Nat) (history : List Event) (e : Event) :
    firstSince identity (history ++ [e]) = e.first identity (firstSince identity history) := by
  rw [firstSince, List.foldl_append]
  rfl

/-- The first request since a drop is an event of the history. -/
theorem mem_of_firstSince {identity : Nat} {history : List Event} {q : Request}
    (h : firstSince identity history = some q) :
    .ensured q.component q.files q.result ∈ history ∧ q.component.identity = identity := by
  -- From the end: the last event is the first request, keeps the one before it, or drops it.
  induction history using List.reverseRecOn with
  | nil => cases h
  | append_singleton history e ih =>
    have hmem : ∀ {x : Event}, x ∈ history → x ∈ history ++ [e] := List.mem_append_left [e]
    rw [firstSince_append_singleton] at h
    cases e with
    | cleared => cases h
    | reloaded c =>
      rw [Event.first] at h
      split at h
      · cases h
      · exact ⟨hmem (ih h).1, (ih h).2⟩
    | ensured c files result =>
      rw [Event.first] at h
      split at h
      · rename_i heq
        cases hf : firstSince identity history with
        | none =>
          rw [hf] at h
          cases h
          exact ⟨List.mem_append_right _ (List.mem_singleton.2 rfl), heq⟩
        | some q' =>
          rw [hf] at h
          cases h
          exact ⟨hmem (ih hf).1, (ih hf).2⟩
      · exact ⟨hmem (ih h).1, (ih h).2⟩

/-- What a block asks of the cache, in the order of its run. The component of a render is requested
before the block that writes its content is run. -/
def Block.events (r : Renderer) : Block → View → Session → List Event
  | .done, _, _ => []
  | .fail _, _, _ => []
  | .text written next, v, s => next.events r { v with output := v.output.text written } s
  | .markup m next, v, s => next.events r { v with output := v.output.markup m } s
  | .url name params next, v, s => (next (v.routes.urlFor name params)).events r v s
  | .change files next, v, s => next.events r v { s with files }
  | .ensure c next, v, s =>
    let (result, s') := s.ensure r c
    .ensured c s.files result :: (next result).events r v s'
  | .reload c next, v, s =>
    let (dropped, s') := s.reload c
    .reloaded c :: (next dropped).events r v s'
  | .clear next, v, s => .cleared :: next.events r v s.clear
  | .source template attributes content next, v, s =>
    (next (r.renderSource template attributes content)).events r v s
  | .render i next, v, s =>
    let (result, v', s') := View.renderWith r i none v s
    .ensured i.component s.files (s.ensure r i.component).1 :: (next result).events r v' s'
  | .renderWith i content next, v, s =>
    let (result, v', s') := View.renderWith r i (some (content.exec r)) v s
    let (compiled, inner) := s.ensure r i.component
    .ensured i.component s.files compiled ::
      ((match compiled with
        | .ok _ => content.events r { v with output := {} } inner
        | .error _ => []) ++ (next result).events r v' s')
  | .capture content next, v, s =>
    let (result, v', s') := View.captureWith (content.exec r) v s
    content.events r { v with output := {} } s ++ (next result).events r v' s'

/-- Each result in a history is the one of the first request since the last drop, and came of
compiling at that time. -/
def Answered (r : Renderer) (history : List Event) : Prop :=
  ∀ before c files result after, history = before ++ .ensured c files result :: after →
    ∃ q, firstSince c.identity (before ++ [.ensured c files result]) = some q ∧
      q.component.identity = c.identity ∧ q.result = result ∧ q.IsCompiled r

/-- A session follows a history: its cache keeps what the history says, and each result in the
history is the right one. -/
structure Follows (r : Renderer) (history : List Event) (s : Session) : Prop where
  /-- What is kept is the result of the first request since the last drop. -/
  kept : ∀ identity,
    s.cache.results.lookup identity = (firstSince identity history).map (·.result)
  /-- The first request was compiled. -/
  compiled : ∀ identity q, firstSince identity history = some q →
    q.component.identity = identity ∧ q.IsCompiled r
  /-- All results have been right so far. -/
  answered : Answered r history

section Lookup

variable {α : Type} {n m : Nat}

/-- What was dropped is not found. -/
theorem lookup_filter_self (results : List (Nat × α)) :
    (results.filter (·.1 ≠ n)).lookup n = none := by
  rw [List.lookup_eq_none_iff]
  intro p hp
  have hne : p.1 ≠ n := of_decide_eq_true (List.mem_filter.1 hp).2
  exact bne_iff_ne.2 hne.symm

/-- What was not dropped is still found. -/
theorem lookup_filter_other (results : List (Nat × α)) (h : m ≠ n) :
    (results.filter (·.1 ≠ n)).lookup m = results.lookup m := by
  induction results with
  | nil => rfl
  | cons p results ih =>
    by_cases hp : p.1 = n
    · have hm : (m == p.1) = false := beq_eq_false_iff_ne.2 (hp ▸ h)
      rw [List.filter_cons_of_neg (by simp [hp]), List.lookup_cons, hm, ih]
    · rw [List.filter_cons_of_pos (by simp [hp]), List.lookup_cons, List.lookup_cons, ih]

end Lookup

variable {r : Renderer} {history : List Event} {s : Session}

/-- A history that goes on with one right event is right. -/
theorem Answered.snoc {e : Event} (h : Answered r history)
    (he : ∀ c files result, e = .ensured c files result →
      ∃ q, firstSince c.identity (history ++ [e]) = some q ∧ q.component.identity = c.identity ∧
        q.result = result ∧ q.IsCompiled r) : Answered r (history ++ [e]) := by
  intro before c files result after heq
  -- The request is the new event, or one of the events before it.
  rcases List.eq_nil_or_concat after with rfl | ⟨after, last, rfl⟩
  · obtain ⟨rfl, rfl⟩ := List.append_singleton_inj.1 heq
    exact he c files result rfl
  · rw [List.concat_eq_append, ← List.cons_append, ← List.append_assoc] at heq
    obtain ⟨rfl, -⟩ := List.append_singleton_inj.1 heq
    exact h before c files result after rfl

/-- An empty cache has no history. -/
theorem follows_nil (files : Files) : Follows r [] { files } := by
  refine ⟨fun _ => rfl, ?_, ?_⟩
  · intro identity q h
    cases h
  · intro before c files result after h
    simp at h

/-- Other files change nothing about what is kept. -/
theorem Follows.change (h : Follows r history s) (files : Files) :
    Follows r history { s with files } :=
  ⟨h.kept, h.compiled, h.answered⟩

/-- A session in which a result is kept follows its history when the result is given again. -/
theorem Follows.ensure_kept {c : Component} {result : Except Failure Compiled} (files : Files)
    (h : Follows r history s) (hc : s.cache.find? c = some result) :
    Follows r (history ++ [.ensured c files result]) s := by
  obtain ⟨q, hq, hr⟩ := Option.map_eq_some_iff.1 ((h.kept c.identity).symm.trans hc)
  -- The first request stays the first.
  have hfirst : ∀ identity, firstSince identity (history ++ [.ensured c files result]) =
      firstSince identity history := by
    intro identity
    rw [firstSince_append_singleton, Event.first]
    split
    · rename_i heq
      rw [← heq, hq]
      rfl
    · rfl
  obtain ⟨hid, hmade⟩ := h.compiled c.identity q hq
  refine ⟨?_, ?_, h.answered.snoc ?_⟩
  · intro identity
    rw [hfirst]
    exact h.kept identity
  · intro identity q'
    rw [hfirst]
    exact h.compiled identity q'
  · rintro c' files' result' ⟨⟩
    exact ⟨q, (hfirst _).trans hq, hid, hr, hmade⟩

/-- A session in which no result is kept follows its history when a compiled one is added. -/
theorem Follows.ensure_compiled {c : Component} {result : Except Failure Compiled} {files : Files}
    {serial n : Nat} (h : Follows r history s) (hc : s.cache.find? c = none)
    (hr : result = Cache.compile r.handlers r.settings files serial c) :
    Follows r (history ++ [.ensured c files result])
      { s with cache := ⟨(c.identity, result) :: s.cache.results, n⟩ } := by
  -- Nothing is kept, so that this request is the first for its identity and the first of no other.
  have hnone : firstSince c.identity history = none :=
    Option.map_eq_none_iff.1 ((h.kept c.identity).symm.trans hc)
  have hself : firstSince c.identity (history ++ [.ensured c files result]) =
      some ⟨c, files, result⟩ := by
    rw [firstSince_append_singleton, Event.first, if_pos rfl, hnone]
    rfl
  have hother : ∀ identity, c.identity ≠ identity →
      firstSince identity (history ++ [.ensured c files result]) = firstSince identity history := by
    intro identity hne
    rw [firstSince_append_singleton, Event.first, if_neg hne]
  refine ⟨?_, ?_, h.answered.snoc ?_⟩
  · intro identity
    by_cases heq : c.identity = identity
    · subst heq
      rw [hself]
      exact List.lookup_cons_self
    · have hne : (identity == c.identity) = false := beq_eq_false_iff_ne.2 (Ne.symm heq)
      rw [hother identity heq, List.lookup_cons, hne]
      exact h.kept identity
  · intro identity q hq
    by_cases heq : c.identity = identity
    · subst heq
      cases hself.symm.trans hq
      exact ⟨rfl, serial, hr⟩
    · rw [hother identity heq] at hq
      exact h.compiled identity q hq
  · rintro c' files' result' ⟨⟩
    exact ⟨_, hself, rfl, rfl, serial, hr⟩

/-- A request is answered as the history says. -/
theorem Follows.ensure (h : Follows r history s) (c : Component) :
    Follows r (history ++ [.ensured c s.files (s.ensure r c).1]) (s.ensure r c).2 := by
  rw [Session.ensure, Renderer.ensure, Cache.ensure]
  cases hc : s.cache.find? c with
  | some result => exact h.ensure_kept s.files hc
  | none => exact h.ensure_compiled hc rfl

/-- After a result has been dropped the next request is the first. -/
theorem Follows.reload (h : Follows r history s) (c : Component) :
    Follows r (history ++ [.reloaded c]) (s.reload c).2 := by
  refine ⟨?_, ?_, h.answered.snoc ?_⟩
  · intro identity
    rw [firstSince_append_singleton, Event.first]
    split
    · rename_i heq
      subst heq
      exact lookup_filter_self _
    · rename_i hne
      rw [← h.kept identity]
      exact lookup_filter_other _ (Ne.symm hne)
  · intro identity q hq
    rw [firstSince_append_singleton, Event.first] at hq
    split at hq
    · cases hq
    · exact h.compiled identity q hq
  · rintro c' files' result' ⟨⟩

/-- After all results have been dropped the next request is the first, whatever it is for. -/
theorem Follows.clear (h : Follows r history s) : Follows r (history ++ [.cleared]) s.clear := by
  refine ⟨?_, ?_, h.answered.snoc ?_⟩
  · intro identity
    rw [firstSince_append_singleton]
    rfl
  · intro identity q hq
    rw [firstSince_append_singleton] at hq
    cases hq
  · rintro c' files' result' ⟨⟩

/-- A block that runs in a session leaves one that follows the history with what the block asked. -/
theorem Follows.exec (b : Block) (h : Follows r history s) (v : View) :
    Follows r (history ++ b.events r v s) (b.exec r v s).2.2 := by
  -- A block asks the cache first and then goes on, in a session that follows the longer history.
  induction b generalizing history v s with
  | done =>
    rw [Block.events, List.append_nil]
    exact h
  | fail f =>
    rw [Block.events, List.append_nil]
    exact h
  | text written next ih => exact ih h _
  | markup m next ih => exact ih h _
  | url name params next ih => exact ih _ h _
  | change files next ih => exact ih (h.change files) _
  | ensure c next ih =>
    rw [Block.events, List.append_cons]
    exact ih _ (h.ensure c) _
  | reload c next ih =>
    rw [Block.events, List.append_cons]
    exact ih _ (h.reload c) _
  | clear next ih =>
    rw [Block.events, List.append_cons]
    exact ih h.clear _
  | source template attributes content next ih => exact ih _ h _
  | render i next ih =>
    rw [Block.events, Block.exec, List.append_cons]
    refine ih _ ?_ _
    have hc := h.ensure i.component
    rw [View.renderWith]
    generalize s.ensure r i.component = answer at hc ⊢
    obtain ⟨_ | compiled, s'⟩ := answer
    · exact hc
    · exact hc
  | renderWith i content next ihc ih =>
    rw [Block.events, Block.exec, List.append_cons, ← List.append_assoc]
    refine ih _ ?_ _
    have hc := h.ensure i.component
    rw [View.renderWith]
    generalize s.ensure r i.component = answer at hc ⊢
    obtain ⟨f | compiled, s'⟩ := answer
    · rw [List.append_nil]
      exact hc
    · have hcontent := ihc hc { v with output := {} }
      simp only
      -- Whether or not the content could be written, rendering ends in the session after it.
      rw [View.captureWith]
      generalize content.exec r { v with output := {} } s' = written at hcontent ⊢
      obtain ⟨_ | _, v', s''⟩ := written
      · exact hcontent
      · exact hcontent
  | capture content next ihc ih =>
    rw [Block.events, Block.exec, ← List.append_assoc]
    exact ih _ (ihc h _) _

end Stencil
