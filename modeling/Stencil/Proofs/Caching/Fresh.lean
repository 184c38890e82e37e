import Stencil.Proofs.Caching.History

/-!
# With unchanged files a cache makes no difference

As long as the files are the same, what is kept for a component is what compiling it now would
yield, but for the number of the compilation. Main statement: `cache_answers_first_request`, which
says what each request is answered, and that a render after any run is answered as by a renderer
that has compiled nothing. The content of such a render can nest further renders, drop results and
compile components, but must not depend on how the cache stands (`Block.Steady`).
-/

namespace Stencil

/-- A block that leaves the files as they are, knows components by their types, and goes on in the
same way whether or not there was a result to drop, and whichever compilation a routine came from.
Nothing is asked of what a block writes, renders and captures, or makes of the answers. -/
def Block.Steady (types : Nat → Component) : Block → Prop
  | .done => True
  | .fail _ => True
  | .text _ next => next.Steady types
  | .markup _ next => next.Steady types
  | .url _ _ next => ∀ u, (next u).Steady types
  | .change _ _ => False
  | .ensure c next =>
    types c.identity = c ∧ (∀ x, (next x).Steady types) ∧
      ∀ d n, next (.ok { d with serial := n }) = next (.ok d)
  | .reload _ next => (∀ d, (next d).Steady types) ∧ next true = next false
  | .clear next => next.Steady types
  | .source _ _ _ next => ∀ x, (next x).Steady types
  | .render i next => types i.component.identity = i.component ∧ ∀ x, (next x).Steady types
  | .renderWith i content next =>
    types i.component.identity = i.component ∧ content.Steady types ∧ ∀ x, (next x).Steady types
  | .capture content next => content.Steady types ∧ ∀ x, (next x).Steady types

/-- Compiling a component at another time yields the same but for the number of the compilation. -/
theorem compile_serial (handlers : Registry) (settings : Settings) (files : Files) (m n : Nat)
    (c : Component) :
    Cache.compile handlers settings files m c =
      (Cache.compile handlers settings files n c).map fun d => { d with serial := m } := by
  rw [Cache.compile, Cache.compile]
  cases Sidecar.template settings files c with
  | error f => rfl
  | ok source =>
    simp only [bind, Except.bind, Source.compile]
    cases handlers.compile source.adapter with
    | error f => rfl
    | ok routine => rfl

/-- The number of the compilation does not show in what is rendered. -/
theorem finish_serial (i : Instance) (d : Compiled) (n : Nat) (content : Option Markup)
    (routes : Routes) :
    Renderer.finish i { d with serial := n } content routes = Renderer.finish i d content routes :=
  rfl

/-- A session with these files, in which all that is kept is what compiling now would yield. -/
structure Session.Current (r : Renderer) (types : Nat → Component) (files : Files) (s : Session) :
    Prop where
  files_eq : s.files = files
  kept : ∀ identity result, s.cache.results.lookup identity = some result →
    ∃ serial, result = Cache.compile r.handlers r.settings files serial (types identity)

/-- Two outcomes that cannot be told apart: the same answer and the same view, in sessions that are
both current. -/
structure SameOutcome {α : Type} (r : Renderer) (types : Nat → Component) (files : Files)
    (x y : Except Failure α × View × Session) : Prop where
  answer : x.1 = y.1
  view : x.2.1 = y.2.1
  left : x.2.2.Current r types files
  right : y.2.2.Current r types files

section Current

variable {r : Renderer} {types : Nat → Component} {files : Files} {s t : Session}

/-- Where nothing is kept all that is kept is current. -/
theorem current_empty : Session.Current r types files { files } := by
  refine ⟨rfl, ?_⟩
  intro identity result h
  cases h

/-- A request yields what compiling now would yield, and keeps the session current. -/
theorem Session.Current.ensure (h : s.Current r types files) {c : Component}
    (hc : types c.identity = c) :
    (∃ serial, (s.ensure r c).1 = Cache.compile r.handlers r.settings files serial c) ∧
      (s.ensure r c).2.Current r types files := by
  rw [Session.ensure, Renderer.ensure, Cache.ensure, h.files_eq]
  cases hf : s.cache.find? c with
  | some result =>
    obtain ⟨serial, hr⟩ := h.kept c.identity result hf
    rw [hc] at hr
    exact ⟨⟨serial, hr⟩, rfl, h.kept⟩
  | none =>
    refine ⟨⟨_, rfl⟩, rfl, ?_⟩
    intro identity result hl
    rw [List.lookup_cons] at hl
    split at hl
    · rename_i heq
      cases hl
      rw [eq_of_beq heq, hc]
      exact ⟨_, rfl⟩
    · exact h.kept identity result hl

/-- Dropping a result keeps the session current. -/
theorem Session.Current.reload (h : s.Current r types files) (c : Component) :
    (s.reload c).2.Current r types files := by
  refine ⟨h.files_eq, ?_⟩
  intro identity result hl
  by_cases heq : identity = c.identity
  · subst heq
    cases (lookup_filter_self _).symm.trans hl
  · exact h.kept identity result ((lookup_filter_other _ heq).symm.trans hl)

/-- Dropping all results keeps the session current. -/
theorem Session.Current.clear (h : s.Current r types files) : s.clear.Current r types files :=
  ⟨h.files_eq, fun _ _ hl => nomatch hl⟩

/-- Two current sessions answer a request with the same failure or with the same routine. -/
theorem ensure_eq_or (hs : s.Current r types files) (ht : t.Current r types files) {c : Component}
    (hc : types c.identity = c) :
    (∃ f, (s.ensure r c).1 = .error f ∧ (t.ensure r c).1 = .error f) ∨
      ∃ d n, (s.ensure r c).1 = .ok { d with serial := n } ∧ (t.ensure r c).1 = .ok d := by
  obtain ⟨⟨m, hm⟩, -⟩ := hs.ensure hc
  obtain ⟨⟨n, hn⟩, -⟩ := ht.ensure hc
  rw [compile_serial _ _ _ m n] at hm
  rw [hm, hn]
  cases Cache.compile r.handlers r.settings files n c with
  | error f => exact .inl ⟨f, rfl, rfl⟩
  | ok d => exact .inr ⟨d, m, rfl, rfl⟩

/-- What is captured is the same if what is written is. -/
theorem SameOutcome.captureWith {run : Action Unit} {v : View}
    (h : SameOutcome r types files (run { v with output := {} } s) (run { v with output := {} } t)) :
    SameOutcome r types files (View.captureWith run v s) (View.captureWith run v t) := by
  obtain ⟨ha, hv, hs, ht⟩ := h
  refine ⟨?_, ?_, hs, ht⟩
  · simp only [View.captureWith]
    rw [ha, hv]
  · simp only [View.captureWith]
    rw [hv]

/-- What is rendered is the same if its content is. -/
theorem SameOutcome.renderWith {i : Instance} {content : Option (Action Unit)} (v : View)
    (hs : s.Current r types files) (ht : t.Current r types files)
    (hi : types i.component.identity = i.component)
    (hc : ∀ run ∈ content, ∀ v s t, s.Current r types files → t.Current r types files →
      SameOutcome r types files (run v s) (run v t)) :
    SameOutcome r types files (View.renderWith r i content v s)
      (View.renderWith r i content v t) := by
  have hs' := (hs.ensure hi).2
  have ht' := (ht.ensure hi).2
  have hst := ensure_eq_or hs ht hi
  rw [View.renderWith, View.renderWith]
  -- Only what the two requests have in common is kept.
  generalize s.ensure r i.component = x at hs' hst ⊢
  generalize t.ensure r i.component = y at ht' hst ⊢
  obtain ⟨a, s'⟩ := x
  obtain ⟨b, t'⟩ := y
  rcases hst with ⟨f, rfl, rfl⟩ | ⟨d, n, rfl, rfl⟩
  · exact ⟨rfl, rfl, hs', ht'⟩
  · cases content with
    | none => exact ⟨finish_serial _ _ _ _ _, rfl, hs', ht'⟩
    | some run =>
      have hrun := (hc run rfl { v with output := {} } s' t' hs' ht').captureWith
      simp only
      generalize View.captureWith run v s' = x at hrun ⊢
      generalize View.captureWith run v t' = y at hrun ⊢
      obtain ⟨a, v', s''⟩ := x
      obtain ⟨b, w', t''⟩ := y
      obtain ⟨rfl, rfl, hs'', ht''⟩ := hrun
      cases a with
      | error f => exact ⟨rfl, rfl, hs'', ht''⟩
      | ok m => exact ⟨finish_serial _ _ _ _ _, rfl, hs'', ht''⟩

/-- A run that goes on with an outcome ends in the same way if the outcomes are the same. -/
theorem SameOutcome.bind {α : Type} {x y : Except Failure α × View × Session}
    {next : Except Failure α → Block} (h : SameOutcome r types files x y)
    (hn : ∀ a v s t, s.Current r types files → t.Current r types files →
      SameOutcome r types files ((next a).exec r v s) ((next a).exec r v t)) :
    SameOutcome r types files ((next x.1).exec r x.2.1 x.2.2) ((next y.1).exec r y.2.1 y.2.2) := by
  obtain ⟨ha, hv, hs, ht⟩ := h
  rw [ha, hv]
  exact hn _ _ _ _ hs ht

/-- A steady block does the same in two current sessions. -/
theorem SameOutcome.exec {b : Block} (hb : b.Steady types) (v : View)
    (hs : s.Current r types files) (ht : t.Current r types files) :
    SameOutcome r types files (b.exec r v s) (b.exec r v t) := by
  induction b generalizing v s t with
  | done => exact ⟨rfl, rfl, hs, ht⟩
  | fail f => exact ⟨rfl, rfl, hs, ht⟩
  | text written next ih => exact ih hb _ hs ht
  | markup m next ih => exact ih hb _ hs ht
  | url name params next ih => exact ih _ (hb _) _ hs ht
  | change files next ih => exact hb.elim
  | ensure c next ih =>
    obtain ⟨hc, hnext, hserial⟩ := hb
    have hs' := (hs.ensure hc).2
    have ht' := (ht.ensure hc).2
    rw [Block.exec, Block.exec]
    -- Both sessions fail alike, or compile alike but for a number at which the block does not look.
    rcases ensure_eq_or hs ht hc with ⟨f, hx, hy⟩ | ⟨d, n, hx, hy⟩
    · simp only [hx, hy]
      exact ih _ (hnext _) v hs' ht'
    · simp only [hx, hy, hserial]
      exact ih _ (hnext _) v hs' ht'
  | reload c next ih =>
    obtain ⟨hnext, heq⟩ := hb
    have hsame : ∀ d, next d = next true := by
      intro d
      cases d with
      | false => exact heq.symm
      | true => rfl
    rw [Block.exec, Block.exec]
    simp only [hsame]
    exact ih true (hnext true) v (hs.reload c) (ht.reload c)
  | clear next ih => exact ih hb v hs.clear ht.clear
  | source template attributes content next ih => exact ih _ (hb _) v hs ht
  | render i next ih =>
    obtain ⟨hi, hnext⟩ := hb
    have h : SameOutcome r types files (View.renderWith r i none v s)
        (View.renderWith r i none v t) := .renderWith v hs ht hi (by simp)
    exact h.bind fun a v s t => ih a (hnext a) v
  | renderWith i content next ihc ih =>
    obtain ⟨hi, hcontent, hnext⟩ := hb
    have h : ∀ run ∈ some (content.exec r), ∀ v s t, s.Current r types files →
        t.Current r types files → SameOutcome r types files (run v s) (run v t) := by
      rintro run ⟨⟩ v s t
      exact ihc hcontent v
    exact (SameOutcome.renderWith v hs ht hi h).bind fun a v s t => ih a (hnext a) v
  | capture content next ihc ih =>
    obtain ⟨hcontent, hnext⟩ := hb
    exact (ihc hcontent _ hs ht).captureWith.bind fun a v s t => ih a (hnext a) v

/-- A session that follows a history in which all requests met the same files is current. -/
theorem Follows.current {history : List Event} {cache : Cache}
    (h : Follows r history { files, cache })
    (hf : ∀ c files' result, .ensured c files' result ∈ history →
      types c.identity = c ∧ files' = files) : Session.Current r types files { files, cache } := by
  refine ⟨rfl, ?_⟩
  intro identity result hl
  obtain ⟨q, hq, rfl⟩ := Option.map_eq_some_iff.1 ((h.kept identity).symm.trans hl)
  obtain ⟨hmem, hid⟩ := mem_of_firstSince hq
  obtain ⟨serial, hr⟩ := (h.compiled identity q hq).2
  obtain ⟨ht, hfiles⟩ := hf _ _ _ hmem
  rw [hid] at ht
  rw [hfiles, ← ht] at hr
  exact ⟨serial, hr⟩

end Current

/-- Whatever is done with a renderer, nested in whatever way and with the files changing in between:
each request for a component is answered with the result of the first request for it since its
result was last dropped, which came of compiling it from the files as they were then. And if all
requests met the same files, then rendering afterwards is answered as with an empty cache, provided
that the block with the content is steady (`Block.Steady`): it changes no files, knows components by
their types, and goes on in the same way whether or not there was a result to drop, and whichever
compilation a routine came from. -/
theorem cache_answers_first_request (r : Renderer) (files : Files) (b : Block) (v : View) :
    (∀ before c files' result after,
      b.events r v { files } = before ++ .ensured c files' result :: after →
        ∃ q, firstSince c.identity (before ++ [.ensured c files' result]) = some q ∧
          q.component.identity = c.identity ∧ q.result = result ∧ q.IsCompiled r) ∧
      ∀ types : Nat → Component,
        (∀ c files' result, .ensured c files' result ∈ b.events r v { files } →
          types c.identity = c ∧ files' = files) →
        ∀ (i : Instance) (content : Option Block) (w : View),
          types i.component.identity = i.component → (∀ x ∈ content, x.Steady types) →
            (View.renderWith r i (content.map (Block.exec r)) w
                { files, cache := (b.exec r v { files }).2.2.cache }).1 =
              (View.renderWith r i (content.map (Block.exec r)) w { files }).1 := by
  -- A new renderer follows the empty history, and each block keeps it in accord.
  have hrun : Follows r (b.events r v { files }) (b.exec r v { files }).2.2 :=
    (follows_nil files).exec b v
  refine ⟨hrun.answered, ?_⟩
  intro types hf i content w hi hcontent
  have hcurrent := Follows.current (hrun.change files) hf
  have h : ∀ run ∈ content.map (Block.exec r), ∀ v s t, Session.Current r types files s →
      Session.Current r types files t → SameOutcome r types files (run v s) (run v t) := by
    intro run hmem v s t hs ht
    obtain ⟨x, hx, rfl⟩ := Option.map_eq_some_iff.1 hmem
    exact SameOutcome.exec (hcontent x hx) v hs ht
  exact (SameOutcome.renderWith w hcurrent current_empty hi h).answer

/-- A component whose template stands next to its source. -/
def boxComponent : Component := { identity := 0, name := "Box", sourceFile? := some "ui/box.rs" }

/-- Files without that template. -/
def noFiles : Files := ⟨fun _ => .error .notFound, fun _ => .error .notFound, fun _ => false⟩

/-- Files with that template. -/
def boxFiles : Files :=
  ⟨fun _ => .ok "box".toUTF8, fun _ => .ok [⟨"box.html", false⟩], fun _ => true⟩

/-- A missing template fails in the same way after it has been added, and a component that was
compiled is rendered as if it had not been. -/
theorem missing_template_fails_until_reload :
    (∃ serial,
      ({ (({ files := noFiles } : Session).ensure .plain boxComponent).2 with
          files := boxFiles }.ensure .plain boxComponent).1 =
        Cache.compile Renderer.plain.handlers Renderer.plain.settings noFiles serial boxComponent) ∧
      (View.renderWith .plain ⟨boxComponent, .ok .null⟩ (some (Block.exec .plain (.text "a" .done)))
          {} { files := boxFiles,
               cache := (({ files := boxFiles } : Session).ensure .plain boxComponent).2.cache }).1 =
        (View.renderWith .plain ⟨boxComponent, .ok .null⟩
          (some (Block.exec .plain (.text "a" .done))) {} { files := boxFiles }).1 := by
  constructor
  · obtain ⟨q, hq, -, hr, serial, hc⟩ := (cache_answers_first_request .plain noFiles
      (.ensure boxComponent fun _ => .change boxFiles (.ensure boxComponent fun _ => .done)) {}).1
      [.ensured boxComponent noFiles _] boxComponent boxFiles _ [] rfl
    cases hq
    exact ⟨serial, hr.symm.trans hc⟩
  · refine (cache_answers_first_request .plain boxFiles (.ensure boxComponent fun _ => .done) {}).2
      (fun _ => boxComponent) ?_ ⟨boxComponent, .ok .null⟩ (some (.text "a" .done)) {} rfl ?_
    · intro c files' result h
      cases List.mem_singleton.1 h
      exact ⟨rfl, rfl⟩
    · rintro x ⟨⟩
      trivial

end Stencil
