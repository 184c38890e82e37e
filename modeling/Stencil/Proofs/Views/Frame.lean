import Stencil.Renderer

/-!
# What a block does to its view

A block adds to what its view holds, and does nothing else to the view; what it renders and captures
on the way is written to outputs of their own. Main statements: `Block.adds_exec`, by which a run of
a block is known from its run on an empty output and from what it writes, and `view_is_framed`, which
says what rendering and capturing leave of a view, and what they yield.
-/

namespace Stencil

namespace Output

/-- What is written to an empty output is all that it holds. -/
@[simp] theorem toMarkup_markup_empty (m : Markup) : (({} : Output).markup m).toMarkup = m := by
  simp [markup, toMarkup]

/-- Escaped text is written as the markup that shows it. -/
theorem text_eq_markup (out : Output) (s : String) : out.text s = out.markup (.ofText s) := rfl

/-- No pieces leave an output as it is. -/
@[simp] theorem markup_join_nil (out : Output) : out.markup (.join []) = out := by
  simp [markup, Markup.join, String.join]

/-- Pieces are written one after another. -/
theorem markup_join_cons (out : Output) (m : Markup) (ms : List Markup) :
    out.markup (.join (m :: ms)) = (out.markup m).markup (.join ms) := by
  simp [markup, Markup.join, String.append_assoc]

end Output

/-- What a block writes to its own view, in the order of its run: a text as the markup that shows
it, and markup as it stands. What it renders or captures is not written, unless the block does so
itself. -/
def Block.writes (r : Renderer) : Block → Routes → Session → List Markup
  | .done, _, _ => []
  | .fail _, _, _ => []
  | .text written next, routes, s => .ofText written :: next.writes r routes s
  | .markup m next, routes, s => m :: next.writes r routes s
  | .url name params next, routes, s => (next (routes.urlFor name params)).writes r routes s
  | .change files next, routes, s => next.writes r routes { s with files }
  | .ensure c next, routes, s =>
    let (result, s) := s.ensure r c
    (next result).writes r routes s
  | .reload c next, routes, s =>
    let (dropped, s) := s.reload c
    (next dropped).writes r routes s
  | .clear next, routes, s => next.writes r routes s.clear
  | .source template attributes content next, routes, s =>
    (next (r.renderSource template attributes content)).writes r routes s
  | .render i next, routes, s =>
    let (result, _, s) := View.renderWith r i none { routes } s
    (next result).writes r routes s
  | .renderWith i content next, routes, s =>
    let (result, _, s) := View.renderWith r i (some (content.exec r)) { routes } s
    (next result).writes r routes s
  | .capture content next, routes, s =>
    let (result, _, s) := View.captureWith (content.exec r) { routes } s
    (next result).writes r routes s

/-- An action that adds some markup to the output of its view, and that does the same on any view
with these routes. -/
def Adds (run : Action Unit) (writes : Routes → Session → List Markup) : Prop :=
  ∀ v w s, v.routes = w.routes → run v s =
    ((run w s).1, { v with output := v.output.markup (.join (writes w.routes s)) }, (run w s).2.2)

/-- An action that leaves its view as it is, and that does the same on any view with these routes. -/
def Framed {α : Type} (run : Action α) : Prop :=
  ∀ v w s, v.routes = w.routes → run v s = ((run w s).1, v, (run w s).2.2)

section Frame

variable {α : Type} {r : Renderer} {run : Action Unit} {writes : Routes → Session → List Markup}

/-- What is captured is what was written, and the view is as it was. -/
theorem Adds.captureWith (h : Adds run writes) {v w : View} (hw : v.routes = w.routes)
    (s : Session) :
    View.captureWith run v s =
      ((run w s).1.map fun _ => .join (writes w.routes s), v, (run w s).2.2) := by
  rw [View.captureWith, h { v with output := {} } w s hw]
  simp

/-- Capturing what an action adds leaves the view as it is. -/
theorem Adds.framed (h : Adds run writes) : Framed (View.captureWith run) := by
  intro v w s hw
  rw [h.captureWith hw, h.captureWith rfl]

/-- Rendering leaves the view as it is, if capturing its content does. -/
theorem framed_renderWith (r : Renderer) (i : Instance) {content : Option (Action Unit)}
    (h : ∀ run ∈ content, Framed (View.captureWith run)) :
    Framed (View.renderWith r i content) := by
  intro v w s hw
  rw [View.renderWith, View.renderWith]
  obtain ⟨_ | compiled, s⟩ := s.ensure r i.component
  · rfl
  · cases content with
    | none => simp only [hw]
    | some run =>
      have hself := h run rfl w w s rfl
      simp only [h run rfl v w s hw]
      generalize View.captureWith run w s = x at hself ⊢
      obtain ⟨_ | m, w', s⟩ := x
      · rfl
      · cases hself
        simp only [hw]

/-- What goes on from an action that leaves the view as it is adds what it writes from there on. -/
theorem Framed.bind {run : Action α} {next : Except Failure α → Block} (h : Framed run)
    (hnext : ∀ x, Adds ((next x).exec r) ((next x).writes r)) :
    Adds (fun v s => (next (run v s).1).exec r (run v s).2.1 (run v s).2.2)
      (fun routes s => (next (run { routes } s).1).writes r routes (run { routes } s).2.2) := by
  intro v w s hw
  have hv := h v { routes := w.routes } s hw
  have hw' := h w { routes := w.routes } s rfl
  simp only [hv, hw']
  exact hnext _ v w _ hw

/-- A block adds to its view what it writes. -/
theorem Block.adds_exec (r : Renderer) (b : Block) : Adds (b.exec r) (b.writes r) := by
  -- What a block goes on with depends on answers, and these never on the output.
  induction b with
  | done =>
    intro v w s hw
    simp [exec, Block.writes]
  | fail f =>
    intro v w s hw
    simp [exec, Block.writes]
  | text written next ih =>
    intro v w s hw
    rw [Block.writes, Output.markup_join_cons, ← Output.text_eq_markup]
    exact ih _ _ s hw
  | markup m next ih =>
    intro v w s hw
    rw [Block.writes, Output.markup_join_cons]
    exact ih _ _ s hw
  | url name params next ih =>
    intro v w s hw
    have hurl : v.routes.urlFor name params = w.routes.urlFor name params := by rw [hw]
    rw [exec, hurl]
    exact ih _ v w s hw
  | change files next ih => exact fun v w s hw => ih v w _ hw
  | ensure c next ih => exact fun v w s hw => ih _ v w _ hw
  | reload c next ih => exact fun v w s hw => ih _ v w _ hw
  | clear next ih => exact fun v w s hw => ih v w _ hw
  | source template attributes content next ih => exact ih _
  | render i next ih =>
    have h : Framed (View.renderWith r i none) := framed_renderWith r i (by simp)
    exact h.bind ih
  | renderWith i content next ihc ih =>
    have h : Framed (View.renderWith r i (some (content.exec r))) :=
      framed_renderWith r i (by simpa using ihc.framed)
    exact h.bind ih
  | capture content next ihc ih => exact ihc.framed.bind ih

end Frame

/-- Rendering an instance with whatever content a block writes leaves the view as it is. -/
theorem framed_render (r : Renderer) (i : Instance) (content : Option Block) :
    Framed (View.renderWith r i (content.map (Block.exec r))) := by
  apply framed_renderWith
  intro run hrun
  obtain ⟨b, -, rfl⟩ := Option.map_eq_some_iff.1 hrun
  exact (b.adds_exec r).framed

/-- A component that is appended is written as it was rendered, and otherwise nothing is. -/
theorem exec_append (r : Renderer) (i : Instance) (next : Block) (v : View) (s : Session) :
    (Block.append i next).exec r v s =
      match View.renderWith r i none v s with
      | (.ok m, _, s) => next.exec r { v with output := v.output.markup m } s
      | (.error f, _, s) => (.error f, v, s) := by
  have h := framed_render r i none v v s rfl
  rw [Block.append, Block.exec]
  simp only [Option.map_none] at h
  generalize View.renderWith r i none v s = x at h ⊢
  obtain ⟨_ | m, w, s⟩ := x
  · cases h
    rfl
  · cases h
    rfl

/-- Rendering a component, with or without a block that writes its content, and capturing what a
block writes leave the view as it was, whether they succeed or fail. What is captured is what the
block itself wrote, one piece after another; it is also what the block would have added to the view.
Appending a component adds what was rendered, and nothing if it could not be rendered. And none of
this depends on what was written to the view before. -/
theorem view_is_framed (r : Renderer) (i : Instance) (content : Option Block) (b : Block) (v : View)
    (s : Session) :
    (View.renderWith r i (content.map (Block.exec r)) v s).2.1 = v ∧
    (View.captureWith (b.exec r) v s).2.1 = v ∧
    (View.captureWith (b.exec r) v s).1 =
      (b.exec r v s).1.map (fun _ => Markup.join (b.writes r v.routes s)) ∧
    (b.exec r v s).2.1 = { v with output := v.output.markup (.join (b.writes r v.routes s)) } ∧
    (∀ f, (View.renderWith r i none v s).1 = .error f →
      ((Block.append i b).exec r v s).1 = .error f ∧ ((Block.append i b).exec r v s).2.1 = v) ∧
    (∀ m, (View.renderWith r i none v s).1 = .ok m →
      (Block.append i b).writes r v.routes s =
        m :: b.writes r v.routes (View.renderWith r i none v s).2.2) ∧
    ∀ output, (View.renderWith r i (content.map (Block.exec r)) { v with output } s).1 =
        (View.renderWith r i (content.map (Block.exec r)) v s).1 ∧
      (View.renderWith r i (content.map (Block.exec r)) { v with output } s).2.2 =
        (View.renderWith r i (content.map (Block.exec r)) v s).2.2 := by
  have hrender := framed_render r i content
  have hadds := b.adds_exec r
  refine ⟨?_, ?_, ?_, ?_, ?_, ?_, ?_⟩
  · rw [hrender v v s rfl]
  · rw [hadds.framed v v s rfl]
  · rw [hadds.captureWith rfl]
  · rw [hadds v v s rfl]
  · intro f hf
    rw [exec_append]
    generalize View.renderWith r i none v s = x at hf ⊢
    obtain ⟨_ | m, w, s⟩ := x
    · cases hf
      exact ⟨rfl, rfl⟩
    · cases hf
  · intro m hm
    have h := framed_render r i none { routes := v.routes } v s rfl
    rw [Option.map_none] at h
    rw [Block.append, Block.writes, h]
    simp only [hm, Block.writes]
  · intro output
    rw [hrender { v with output } v s rfl]
    exact ⟨rfl, rfl⟩

/-- A component without a template. -/
def lostComponent : Component := { identity := 0, name := "Lost" }

/-- A component with markup for its template. -/
def lineComponent : Component := { identity := 1, name := "Line", template? := some "<hr>" }

/-- A renderer that takes the templates in components for markup. -/
def markupRenderer : Renderer := { settings := { defaultKind := "raw" }, handlers := .withDefaults }

/-- A session without files. -/
def emptySession : Session :=
  { files := ⟨fun _ => .error .notFound, fun _ => .error .notFound, fun _ => false⟩ }

/-- A component that cannot be rendered adds nothing to a view that holds an `a`, and one that can
be is captured behind a text as it was rendered. -/
theorem view_is_framed_around_append :
    ((Block.append ⟨lostComponent, .ok .null⟩ .done).exec markupRenderer { output := ⟨"a"⟩ }
        emptySession).2.1 = { output := ⟨"a"⟩ } ∧
      (View.captureWith
          ((Block.text "<" (.append ⟨lineComponent, .ok .null⟩ .done)).exec markupRenderer)
          { output := ⟨"a"⟩ } emptySession).1 =
        .ok (Markup.join [.ofText "<", ⟨"<hr>"⟩]) := by
  constructor
  · have h := view_is_framed markupRenderer ⟨lostComponent, .ok .null⟩ none .done
      { output := ⟨"a"⟩ } emptySession
    exact (h.2.2.2.2.1 (.unanchored "Lost") rfl).2
  · have h := view_is_framed markupRenderer ⟨lineComponent, .ok .null⟩ none
      (.text "<" (.append ⟨lineComponent, .ok .null⟩ .done)) { output := ⟨"a"⟩ } emptySession
    rw [h.2.2.1]
    rfl

end Stencil
