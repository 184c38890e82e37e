import Stencil.Proofs.Joining.Refused
import Stencil.Proofs.Lexing.Coverage
import Stencil.Proofs.Rendering.Calls

/-!
# Nodes and their tokens

Each node of a template, at whatever depth, has tokens of its own, which stand next to one another.
Main statements: `Nodes.exists_node`, by which it has; and, for tokens that follow one another,
`Nodes.inSequence_nodes` on the places of neighbouring nodes, `Node.children_inside` on those of the nodes
in branches, and `Node.exists_tag` on that of an expression in its tag.
-/

namespace Stencil

namespace Body

/-- The place of the first node. -/
def span : Body → Span
  | .nil => ⟨0, 0⟩
  | .text span _ _ | .output span _ _ | .raw span _ _ | .conditional span _ _ _ _ _ => span

/-- The nodes of a body, each as a body of its own. -/
def nodes : Body → List Body
  | .nil => []
  | .text span s rest => .text span s .nil :: rest.nodes
  | .output span e rest => .output span e .nil :: rest.nodes
  | .raw span e rest => .raw span e .nil :: rest.nodes
  | .conditional span negated e thenBranch elseBranch rest =>
    .conditional span negated e thenBranch elseBranch .nil :: rest.nodes

/-- The nodes of a body and of all branches in it. -/
def everyNode : Body → List Body
  | .nil => []
  | .text span s rest => .text span s .nil :: rest.everyNode
  | .output span e rest => .output span e .nil :: rest.everyNode
  | .raw span e rest => .raw span e .nil :: rest.everyNode
  | .conditional span negated e thenBranch elseBranch rest =>
    .conditional span negated e thenBranch elseBranch .nil ::
      (thenBranch.everyNode ++ elseBranch.everyNode ++ rest.everyNode)

/-- The nodes in the branches of the first node, those of the first branch in front. -/
def children : Body → List Body
  | .conditional _ _ _ thenBranch elseBranch _ => thenBranch.nodes ++ elseBranch.nodes
  | .nil | .text _ _ _ | .output _ _ _ | .raw _ _ _ => []

/-- The token that opens the tag of the first node, and the expression in that tag. -/
def tag? : Body → Option (Token × Located Expr)
  | .output _ e _ => some (.outputOpen, e)
  | .raw _ e _ => some (.rawOpen, e)
  | .conditional _ _ e _ _ _ => some (.blockOpen, e)
  | .nil | .text _ _ _ => none

/-- The nodes of a body are among those at any depth. -/
theorem nodes_subset_everyNode (b : Body) : b.nodes ⊆ b.everyNode := by
  induction b with
  | nil => exact List.Subset.refl _
  | text span s rest ih | output span e rest ih | raw span e rest ih =>
    exact List.cons_subset_cons _ ih
  | conditional span negated e x y rest _ _ ih =>
    exact List.cons_subset_cons _ (List.Subset.trans ih (List.subset_append_right _ _))

end Body

namespace Grammar

variable {ts us es inner : List (Located Token)} {t u : Located Token} {b n m : Body} {span : Span}

/-- The tokens of one node, and what they describe. -/
inductive Node : List (Located Token) → Body → Prop
  | text {p : Span} {s : String} : Node [⟨.text s, p⟩] (.text p s .nil)
  | output {p q : Span} {es : List (Located Token)} {e : Expr} :
      Expression es e →
      Node (⟨.outputOpen, p⟩ :: es ++ [⟨.tagClose, q⟩])
        (.output ⟨p.start, q.stop⟩ ⟨e, extent es⟩ .nil)
  | raw {p q : Span} {es : List (Located Token)} {e : Expr} :
      Expression es e →
      Node (⟨.rawOpen, p⟩ :: es ++ [⟨.tagClose, q⟩]) (.raw ⟨p.start, q.stop⟩ ⟨e, extent es⟩ .nil)
  | conditional {p q r x y z : Span} {negated : Bool} {es xs : List (Located Token)} {e : Expr}
      {thenBranch : Body} :
      Expression es e → Nodes xs thenBranch →
      Node (⟨.blockOpen, p⟩ :: ⟨opening negated, q⟩ :: es ++ ⟨.tagClose, r⟩ :: xs ++
          mark .kwEnd x y z)
        (.conditional ⟨p.start, z.stop⟩ negated ⟨e, extent es⟩ thenBranch .nil .nil)
  | alternative {p q r u v w x y z : Span} {negated : Bool} {es xs ys : List (Located Token)}
      {e : Expr} {thenBranch elseBranch : Body} :
      Expression es e → Nodes xs thenBranch → Nodes ys elseBranch →
      Node (⟨.blockOpen, p⟩ :: ⟨opening negated, q⟩ :: es ++ ⟨.tagClose, r⟩ :: xs ++
          mark .kwElse u v w ++ ys ++ mark .kwEnd x y z)
        (.conditional ⟨p.start, z.stop⟩ negated ⟨e, extent es⟩ thenBranch elseBranch .nil)

/-- One node is a template. -/
theorem Node.nodes (h : Node us n) : Nodes us n := by
  cases h with
  | text => exact .text .nil
  | output he => exact .output he .nil
  | raw he => exact .raw he .nil
  | @conditional p q r x y z negated _ _ _ _ he hx =>
    have hnodes := @Nodes.conditional p q r x y z negated _ _ _ _ _ _ he hx .nil
    rwa [List.append_nil] at hnodes
  | @alternative p q r u v w x y z negated _ _ _ _ _ _ he hx hy =>
    have hnodes := @Nodes.alternative p q r u v w x y z negated _ _ _ _ _ _ _ _ he hx hy .nil
    rwa [List.append_nil] at hnodes

/-- A node at any depth has tokens of its own among those of the template, next to one another. -/
theorem Nodes.exists_node (h : Nodes ts b) (hn : n ∈ b.everyNode) :
    ∃ us, us <:+: ts ∧ Node us n := by
  induction h with
  | nil => cases hn
  | @text p s ts _ _ ih =>
    rcases List.mem_cons.1 hn with rfl | hn
    · exact ⟨_, (List.prefix_append [_] ts).isInfix, .text⟩
    · obtain ⟨us, hus, hnode⟩ := ih hn
      exact ⟨us, hus.trans (List.suffix_cons _ ts).isInfix, hnode⟩
  | output he _ ih =>
    rw [List.append_cons]
    rcases List.mem_cons.1 hn with rfl | hn
    · exact ⟨_, (List.prefix_append _ _).isInfix, .output he⟩
    · obtain ⟨us, hus, hnode⟩ := ih hn
      exact ⟨us, hus.trans (List.suffix_append _ _).isInfix, hnode⟩
  | raw he _ ih =>
    rw [List.append_cons]
    rcases List.mem_cons.1 hn with rfl | hn
    · exact ⟨_, (List.prefix_append _ _).isInfix, .raw he⟩
    · obtain ⟨us, hus, hnode⟩ := ih hn
      exact ⟨us, hus.trans (List.suffix_append _ _).isInfix, hnode⟩
  | @conditional p q r x y z negated es xs ts _ _ _ he hx _ ihx ih =>
    simp only [Body.everyNode, List.append_nil, List.mem_cons, List.mem_append] at hn
    rcases hn with rfl | hn | hn
    · exact ⟨_, (List.prefix_append _ _).isInfix, .conditional he hx⟩
    · obtain ⟨us, hus, hnode⟩ := ihx hn
      refine ⟨us, hus.trans ⟨⟨.blockOpen, p⟩ :: ⟨opening negated, q⟩ :: es ++ [⟨.tagClose, r⟩],
        mark .kwEnd x y z ++ ts, ?_⟩, hnode⟩
      simp
    · obtain ⟨us, hus, hnode⟩ := ih hn
      exact ⟨us, hus.trans (List.suffix_append _ _).isInfix, hnode⟩
  | @alternative p q r u v w x y z negated es xs ys ts _ _ _ _ he hx hy _ ihx ihy ih =>
    simp only [Body.everyNode, List.mem_cons, List.mem_append] at hn
    rcases hn with rfl | (hn | hn) | hn
    · exact ⟨_, (List.prefix_append _ _).isInfix, .alternative he hx hy⟩
    · obtain ⟨us, hus, hnode⟩ := ihx hn
      refine ⟨us, hus.trans ⟨⟨.blockOpen, p⟩ :: ⟨opening negated, q⟩ :: es ++ [⟨.tagClose, r⟩],
        mark .kwElse u v w ++ ys ++ mark .kwEnd x y z ++ ts, ?_⟩, hnode⟩
      simp
    · obtain ⟨us, hus, hnode⟩ := ihy hn
      refine ⟨us, hus.trans ⟨⟨.blockOpen, p⟩ :: ⟨opening negated, q⟩ :: es ++ ⟨.tagClose, r⟩ :: xs ++
        mark .kwElse u v w, mark .kwEnd x y z ++ ts, ?_⟩, hnode⟩
      simp
    · obtain ⟨us, hus, hnode⟩ := ih hn
      exact ⟨us, hus.trans (List.suffix_append _ _).isInfix, hnode⟩

/-! ### Places of nodes -/

/-- A node is a text, which is one token, or it begins with a token that opens a tag and ends with one
that closes a tag, and the nodes in its branches have their tokens in between. -/
theorem Node.text_or_tag (h : Node us n) :
    (∃ p s, us = [⟨.text s, p⟩] ∧ n = .text p s .nil) ∨
      ∃ o p inner q, us = ⟨o, p⟩ :: inner ++ [⟨.tagClose, q⟩] ∧ o.isOpener = true ∧
        n.span = ⟨p.start, q.stop⟩ ∧ ∀ m ∈ n.children, ∃ ws, ws ⊆ inner ∧ Node ws m := by
  cases h with
  | text => exact .inl ⟨_, _, rfl, rfl⟩
  | output he => exact .inr ⟨_, _, _, _, rfl, rfl, rfl, nofun⟩
  | raw he => exact .inr ⟨_, _, _, _, rfl, rfl, rfl, nofun⟩
  | @conditional p q r x y z negated es xs _ branch he hx =>
    refine .inr ⟨.blockOpen, p, ⟨opening negated, q⟩ :: es ++ ⟨.tagClose, r⟩ :: xs ++
      [⟨.blockOpen, x⟩, ⟨.kwEnd, y⟩], z, by simp [mark], rfl, rfl, fun m hm => ?_⟩
    rw [Body.children, Body.nodes, List.append_nil] at hm
    obtain ⟨ws, hws, hnode⟩ := hx.exists_node (branch.nodes_subset_everyNode hm)
    exact ⟨ws, fun t ht => by simp [hws.subset ht], hnode⟩
  | @alternative p q r u v w x y z negated es xs ys _ first second he hx hy =>
    refine .inr ⟨.blockOpen, p, ⟨opening negated, q⟩ :: es ++ ⟨.tagClose, r⟩ :: xs ++
      mark .kwElse u v w ++ ys ++ [⟨.blockOpen, x⟩, ⟨.kwEnd, y⟩], z, by simp [mark], rfl, rfl,
      fun m hm => ?_⟩
    rcases List.mem_append.1 hm with hm | hm
    · obtain ⟨ws, hws, hnode⟩ := hx.exists_node (first.nodes_subset_everyNode hm)
      exact ⟨ws, fun t ht => by simp [hws.subset ht], hnode⟩
    · obtain ⟨ws, hws, hnode⟩ := hy.exists_node (second.nodes_subset_everyNode hm)
      exact ⟨ws, fun t ht => by simp [hws.subset ht], hnode⟩

/-- A node lies within its tokens. -/
theorem Node.within (h : Node us n) : Within us n.span := by
  rcases h.text_or_tag with ⟨p, s, rfl, rfl⟩ | ⟨o, p, inner, q, rfl, -, hspan, -⟩
  · exact ⟨⟨_, List.mem_singleton_self _, rfl⟩, _, List.mem_singleton_self _, rfl⟩
  · rw [hspan]
    exact ⟨⟨⟨o, p⟩, by simp, rfl⟩, ⟨.tagClose, q⟩, by simp, rfl⟩

/-- A node of a template lies within the tokens of the template. -/
theorem Nodes.within_of_mem (h : Nodes ts b) (hn : n ∈ b.nodes) : Within ts n.span := by
  obtain ⟨us, hus, hnode⟩ := h.exists_node (b.nodes_subset_everyNode hn)
  exact hnode.within.mono hus.subset

/-- What lies within tokens ends before what lies within tokens behind them begins. -/
theorem Within.stop_le_start {front behind : Span} (hf : Within ts front) (hb : Within us behind)
    (h : InOrder (ts ++ us)) : front.stop ≤ behind.start := by
  obtain ⟨-, t, ht, hstop⟩ := hf
  obtain ⟨⟨u, hu, hstart⟩, -⟩ := hb
  rw [hstop, hstart]
  exact (List.pairwise_append.1 h).2.2 t ht u hu

/-- The nodes follow one another. -/
def InSequence (nodes : List Body) : Prop := nodes.Pairwise fun m n => m.span.stop ≤ n.span.start

/-- A node comes before those of a template behind it. -/
theorem Node.inSequence_cons (hn : Node us n) (hb : Nodes ts b) (h : InOrder (us ++ ts))
    (ih : InOrder ts → InSequence b.nodes) : InSequence (n :: b.nodes) :=
  .cons (fun _ hm => hn.within.stop_le_start (hb.within_of_mem hm) h) (ih h.right)

/-- The nodes of a template follow one another. -/
theorem Nodes.inSequence_nodes (h : Nodes ts b) (ho : InOrder ts) : InSequence b.nodes := by
  induction h with
  | nil => exact .nil
  | @text p s ts rest hr ih =>
    have hn : Node [⟨.text s, p⟩] (.text p s .nil) := .text
    exact hn.inSequence_cons hr ho ih
  | output he hr ih =>
    rw [List.append_cons] at ho
    exact (Node.output he).inSequence_cons hr ho ih
  | raw he hr ih =>
    rw [List.append_cons] at ho
    exact (Node.raw he).inSequence_cons hr ho ih
  | conditional he hx hr _ ih => exact (Node.conditional he hx).inSequence_cons hr ho ih
  | alternative he hx hy hr _ _ ih => exact (Node.alternative he hx hy).inSequence_cons hr ho ih

/-- The nodes in the branches of a node follow one another, those of the first branch in front. -/
theorem Node.inSequence_children (h : Node us n) (ho : InOrder us) : InSequence n.children := by
  cases h with
  | text => exact .nil
  | output => exact .nil
  | raw => exact .nil
  | @conditional p q r x y z negated es xs _ _ he hx =>
    rw [Body.children, Body.nodes, List.append_nil]
    exact hx.inSequence_nodes ho.left.right.tail
  | @alternative p q r u v w x y z negated es xs ys _ _ _ he hx hy =>
    have hbranches := ho.left
    refine List.pairwise_append.2 ⟨hx.inSequence_nodes hbranches.left.left.right.tail,
      hy.inSequence_nodes hbranches.right, fun m hm k hk => ?_⟩
    have hfront : Within (⟨.blockOpen, p⟩ :: ⟨opening negated, q⟩ :: es ++ ⟨.tagClose, r⟩ :: xs ++
        mark .kwElse u v w) m.span :=
      (hx.within_of_mem hm).mono fun t ht => by simp [ht]
    exact hfront.stop_le_start (hy.within_of_mem hk) hbranches

/-- Tokens that take bytes each and follow one another. -/
structure Placed (ts : List (Located Token)) : Prop where
  inOrder : InOrder ts
  start_lt_stop : ∀ t ∈ ts, t.span.start < t.span.stop

theorem Placed.sublist (h : Placed ts) (hsub : us.Sublist ts) : Placed us :=
  ⟨h.inOrder.sublist hsub, fun t ht => h.start_lt_stop t (hsub.subset ht)⟩

/-- What lies within tokens between two others lies strictly between the ends of these. -/
theorem Placed.inside (h : Placed (t :: ts ++ [u])) (hspan : Within ts span) :
    t.span.start < span.start ∧ span.stop < u.span.stop := by
  obtain ⟨⟨x, hx, hstart⟩, y, hy, hstop⟩ := hspan
  obtain ⟨hinit, -, hlast⟩ := List.pairwise_append.1 h.inOrder
  have ht := h.start_lt_stop t (by simp)
  have hu := h.start_lt_stop u (by simp)
  have htx := (List.pairwise_cons.1 hinit).1 x hx
  have hyu := hlast y (List.mem_cons_of_mem t hy) u (List.mem_singleton_self u)
  omega

/-- The first of some tokens begins before any of them ends. -/
theorem Placed.start_lt_stop_of_mem (h : Placed (t :: ts)) (hu : u ∈ t :: ts) :
    t.span.start < u.span.stop := by
  have ht := h.start_lt_stop t List.mem_cons_self
  rcases List.mem_cons.1 hu with rfl | hmem
  · exact ht
  · have htu := (List.pairwise_cons.1 h.inOrder).1 u hmem
    have hlt := h.start_lt_stop u hu
    omega

/-- Tokens take some bytes together. -/
theorem Placed.extent_lt (h : Placed ts) (hne : ts ≠ []) :
    (extent ts).start < (extent ts).stop := by
  cases ts with
  | nil => exact absurd rfl hne
  | cons t ts =>
    have hlast := h.start_lt_stop_of_mem (List.getLast_mem hne)
    rwa [extent, List.head?_cons, List.getLast?_eq_some_getLast hne]

/-- A node takes some bytes. -/
theorem Node.start_lt_stop (h : Node us n) (hus : Placed us) : n.span.start < n.span.stop := by
  rcases h.text_or_tag with ⟨p, s, rfl, rfl⟩ | ⟨o, p, inner, q, rfl, -, hspan, -⟩
  · exact hus.start_lt_stop _ (List.mem_singleton_self _)
  · rw [hspan]
    exact hus.start_lt_stop_of_mem (u := ⟨.tagClose, q⟩) (by simp)

/-- No token of a node ends behind the node. -/
theorem Node.stop_le_of_mem (h : Node us n) (hus : Placed us) (ht : t ∈ us) :
    t.span.stop ≤ n.span.stop := by
  rcases h.text_or_tag with ⟨p, s, rfl, rfl⟩ | ⟨o, p, inner, q, rfl, -, hspan, -⟩
  · obtain rfl := List.mem_singleton.1 ht
    exact Nat.le_refl _
  · rw [hspan]
    rcases List.mem_append.1 ht with hfront | hlast
    · have hlt := hus.start_lt_stop ⟨.tagClose, q⟩ (by simp)
      have hle := (List.pairwise_append.1 hus.inOrder).2.2 t hfront ⟨.tagClose, q⟩
        (List.mem_singleton_self _)
      exact Nat.le_trans hle (Nat.le_of_lt hlt)
    · obtain rfl := List.mem_singleton.1 hlast
      exact Nat.le_refl _

/-- The nodes in the branches of a node lie inside it. -/
theorem Node.children_inside (h : Node us n) (hus : Placed us) (hm : m ∈ n.children) :
    n.span.start < m.span.start ∧ m.span.stop < n.span.stop := by
  rcases h.text_or_tag with ⟨p, s, rfl, rfl⟩ | ⟨o, p, inner, q, rfl, -, hspan, hchildren⟩
  · cases hm
  · obtain ⟨ws, hws, hnode⟩ := hchildren m hm
    rw [hspan]
    exact hus.inside (hnode.within.mono hws)

/-- An expression has tokens. -/
theorem Expression.ne_nil {e : Expr} (h : Expression es e) : es ≠ [] := by
  rintro rfl
  exact h.isInner.1 rfl

/-- No token of an expression closes a tag. -/
theorem Expression.ne_tagClose {e : Expr} (h : Expression es e) : ∀ t ∈ es, t.item ≠ .tagClose := by
  intro t ht hclose
  have hinner := h.isInner.2 t.item (List.mem_map_of_mem ht)
  rw [hclose] at hinner
  cases hinner

/-- The expression of a node stands in the tag with which the node begins, at most behind a keyword. -/
theorem Node.exists_tag {o : Token} {e : Located Expr} (h : Node us n) (he : n.tag? = some (o, e)) :
    ∃ p before es q after, us = ⟨o, p⟩ :: (before ++ es ++ ⟨.tagClose, q⟩ :: after) ∧
      (∀ t ∈ before ++ es, t.item ≠ .tagClose) ∧ p.start = n.span.start ∧
      Expression es e.item ∧ e.span = extent es := by
  have hopening : ∀ (negated : Bool), opening negated ≠ .tagClose := by
    intro negated
    cases negated <;> nofun
  cases h with
  | text => cases he
  | @output p q es _ hx | @raw p q es _ hx =>
    cases he
    exact ⟨p, [], es, q, [], rfl, hx.ne_tagClose, rfl, hx, rfl⟩
  | @conditional p q r x y z negated es xs _ _ hx =>
    cases he
    refine ⟨p, [⟨opening negated, q⟩], es, r, xs ++ mark .kwEnd x y z, by simp, ?_, rfl, hx, rfl⟩
    exact List.forall_mem_cons.2 ⟨hopening negated, hx.ne_tagClose⟩
  | @alternative p q r u v w x y z negated es xs ys _ _ _ hx =>
    cases he
    refine ⟨p, [⟨opening negated, q⟩], es, r, xs ++ mark .kwElse u v w ++ ys ++ mark .kwEnd x y z,
      by simp, ?_, rfl, hx, rfl⟩
    exact List.forall_mem_cons.2 ⟨hopening negated, hx.ne_tagClose⟩

/-- The place of an expression is between the token that opens its tag and the one that closes it. -/
theorem Node.expression_between {o : Token} {e : Located Expr} (h : Node us n) (hus : Placed us)
    (he : n.tag? = some (o, e)) :
    ∃ p inner q after, us = ⟨o, p⟩ :: (inner ++ ⟨.tagClose, q⟩ :: after) ∧
      (∀ t ∈ inner, t.item ≠ .tagClose) ∧ p.start = n.span.start ∧ p.stop ≤ e.span.start ∧
      e.span.start < e.span.stop ∧ e.span.stop ≤ q.start ∧ q.stop ≤ n.span.stop := by
  obtain ⟨p, before, es, q, after, htokens, hinner, hstart, hx, hspan⟩ := h.exists_tag he
  have hstop : q.stop ≤ n.span.stop :=
    h.stop_le_of_mem hus (t := ⟨.tagClose, q⟩) (by simp [htokens])
  rw [htokens] at hus
  have hlt : e.span.start < e.span.stop := by
    rw [hspan]
    exact (hus.sublist (List.Sublist.cons _
      ((List.sublist_append_right before es).trans (List.sublist_append_left _ _)))).extent_lt hx.ne_nil
  have hwithin : Within es e.span := by
    rw [hspan]
    exact hx.listed.within ⟨e.item, extent es⟩ (List.mem_singleton_self _)
  -- The expression begins with a token behind the first one, and ends with one before the closing one.
  obtain ⟨⟨t, ht, htstart⟩, u, hu, hustop⟩ := hwithin
  obtain ⟨hopen, hrest⟩ := List.pairwise_cons.1 hus.inOrder
  have hclose := (List.pairwise_append.1 hrest).2.2
  refine ⟨p, before ++ es, q, after, htokens, hinner, hstart, ?_, hlt, ?_, hstop⟩
  · rw [htstart]
    exact hopen t (by simp [ht])
  · rw [hustop]
    exact hclose u (by simp [hu]) ⟨.tagClose, q⟩ List.mem_cons_self

end Grammar

end Stencil
