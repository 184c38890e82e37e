import Stencil.Proofs.Rendering.Evaluated

/-!
# What a rendering depends on

A template reads the attributes that its paths begin with, and no others. Main statements:
`Comparison.pieces`, by which what a body prints in two scopes is related in whatever way the values of
these attributes are, and `rendering_reads_mentioned_attributes`, which is about equality and about
attributes that are added.
-/

namespace Stencil

/-- The attribute that an operand reads: the first segment of a path, unless that is the whole path and
names the content. -/
def Operand.attribute? : Operand → Option String
  | .str _ | .int _ => none
  | .path root steps => if root = contentName ∧ steps = [] then none else some root

/-- The attributes that an expression reads. -/
def Expr.attributes (e : Expr) : List String := e.operands.filterMap Operand.attribute?

/-- The attributes that a body mentions, in both branches of its conditionals. -/
def Body.attributes (b : Body) : List String := b.expressions.flatMap fun e => e.item.attributes

/-- A relation between what is computed in two ways that holds of equal computations and of those that
consist of related steps. -/
structure Comparison (R : ∀ {α : Type}, Except Failure α → Except Failure α → Prop) : Prop where
  refl {α : Type} (x : Except Failure α) : R x x
  bind {α β : Type} {x y : Except Failure α} {f g : α → Except Failure β} :
    R x y → (∀ a, R (f a) (g a)) → R (x >>= f) (y >>= g)

/-- Equality is such a relation. -/
theorem comparison_eq : Comparison fun x y => x = y where
  refl _ := rfl
  bind hx hf := by
    rw [hx, funext hf]

/-- That the first computation succeeds only with the result of the second is such a relation. -/
theorem comparison_ok : Comparison fun x y => ∀ a, x = .ok a → y = .ok a where
  refl _ _ h := h
  bind hx hf c h := by
    obtain ⟨a, ha, hc⟩ := bind_eq_ok.1 h
    exact bind_eq_ok.2 ⟨a, hx a ha, hf a c hc⟩

section Comparison

variable {R : ∀ {α : Type}, Except Failure α → Except Failure α → Prop} {names : List String}
  {s s' : Scope}

/-- Two scopes with the same content and routes, in which paths that begin with one of the names lead
to related results. -/
structure Scope.Related (R : ∀ {α : Type}, Except Failure α → Except Failure α → Prop)
    (names : List String) (s s' : Scope) : Prop where
  content : s.content = s'.content
  routes : s.routes = s'.routes
  lookup : ∀ name ∈ names, ∀ steps, R (s.lookup (name :: steps)) (s'.lookup (name :: steps))

/-- Scopes that are related by some names are related by fewer. -/
theorem Scope.Related.mono {fewer : List String} (h : s.Related R names s') (hsub : fewer ⊆ names) :
    s.Related R fewer s' :=
  ⟨h.content, h.routes, fun name hname => h.lookup name (hsub hname)⟩

namespace Comparison

/-- A result can be changed at the end. -/
theorem map {α β : Type} {x y : Except Failure α} (hR : Comparison R) (h : R x y) (f : α → β) :
    R (x.map f) (y.map f) := by
  have hmap : ∀ z : Except Failure α, z.map f = z >>= fun a => .ok (f a) := by
    intro z
    cases z <;> rfl
  rw [hmap, hmap]
  exact hR.bind h fun a => hR.refl _

/-- Operands come to related results. -/
theorem operand (hR : Comparison R) {o : Operand} (h : s.Related R o.attribute?.toList s') :
    R (o.eval s) (o.eval s') := by
  cases o with
  | str t => exact hR.refl _
  | int n => exact hR.refl _
  | path root steps =>
    rw [Operand.eval, Operand.eval]
    by_cases hbare : root = contentName ∧ steps = []
    · rw [if_pos hbare, if_pos hbare, h.content]
      exact hR.refl _
    · have hroot : root ∈ (Operand.path root steps).attribute?.toList := by
        simp [Operand.attribute?, hbare]
      rw [if_neg hbare, if_neg hbare]
      exact hR.map (h.lookup root hroot steps) _

/-- So do operands one after another. -/
theorem operands (hR : Comparison R) {os : List Operand}
    (h : s.Related R (os.filterMap Operand.attribute?) s') :
    R (Operand.evalAll s os) (Operand.evalAll s' os) := by
  induction os with
  | nil => exact hR.refl _
  | cons o os ih =>
    have hfirst : o.attribute?.toList ⊆ (o :: os).filterMap Operand.attribute? := by
      intro name hname
      exact List.mem_filterMap.2 ⟨o, List.mem_cons_self, Option.mem_toList.1 hname⟩
    have hrest : os.filterMap Operand.attribute? ⊆ (o :: os).filterMap Operand.attribute? :=
      List.filterMap_subset _ (List.subset_cons_self o os)
    refine hR.bind (hR.operand (h.mono hfirst)) fun r => ?_
    exact hR.bind (ih (h.mono hrest)) fun rs => hR.refl _

/-- A helper has nothing of the scope but its routes. -/
theorem apply_eq (h : s.routes = s'.routes) (helper : Helper) (first : Result)
    (others : List Result) : helper.apply s first others = helper.apply s' first others := by
  cases helper with
  | url => rw [Helper.apply, Helper.apply, h]
  | upcase => rfl
  | downcase => rfl
  | default => rfl

/-- Expressions come to related results. -/
theorem expression (hR : Comparison R) {e : Expr} (h : s.Related R e.attributes s') :
    R (e.eval s) (e.eval s') := by
  cases e with
  | operand o =>
    refine hR.operand (h.mono fun name hname => ?_)
    exact List.mem_filterMap.2 ⟨o, List.mem_singleton_self o, Option.mem_toList.1 hname⟩
  | call name args =>
    refine hR.bind (hR.operands h) fun results => ?_
    cases Helper.ofName? name with
    | none => exact hR.refl _
    | some helper =>
      simp only [apply_eq h.routes]
      exact hR.refl _

/-- Bodies print related pieces. -/
theorem pieces (hR : Comparison R) {b : Body} (h : s.Related R b.attributes s') :
    R (b.pieces s) (b.pieces s') := by
  induction b with
  | nil => exact hR.refl _
  | text span t rest ih => exact hR.bind (ih h) fun more => hR.refl _
  | output span e rest ih | raw span e rest ih =>
    have hexpr : s.Related R e.item.attributes s' := h.mono (List.subset_append_left _ _)
    have hrest : s.Related R rest.attributes s' := h.mono (List.subset_append_right _ _)
    refine hR.bind (hR.expression hexpr) fun r => ?_
    exact hR.bind (ih hrest) fun more => hR.refl _
  | conditional span negated e thenBranch elseBranch rest ihx ihy ih =>
    have hparts : (Body.conditional span negated e thenBranch elseBranch rest).attributes =
        e.item.attributes ++ thenBranch.attributes ++ elseBranch.attributes ++ rest.attributes := by
      simp [Body.attributes, Body.expressions]
    rw [hparts] at h
    have hrest : s.Related R rest.attributes s' := h.mono (List.subset_append_right _ _)
    have hbranches := h.mono (List.subset_append_left _ _)
    have helse : s.Related R elseBranch.attributes s' :=
      hbranches.mono (List.subset_append_right _ _)
    have hfirst := hbranches.mono (List.subset_append_left _ _)
    have hthen : s.Related R thenBranch.attributes s' := hfirst.mono (List.subset_append_right _ _)
    have hexpr : s.Related R e.item.attributes s' := hfirst.mono (List.subset_append_left _ _)
    refine hR.bind (hR.expression hexpr) fun r => ?_
    -- The condition has one result, so that both scopes take the same branch.
    by_cases htaken : (r.isTruthy != negated) = true
    · simp only [if_pos htaken]
      exact hR.bind (ihx hthen) fun branch => hR.bind (ih hrest) fun more => hR.refl _
    · simp only [if_neg htaken]
      exact hR.bind (ihy helse) fun branch => hR.bind (ih hrest) fun more => hR.refl _

end Comparison

end Comparison

/-- A template that has been compiled is rendered to the same result, or fails in the same way, if the
attributes that it mentions have the same values or are missing as before. If it succeeds then it gives
the same markup when there are more attributes. -/
theorem rendering_reads_mentioned_attributes (source kind : String) (f : Routine)
    (h : Handler.html.call ⟨source, kind⟩ = .ok f) :
    ∃ b, parse source = .ok b ∧ ∀ (scope : Scope) (others : Attributes),
      ((∀ name ∈ b.attributes, others.find? name = scope.attributes.find? name) →
        f { scope with attributes := others } = f scope) ∧
      ((∀ name v, scope.attributes.find? name = some v → others.find? name = some v) →
        ∀ m, f scope = .ok m → f { scope with attributes := others } = .ok m) := by
  obtain ⟨b, hb, -, rfl⟩ := Handler.compileHtml_eq_ok.1 h
  refine ⟨b, hb, fun scope others => ⟨fun hsame => ?_, fun hmore m hm => ?_⟩⟩
  · have hlookup : scope.Related (fun x y => x = y) b.attributes
        { scope with attributes := others } := by
      refine ⟨rfl, rfl, fun name hname steps => ?_⟩
      rw [Scope.lookup, Scope.lookup, hsame name hname]
    exact congrArg (Except.map Markup.join) (comparison_eq.pieces hlookup).symm
  · have hlookup : scope.Related (fun x y => ∀ a, x = .ok a → y = .ok a) b.attributes
        { scope with attributes := others } := by
      refine ⟨rfl, rfl, fun name _ steps v hv => ?_⟩
      rw [Scope.lookup] at hv ⊢
      cases hfound : scope.attributes.find? name with
      | none =>
        rw [hfound] at hv
        cases hv
      | some found =>
        rw [hmore name found hfound]
        rw [hfound] at hv
        exact hv
    obtain ⟨ps, hps, rfl⟩ := Body.render_eq_ok.1 hm
    exact Body.render_eq_ok.2 ⟨ps, comparison_ok.pieces hlookup ps hps, rfl⟩

/-- What is printed behind a condition need not be there if the condition does not hold, and then may be
there as well; an attribute that has the name of the content is not the content. -/
theorem rendering_reads_condition :
    ∃ f, Handler.html.call
        ⟨"\x7b% if a %\x7d\x7b\x7b b \x7d\x7d\x7b% end %\x7d\x7b\x7b content \x7d\x7d", "html"⟩ = .ok f ∧
      f ⟨"Box", ⟨[("a", .bool true), ("content", .null)]⟩, none, .empty⟩ =
        f ⟨"Box", ⟨[("a", .bool true)]⟩, none, .empty⟩ ∧
      f ⟨"Box", ⟨[("a", .bool false), ("b", .null)]⟩, none, .empty⟩ = .ok ⟨""⟩ := by
  have tokens : tokenize
      "\x7b% if a %\x7d\x7b\x7b b \x7d\x7d\x7b% end %\x7d\x7b\x7b content \x7d\x7d" =
    [⟨.blockOpen, ⟨0, 2⟩⟩, ⟨.kwIf, ⟨3, 5⟩⟩, ⟨.ident "a", ⟨6, 7⟩⟩, ⟨.tagClose, ⟨8, 10⟩⟩,
      ⟨.outputOpen, ⟨10, 12⟩⟩, ⟨.ident "b", ⟨13, 14⟩⟩, ⟨.tagClose, ⟨15, 17⟩⟩,
      ⟨.blockOpen, ⟨17, 19⟩⟩, ⟨.kwEnd, ⟨20, 23⟩⟩, ⟨.tagClose, ⟨24, 26⟩⟩,
      ⟨.outputOpen, ⟨26, 28⟩⟩, ⟨.ident "content", ⟨29, 36⟩⟩, ⟨.tagClose, ⟨37, 39⟩⟩] := by
    decide +kernel
  have parsed : parse
      "\x7b% if a %\x7d\x7b\x7b b \x7d\x7d\x7b% end %\x7d\x7b\x7b content \x7d\x7d" =
    .ok (.conditional ⟨0, 26⟩ false ⟨.operand (.path "a" []), ⟨6, 7⟩⟩
      (.output ⟨10, 17⟩ ⟨.operand (.path "b" []), ⟨13, 14⟩⟩ .nil) .nil
      (.output ⟨26, 39⟩ ⟨.operand (.path "content" []), ⟨29, 36⟩⟩ .nil)) := by
    apply parse_of_nodes
    rw [tokens]
    change Grammar.Nodes (⟨.blockOpen, ⟨0, 2⟩⟩ :: ⟨Grammar.opening false, ⟨3, 5⟩⟩ :: _) _
    exact .conditional (.operand (.path .nil)) (.output (.operand (.path .nil)) .nil)
      (.output (.operand (.path .nil)) .nil)
  have compiled := Handler.compileHtml_eq_ok.2 ⟨_, parsed, rfl, rfl⟩
  obtain ⟨b, hb, hreads⟩ := rendering_reads_mentioned_attributes _ "html" _ compiled
  rw [parsed, Except.ok.injEq] at hb
  subst hb
  refine ⟨_, compiled, ?_, ?_⟩
  · refine (hreads ⟨"Box", ⟨[("a", .bool true)]⟩, none, .empty⟩ _).1 ?_
    intro name hname
    have hmentioned : name = "a" ∨ name = "b" := by
      simpa [Body.attributes, Body.expressions, Expr.attributes, Expr.operands,
        Operand.attribute?, contentName] using hname
    rcases hmentioned with rfl | rfl <;> rfl
  · refine (hreads ⟨"Box", ⟨[("a", .bool false)]⟩, none, .empty⟩ _).2 ?_ _ (by rfl)
    intro name v hfound
    by_cases hname : name = "a"
    · subst hname
      exact hfound
    · rw [Attributes.find?, List.lookup_cons, beq_eq_false_iff_ne.2 hname] at hfound
      cases hfound

end Stencil
