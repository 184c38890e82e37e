import Stencil.Proofs.Printing.Literals
import Stencil.Proofs.Reading.Errors
import Stencil.Proofs.Rendering.Written

/-!
# Paths in templates

A path is looked up by the names of fields and by the positions of items, but in a template it can be
written only by names. Main statement: `named_paths_are_printed`, by which a path of names is printed
as what the lookup gives, and a path with a position in it is refused at the first of them.
-/

namespace Stencil

/-- The template that prints what a path leads to. -/
def pathTemplate (path : List String) : String := outputTemplate (".".intercalate path)

/-- Whether a step is the position of an item, in decimal digits. -/
def isPosition (step : String) : Bool := step != "" && step.toList.all Char.isDigit

section Lookup

variable {v : Value} {step : String}

/-- Nothing stands in a value at a step: an object has no such field, a list has no such position, and
other values hold nothing at all. -/
def Value.Lacks (v : Value) (step : String) : Prop :=
  match v with
  | .obj fields => fields.lookup step = none
  | .arr items => ∀ n, position? step = some n → items.length ≤ n
  | _ => True

/-- A step to where nothing stands leads to null. -/
theorem Value.Lacks.step_eq (h : v.Lacks step) : v.step step = .null := by
  cases v with
  | obj fields =>
    have h : fields.lookup step = none := h
    simp [Value.step, h]
  | arr items =>
    have h : ∀ n, position? step = some n → items.length ≤ n := h
    cases hp : position? step with
    | none => simp [Value.step, hp]
    | some n => simp [Value.step, hp, List.getElem?_eq_none (h n hp)]
  | _ => rfl

/-- Null is all that null leads to. -/
theorem Value.foldl_step_null (steps : List String) :
    steps.foldl Value.step .null = .null := by
  induction steps with
  | nil => rfl
  | cons s steps ih => exact ih

variable {scope : Scope} {root : String} {steps : List String}

/-- The lookup of a path follows its steps from the attribute. -/
theorem Scope.lookup_cons (h : scope.attributes.find? root = some v) (steps : List String) :
    scope.lookup (root :: steps) = .ok (steps.foldl Value.step v) := by
  simp only [lookup, h]

/-- A path leads to null if nothing stands at one of its steps. -/
theorem Scope.lookup_of_lacks {earlier later : List String}
    (h : scope.lookup (root :: earlier) = .ok v) (hlacks : v.Lacks step) :
    scope.lookup (root :: (earlier ++ step :: later)) = .ok .null := by
  cases hroot : scope.attributes.find? root with
  | none =>
    simp only [lookup, hroot] at h
    cases h
  | some u =>
    rw [lookup_cons hroot] at h ⊢
    rw [List.foldl_append, Except.ok.inj h, List.foldl_cons, hlacks.step_eq,
      Value.foldl_step_null]

end Lookup

section Words

variable {root : String} {steps : List String}

/-- The steps of a path, each behind a point. -/
def stepsSource (steps : List String) : List Char := steps.flatMap fun name => '.' :: name.toList

/-- The characters of a path. -/
theorem toList_intercalate_path (root : String) (steps : List String) :
    (".".intercalate (root :: steps)).toList = root.toList ++ stepsSource steps := by
  induction steps generalizing root with
  | nil => simp [stepsSource]
  | cons name steps ih =>
    rw [String.intercalate_cons_cons, String.toList_append, ih]
    simp [stepsSource]

/-- A position is a numeral. -/
theorem isNumeral_of_isPosition {step : String} (h : isPosition step = true) :
    IsNumeral step.toList := by
  simp only [isPosition, Bool.and_eq_true, bne_iff_ne] at h
  obtain ⟨hne, hall⟩ := h
  obtain ⟨c, cs, e⟩ := List.exists_cons_of_ne_nil (mt String.toList_eq_nil_iff.1 hne)
  rw [e, List.all_eq_true, List.forall_mem_cons] at hall
  rw [e]
  exact .digits hall.1 hall.2

/-- A path closes no tag, whether its steps are names or positions. -/
theorem quiet_stepsSource {mark : Char} (hm : mark ∈ ['}', '%'])
    (h : ∀ s ∈ steps, isIdentifier s = true ∨ isPosition s = true) :
    Quiet mark (stepsSource steps) := by
  induction steps with
  | nil => exact quiet_nil
  | cons s steps ih =>
    rw [List.forall_mem_cons] at h
    have hstep : Quiet mark s.toList := by
      rcases h.1 with hs | hs
      · exact quiet_identifier hm hs
      · exact (isNumeral_of_isPosition hs).quiet hm
    exact ((quiet_sign hm (by decide)).append hstep).append (ih h.2)

/-- What follows a step of a path goes on with no word. -/
theorem endsWord_stepsSource (steps : List String) : EndsWord (stepsSource steps ++ [' ']) := by
  cases steps with
  | nil => exact endsWord_blank
  | cons s steps => exact endsWord_cons rfl _

/-- The tokens of a path up to its first position. -/
theorem tagTokens_position {earlier : List String} {position : String}
    (hroot : isIdentifier root = true) (hearlier : ∀ s ∈ earlier, isIdentifier s = true)
    (hposition : isPosition position = true) (later : List String) :
    ∃ more, tagTokens (root.toList ++ stepsSource (earlier ++ position :: later) ++ [' ']) =
      (Expr.operand (.path root earlier)).tokens ++
        .dot :: Lexeme.number position.toList :: more := by
  have hpath : (Expr.operand (.path root earlier)).WellFormed := ⟨hroot, hearlier⟩
  have hchars : root.toList ++ stepsSource (earlier ++ position :: later) ++ [' '] =
      (Expr.operand (.path root earlier)).source ++
        '.' :: (position.toList ++ (stepsSource later ++ [' '])) := by
    simp [stepsSource, Expr.source, Operand.source]
  refine ⟨tagTokens (stepsSource later ++ [' ']), ?_⟩
  rw [hchars, tagTokens_expr hpath (endsWord_cons rfl _), tagTokens_sign (by decide),
    (isNumeral_of_isPosition hposition).tagTokens_append (endsWord_stepsSource later)]
  rfl

end Words

section Templates

variable {root position : String} {steps earlier later : List String}

/-- The template for a path of names is read as the path. -/
theorem isReadFrom_pathTemplate (hroot : isIdentifier root = true)
    (hsteps : ∀ s ∈ steps, isIdentifier s = true) :
    (Body.output ⟨0, 0⟩ ⟨.operand (.path root steps), ⟨0, 0⟩⟩ .nil).IsReadFrom
      (pathTemplate (root :: steps)) := by
  have hpath : (Expr.operand (.path root steps)).WellFormed := ⟨hroot, hsteps⟩
  have hsource : (".".intercalate (root :: steps)).toList =
      (Expr.operand (.path root steps)).source := toList_intercalate_path root steps
  apply isReadFrom_outputTemplate
  · rw [hsource]
    exact quiet_expr TagForm.output.mark_mem hpath
  · rw [hsource, tagTokens_expr hpath endsWord_blank, tagTokens_blank, tagTokens_nil,
      List.append_nil]

/-- No expression goes on behind a point with a number. -/
theorem positionAfter_point_number (call : Bool) (cs : List Char) :
    Grammar.positionAfter (.point call) (Lexeme.number cs) = none := by
  rw [Lexeme.number]
  split <;> rfl

/-- The template for a path with a position in it is refused at the first position. -/
theorem parse_pathTemplate_eq_error (hroot : isIdentifier root = true)
    (hearlier : ∀ s ∈ earlier, isIdentifier s = true) (hposition : isPosition position = true)
    (hlater : ∀ s ∈ later, isIdentifier s = true ∨ isPosition s = true) :
    ∃ e, parse (pathTemplate (root :: (earlier ++ position :: later))) = .error e ∧
      e.found = some (Lexeme.number position.toList) := by
  have hsteps : ∀ s ∈ earlier ++ position :: later, isIdentifier s = true ∨ isPosition s = true := by
    simp only [List.forall_mem_append, List.forall_mem_cons]
    exact ⟨fun s hs => .inl (hearlier s hs), .inr hposition, hlater⟩
  have hquiet : Quiet TagForm.output.mark
      (root.toList ++ stepsSource (earlier ++ position :: later)) :=
    (quiet_identifier (by decide) hroot).append (quiet_stepsSource (by decide) hsteps)
  obtain ⟨more, hmore⟩ := tagTokens_position hroot hearlier hposition later
  have hitems : Grammar.items (tokenize (pathTemplate (root :: (earlier ++ position :: later)))) =
      .outputOpen :: ((Expr.operand (.path root earlier)).tokens ++
        .dot :: Lexeme.number position.toList :: (more ++ [.tagClose])) := by
    have h := sourceTokens_around hquiet []
    rw [List.append_nil] at h
    rw [items_tokenize, pathTemplate, toList_outputTemplate, toList_intercalate_path, h, hmore]
    simp [Lexeme.openToken, sourceTokens_eq]
  -- The tokens of the source, with their places: the reader goes through those before the position,
  -- and has no way on there.
  obtain ⟨p, ts, htokens, h₁⟩ := Grammar.items_eq_cons hitems
  obtain ⟨es, us, rfl, hes, h₂⟩ := Grammar.items_eq_append h₁
  obtain ⟨q, us, rfl, h₃⟩ := Grammar.items_eq_cons h₂
  obtain ⟨r, us, rfl, -⟩ := Grammar.items_eq_cons h₃
  have hrun : Grammar.Progress.run .start (⟨.outputOpen, p⟩ :: es ++ [⟨.dot, q⟩]) =
      some ⟨[], .point false⟩ := by
    have hexpr : Grammar.Progress.run ⟨[], .expression⟩ es = _ :=
      (Grammar.expression_of_items hes).advance
    rw [List.cons_append, Grammar.Progress.run_cons]
    show Grammar.Progress.run ⟨[], .expression⟩ (es ++ [⟨.dot, q⟩]) = _
    rw [Grammar.Progress.run_append, hexpr]
    cases earlier <;> rfl
  have hstep : Grammar.Progress.step ⟨[], .point false⟩ (Lexeme.number position.toList) = none := by
    rw [Reader.step_of_ne_keyword (by decide), positionAfter_point_number]
    rfl
  have hsplit : tokenize (pathTemplate (root :: (earlier ++ position :: later))) =
      (⟨.outputOpen, p⟩ :: es ++ [⟨.dot, q⟩]) ++ ⟨Lexeme.number position.toList, r⟩ :: us := by
    rw [htokens, List.cons_append, List.cons_append, List.append_assoc]
    rfl
  obtain ⟨e, he, -, hfound⟩ := SyntaxError.exists_parse_eq_error hsplit hrun hstep
  exact ⟨e, he, hfound⟩

/-- Steps are all names, or some of them come before the first position. -/
theorem names_or_exists_position (h : ∀ s ∈ steps, isIdentifier s = true ∨ isPosition s = true) :
    (∀ s ∈ steps, isIdentifier s = true) ∨
      ∃ earlier position later, steps = earlier ++ position :: later ∧
        (∀ s ∈ earlier, isIdentifier s = true) ∧ isPosition position = true := by
  induction steps with
  | nil => exact .inl (List.forall_mem_nil _)
  | cons s steps ih =>
    rw [List.forall_mem_cons] at h
    rcases h.1 with hs | hs
    · rcases ih h.2 with hall | ⟨earlier, position, later, rfl, hearlier, hposition⟩
      · exact .inl (List.forall_mem_cons.2 ⟨hs, hall⟩)
      · exact .inr ⟨s :: earlier, position, later, rfl, List.forall_mem_cons.2 ⟨hs, hearlier⟩,
          hposition⟩
    · exact .inr ⟨[], s, steps, rfl, List.forall_mem_nil _, hs⟩

/-- The template for a path with a position in it does not compile. -/
theorem compileHtml_pathTemplate_eq_error (hroot : isIdentifier root = true)
    (hearlier : ∀ s ∈ earlier, isIdentifier s = true) (hposition : isPosition position = true)
    (hlater : ∀ s ∈ later, isIdentifier s = true ∨ isPosition s = true) :
    ∃ e, Handler.compileHtml (pathTemplate (root :: (earlier ++ position :: later))) =
        .error (.malformed "" (pathTemplate (root :: (earlier ++ position :: later))) e) ∧
      e.found = some (Lexeme.number position.toList) := by
  obtain ⟨e, hparse, hfound⟩ := parse_pathTemplate_eq_error hroot hearlier hposition hlater
  refine ⟨e, ?_, hfound⟩
  simp only [Handler.compileHtml, hparse]

/-- The template for a path of names prints the text of what the path leads to. -/
theorem compileHtml_pathTemplate (hroot : isIdentifier root = true)
    (hsteps : ∀ s ∈ steps, isIdentifier s = true) (hpath : ¬ (root = contentName ∧ steps = [])) :
    ∃ routine, Handler.compileHtml (pathTemplate (root :: steps)) = .ok routine ∧
      ∀ scope w, scope.lookup (root :: steps) = .ok w → routine scope = .ok (.ofText w.text) := by
  obtain ⟨routine, hroutine, hrender⟩ :=
    (isReadFrom_pathTemplate hroot hsteps).compiles rfl
  refine ⟨routine, hroutine, fun scope w hw => ?_⟩
  have heval : (Expr.operand (.path root steps)).eval scope = .ok (.value w) := by
    rw [Expr.eval, Operand.eval, if_neg hpath, hw]
    rfl
  rw [hrender, render_single heval]
  rfl

end Templates

/-- A path that begins with a name, and whose steps are names or positions, can be printed by a template
if and only if all its steps are names. Then the template compiles, and wherever the attribute is there
it prints the escaped text of the value that the lookup of the path yields, which is nothing at all if
nothing stands at one of the steps. Else the first position is refused as a syntax error. The bare path
`content` is none of these: it prints what was captured. -/
theorem named_paths_are_printed (root : String) (steps : List String)
    (hroot : isIdentifier root = true)
    (hsteps : ∀ s ∈ steps, isIdentifier s = true ∨ isPosition s = true)
    (hpath : ¬ (root = contentName ∧ steps = [])) :
    ((∃ routine, Handler.compileHtml (pathTemplate (root :: steps)) = .ok routine) ↔
      ∀ s ∈ steps, isIdentifier s = true) ∧
    (∀ routine, Handler.compileHtml (pathTemplate (root :: steps)) = .ok routine →
      ∀ scope v, scope.attributes.find? root = some v →
        (∃ w, scope.lookup (root :: steps) = .ok w ∧ routine scope = .ok (.ofText w.text)) ∧
        ∀ earlier step later u, steps = earlier ++ step :: later →
          scope.lookup (root :: earlier) = .ok u → u.Lacks step → routine scope = .ok ⟨""⟩) ∧
    ∀ earlier position later, steps = earlier ++ position :: later →
      (∀ s ∈ earlier, isIdentifier s = true) → isPosition position = true →
      ∃ e, Handler.compileHtml (pathTemplate (root :: steps)) =
          .error (.malformed "" (pathTemplate (root :: steps)) e) ∧
        e.found = some (Lexeme.number position.toList) := by
  have hrefused : ∀ earlier position later, steps = earlier ++ position :: later →
      (∀ s ∈ earlier, isIdentifier s = true) → isPosition position = true →
      ∃ e, Handler.compileHtml (pathTemplate (root :: steps)) =
          .error (.malformed "" (pathTemplate (root :: steps)) e) ∧
        e.found = some (Lexeme.number position.toList) := by
    rintro earlier position later rfl hearlier hposition
    refine compileHtml_pathTemplate_eq_error hroot hearlier hposition fun s hs => ?_
    exact hsteps s (List.mem_append_right _ (List.mem_cons_of_mem _ hs))
  have hnames : ∀ routine, Handler.compileHtml (pathTemplate (root :: steps)) = .ok routine →
      ∀ s ∈ steps, isIdentifier s = true := by
    intro routine hroutine
    rcases names_or_exists_position hsteps with hall | ⟨earlier, position, later, hsplit, hp⟩
    · exact hall
    · obtain ⟨e, he, -⟩ := hrefused earlier position later hsplit hp.1 hp.2
      cases hroutine.symm.trans he
  refine ⟨⟨fun ⟨routine, h⟩ => hnames routine h, fun h => ?_⟩, ?_, hrefused⟩
  · obtain ⟨routine, hroutine, -⟩ := compileHtml_pathTemplate hroot h hpath
    exact ⟨routine, hroutine⟩
  · intro routine hroutine scope v hv
    obtain ⟨routine', hroutine', hprints⟩ :=
      compileHtml_pathTemplate hroot (hnames routine hroutine) hpath
    cases hroutine.symm.trans hroutine'
    have hlookup := Scope.lookup_cons hv steps
    refine ⟨⟨_, hlookup, hprints scope _ hlookup⟩, ?_⟩
    rintro earlier step later u rfl hu hlacks
    exact hprints scope _ (Scope.lookup_of_lacks hu hlacks)

/-- An author with a name and a list of two tags. -/
def authorScope : Scope :=
  { component := "Card",
    attributes := ⟨[("author", .obj [("name", .str "Ada"), ("tags", .arr [.str "x", .str "y"])])]⟩ }

/-- The second tag can be looked up, but no template can print it. -/
theorem position_is_not_printed :
    ¬ ∀ (root : String) (steps : List String) (scope : Scope) (v : Value),
      isIdentifier root = true → (∀ s ∈ steps, isIdentifier s = true ∨ isPosition s = true) →
      ¬ (root = contentName ∧ steps = []) → scope.attributes.find? root = some v →
      ∃ routine w, Handler.compileHtml (pathTemplate (root :: steps)) = .ok routine ∧
        scope.lookup (root :: steps) = .ok w ∧ routine scope = .ok (.ofText w.text) := by
  intro h
  have hname : isIdentifier "author" = true ∧ isIdentifier "tags" = true ∧ isPosition "1" = true := by
    decide +kernel
  obtain ⟨hauthor, htags, hone⟩ := hname
  obtain ⟨routine, w, hroutine, -⟩ := h "author" ["tags", "1"] authorScope _ hauthor
    (by simp [htags, hone]) (by simp) rfl
  have hlater : ∀ s ∈ ([] : List String), isIdentifier s = true ∨ isPosition s = true :=
    List.forall_mem_nil _
  obtain ⟨e, he, -⟩ := compileHtml_pathTemplate_eq_error hauthor
    (List.forall_mem_singleton.2 htags) hone hlater
  cases hroutine.symm.trans he

/-- The name of the author is printed, an address that the author lacks prints nothing, and the second
tag is refused at its position. -/
theorem named_paths_are_printed_of_author :
    (∃ routine, Handler.compileHtml "{{ author.name }}" = .ok routine ∧
      routine authorScope = .ok ⟨"Ada"⟩) ∧
    (∃ routine, Handler.compileHtml "{{ author.address.town }}" = .ok routine ∧
      routine authorScope = .ok ⟨""⟩) ∧
    authorScope.lookup ["author", "tags", "1"] = .ok (.str "y") ∧
    ∃ e, Handler.compileHtml "{{ author.tags.1 }}" =
        .error (.malformed "" "{{ author.tags.1 }}" e) ∧ e.found = some (.int 1) := by
  have hnames : ∀ s ∈ ["author", "name", "address", "town", "tags"], isIdentifier s = true := by
    decide +kernel
  have hone : isPosition "1" = true := by decide +kernel
  have hauthor := hnames "author" (by decide)
  refine ⟨?_, ?_, rfl, ?_⟩
  · have hsteps : ∀ s ∈ ["name"], isIdentifier s = true := fun s hs => hnames s (by grind)
    obtain ⟨hcompiles, hprints, -⟩ := named_paths_are_printed "author" ["name"] hauthor
      (fun s hs => .inl (hsteps s hs)) (by simp)
    obtain ⟨routine, hroutine⟩ := hcompiles.2 hsteps
    obtain ⟨⟨w, hw, hm⟩, -⟩ := hprints routine hroutine authorScope _ rfl
    cases hw
    exact ⟨routine, hroutine, hm⟩
  · have hsteps : ∀ s ∈ ["address", "town"], isIdentifier s = true := fun s hs =>
      hnames s (by grind)
    obtain ⟨hcompiles, hprints, -⟩ := named_paths_are_printed "author" ["address", "town"] hauthor
      (fun s hs => .inl (hsteps s hs)) (by simp)
    obtain ⟨routine, hroutine⟩ := hcompiles.2 hsteps
    obtain ⟨-, hlacks⟩ := hprints routine hroutine authorScope _ rfl
    exact ⟨routine, hroutine, hlacks [] "address" ["town"] _ rfl rfl rfl⟩
  · have htags := hnames "tags" (by decide)
    obtain ⟨-, -, hrefused⟩ := named_paths_are_printed "author" ["tags", "1"] hauthor
      (by simp [htags, hone]) (by simp)
    exact hrefused ["tags"] "1" [] rfl (List.forall_mem_singleton.2 htags) hone

end Stencil
