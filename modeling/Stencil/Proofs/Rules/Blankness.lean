import Mathlib.Tactic.TFAE
import Stencil.Proofs.Commenting.Letters
import Stencil.Proofs.Rendering.Literals
import Stencil.Proofs.Rules.Holds

/-!
# What counts as blank

Rules look at attributes and at captured content as they come, templates at the results of expressions.
Both take the same ones for blank. Main statements: `Scope.Has.exists_eval`, by which the result of a name
is truthy exactly if the subject of the name is not blank, and `blankness_is_decided_alike`.
-/

namespace Stencil

/-- The name can be printed in the scope: it is that of the content, or one that a template can
write and that an attribute has. -/
def Scope.Has (scope : Scope) (name : String) : Prop :=
  name = contentName ∨ isIdentifier name = true ∧ ∃ v, scope.attributes.find? name = some v

/-- The template that takes one of two branches by a name. -/
def branchTemplate (keyword name : String) : String :=
  "\x7b% " ++ keyword ++ " " ++ name ++ " %\x7dA\x7b% else %\x7dB\x7b% end %\x7d"

/-- The call that puts a literal in the place of a name that is blank. -/
def defaultCall (name : String) (literal : List Char) : String :=
  "default(" ++ name ++ ", " ++ String.ofList literal ++ ")"

section Rules

variable {scope : Scope} {name : String}

/-- A rule on its own holds exactly if its demand is met by what the name stands for. -/
theorem validate_singleton_eq_ok {demand : Demand} :
    validate [⟨name, demand⟩] scope.attributes scope.content = .ok () ↔
      demand.Met (.named scope.attributes scope.content name) := by
  rw [validate_eq_ok, List.forall_mem_singleton]
  rfl

/-- Presence is demanded of what is not blank. -/
theorem validate_presence_eq_ok :
    validate [⟨name, .presence⟩] scope.attributes scope.content = .ok () ↔
      (Subject.named scope.attributes scope.content name).isBlank = false := by
  rw [validate_singleton_eq_ok, Demand.Met, ← Subject.isBlank_iff, Bool.not_eq_true]

/-- Absence is demanded of what is blank. -/
theorem validate_absence_eq_ok :
    validate [⟨name, .absence⟩] scope.attributes scope.content = .ok () ↔
      (Subject.named scope.attributes scope.content name).isBlank = true := by
  rw [validate_singleton_eq_ok, Demand.Met, Subject.isBlank_iff]

/-- A name that is there is one that a template can write. -/
theorem Scope.Has.isIdentifier (h : scope.Has name) : isIdentifier name = true := by
  rcases h with rfl | ⟨h, -⟩
  · decide +kernel
  · exact h

/-- The result of the name of an attribute is its value. -/
theorem Operand.eval_name {v : Value} (hname : name ≠ contentName)
    (hv : scope.attributes.find? name = some v) :
    (Operand.path name []).eval scope = .ok (.value v) := by
  rw [Operand.eval, if_neg fun hbare => hname hbare.1]
  simp only [Scope.lookup, hv]
  rfl

/-- A name that is there has a result, which is truthy exactly if what rules see under the name is not
blank. Content that was not captured is nothing to rules and empty markup to templates. -/
theorem Scope.Has.exists_eval (h : scope.Has name) :
    ∃ r, (Operand.path name []).eval scope = .ok r ∧
      r.isTruthy = !(Subject.named scope.attributes scope.content name).isBlank := by
  by_cases hname : name = contentName
  · refine ⟨.markup (scope.content.getD {}), if_pos ⟨hname, rfl⟩, ?_⟩
    rw [Subject.named, if_pos hname, Result.isTruthy, Subject.isBlank]
    cases scope.content with
    | none => rfl
    | some m => rfl
  · obtain ⟨-, v, hv⟩ := h.resolve_left hname
    refine ⟨.value v, Operand.eval_name hname hv, ?_⟩
    rw [Subject.named, if_neg hname, hv]
    rfl

end Rules

section Templates

variable {scope : Scope} {name : String} {r : Result} {cs : List Char} {o : Operand}

/-- A template prints the result of a name. -/
theorem printHtml_name (hname : isIdentifier name = true)
    (hr : (Operand.path name []).eval scope = .ok r) :
    Handler.printHtml (outputTemplate name) scope = .ok r.escaped := by
  have htokens : tagTokens (name.toList ++ [' ']) = (Expr.operand (.path name [])).tokens := by
    rw [tagTokens_identifier hname endsWord_blank, tagTokens_blank, tagTokens_nil]
    rfl
  have hread := isReadFrom_outputTemplate (quiet_identifier TagForm.output.mark_mem hname) htokens
  have heval : (Expr.operand (.path name [])).eval scope = .ok r := hr
  rw [hread.printHtml_eq rfl]
  exact render_single heval _ _

/-- The value of a literal. -/
theorem IsLiteral.exists_eval (h : IsLiteral cs o) (scope : Scope) :
    ∃ v, o.eval scope = .ok (.value v) := by
  cases h with
  | string => exact ⟨_, rfl⟩
  | numeral => exact ⟨_, rfl⟩

/-- A template prints the result of a literal. -/
theorem printHtml_literal (h : IsLiteral cs o) (hr : o.eval scope = .ok r) :
    Handler.printHtml (outputTemplate (String.ofList cs)) scope = .ok r.escaped := by
  have heval : (Expr.operand o).eval scope = .ok r := hr
  rw [h.isReadFrom.printHtml_eq rfl]
  exact render_single heval _ _

/-- The call with a name and a literal is read as such. -/
theorem isReadFrom_defaultCall (hname : isIdentifier name = true) (h : IsLiteral cs o) :
    (Body.output ⟨0, 0⟩ ⟨.call "default" [.path name [], o], ⟨0, 0⟩⟩ .nil).IsReadFrom
      (outputTemplate (defaultCall name cs)) := by
  have hhelper : isIdentifier "default" = true := by decide +kernel
  have hmark := TagForm.output.mark_mem
  have hchars : (defaultCall name cs).toList =
      "default".toList ++ ('(' :: (name.toList ++ (',' :: ' ' :: (cs ++ [')'])))) := by
    simp [defaultCall]
  apply isReadFrom_outputTemplate
  · rw [hchars]
    have hcomma : Quiet TagForm.output.mark [',', ' '] :=
      (quiet_sign hmark (by decide)).append (quiet_sign hmark (by decide))
    have hopen : Quiet TagForm.output.mark ['('] := quiet_sign hmark (by decide)
    have hclose : Quiet TagForm.output.mark [')'] := quiet_sign hmark (by decide)
    exact (quiet_identifier hmark hhelper).append (hopen.append
      ((quiet_identifier hmark hname).append (hcomma.append ((h.quiet hmark).append hclose))))
  · rw [hchars]
    simp only [List.append_assoc, List.cons_append, List.nil_append]
    rw [tagTokens_identifier hhelper (endsWord_cons rfl _), tagTokens_sign (by decide),
      tagTokens_identifier hname (endsWord_cons rfl _), tagTokens_sign (by decide), tagTokens_blank,
      h.tagTokens_append (endsWord_cons rfl _), tagTokens_sign (by decide), tagTokens_blank,
      tagTokens_nil]
    cases h with
    | string => rfl
    | numeral => rfl

/-- The call prints the result of the name if that is truthy, and else that of the literal. -/
theorem printHtml_defaultCall (hname : isIdentifier name = true) (h : IsLiteral cs o)
    (hr : (Operand.path name []).eval scope = .ok r) {s : Result} (hs : o.eval scope = .ok s) :
    Handler.printHtml (outputTemplate (defaultCall name cs)) scope =
      .ok (if r.isTruthy then r else s).escaped := by
  have heval : (Expr.call "default" [.path name [], o]).eval scope =
      .ok (if r.isTruthy then r else s) := by
    have hargs : Operand.evalAll scope [.path name [], o] = .ok [r, s] := by
      simp only [Operand.evalAll, hr, hs]
      rfl
    have hhelper : Helper.ofName? "default" = some .default := by decide
    rw [Expr.eval, hargs]
    simp only [hhelper]
    rfl
  have hknown : (Body.output ⟨0, 0⟩ ⟨.call "default" [.path name [], o], ⟨0, 0⟩⟩
      .nil).unknownHelper? = none := rfl
  rw [(isReadFrom_defaultCall hname h).printHtml_eq hknown]
  exact render_single heval _ _

/-- The template with two branches is read as such. -/
theorem isReadFrom_branchTemplate (hname : isIdentifier name = true) (negated : Bool) :
    (Body.conditional ⟨0, 0⟩ negated ⟨.operand (.path name []), ⟨0, 0⟩⟩ (.text ⟨0, 0⟩ "A" .nil)
      (.text ⟨0, 0⟩ "B" .nil) .nil).IsReadFrom
        (branchTemplate (if negated then "unless" else "if") name) := by
  have hbranch : ∀ s ∈ ["A", "B"], Segment.Literal false s.toList := by
    intro s hs
    apply Segment.literal_of_plainText
    simp only [List.mem_cons, List.not_mem_nil, or_false] at hs
    rcases hs with rfl | rfl
    · exact ⟨by decide, by decide, fun _ => by decide⟩
    · exact ⟨by decide, by decide, fun _ => by decide⟩
  have hprintable : (Body.conditional ⟨0, 0⟩ negated ⟨.operand (.path name []), ⟨0, 0⟩⟩
      (.text ⟨0, 0⟩ "A" .nil) (.text ⟨0, 0⟩ "B" .nil) .nil).Printable true :=
    ⟨⟨hname, List.forall_mem_nil _⟩, ⟨hbranch "A" (by decide), trivial⟩,
      ⟨hbranch "B" (by decide), trivial⟩, trivial⟩
  have hread := parse_source hprintable
  have hsource : String.ofList (Body.conditional ⟨0, 0⟩ negated
      ⟨.operand (.path name []), ⟨0, 0⟩⟩ (.text ⟨0, 0⟩ "A" .nil) (.text ⟨0, 0⟩ "B" .nil)
        .nil).source = branchTemplate (if negated then "unless" else "if") name := by
    apply String.toList_injective
    cases negated <;>
      simp [Body.source, branchTemplate, TagForm.around, TagForm.opener, TagForm.closer,
        Expr.source, Operand.source, Body.startsWithText]
  rwa [hsource] at hread

/-- The template with two branches prints the first one if the result of the name is truthy, or if it
is not and the condition is negated. -/
theorem printHtml_branchTemplate (hname : isIdentifier name = true)
    (hr : (Operand.path name []).eval scope = .ok r) (negated : Bool) :
    Handler.printHtml (branchTemplate (if negated then "unless" else "if") name) scope =
      .ok ⟨if r.isTruthy != negated then "A" else "B"⟩ := by
  have heval : (Expr.operand (.path name [])).eval scope = pure r := hr
  rw [(isReadFrom_branchTemplate hname negated).printHtml_eq rfl, Body.render_conditional]
  simp only [heval, pure_bind]
  cases r.isTruthy != negated with
  | true => rfl
  | false => rfl

end Templates

/-- One of two numerals is printed as something else than a name is. -/
theorem exists_literal_ne (shown : Except Failure Markup) (scope : Scope) :
    ∃ cs o, IsLiteral cs o ∧ Handler.printHtml (outputTemplate (String.ofList cs)) scope ≠ shown := by
  have hnumeral : ∀ c ∈ ['0', '1'], IsLiteral [c] (.int (Lexeme.intOfChars [c])) := by
    intro c hc
    simp only [List.mem_cons, List.not_mem_nil, or_false] at hc
    rcases hc with rfl | rfl
    · exact .numeral (.digits (by decide) (List.forall_mem_nil _)) (by decide)
    · exact .numeral (.digits (by decide) (List.forall_mem_nil _)) (by decide)
  have hzero := hnumeral '0' (by decide)
  have hone := hnumeral '1' (by decide)
  by_cases h : Handler.printHtml (outputTemplate (String.ofList ['0'])) scope = shown
  · refine ⟨['1'], _, hone, fun h' => ?_⟩
    rw [printHtml_literal hone rfl, ← h, printHtml_literal hzero rfl] at h'
    exact absurd (Except.ok.inj h') (by decide +kernel)
  · exact ⟨['0'], _, hzero, h⟩

/-- Rules and templates take the same for blank. What is printed for a name is there, and presence is
demanded with success exactly if absence is demanded without, if the branch for what is truthy is
taken, if the branch that `unless` skips is not, and if no literal that is printed as something else
takes the place of the name. -/
theorem blankness_is_decided_alike {scope : Scope} {name : String} (h : scope.Has name) :
    ∃ shown, Handler.printHtml (outputTemplate name) scope = .ok shown ∧
      [validate [⟨name, .presence⟩] scope.attributes scope.content = .ok (),
        validate [⟨name, .absence⟩] scope.attributes scope.content ≠ .ok (),
        Handler.printHtml (branchTemplate "if" name) scope = .ok ⟨"A"⟩,
        Handler.printHtml (branchTemplate "unless" name) scope = .ok ⟨"B"⟩,
        ∀ cs o, IsLiteral cs o →
          Handler.printHtml (outputTemplate (String.ofList cs)) scope ≠ .ok shown →
          Handler.printHtml (outputTemplate (defaultCall name cs)) scope = .ok shown].TFAE ∧
      ∀ cs o, IsLiteral cs o →
        Handler.printHtml (outputTemplate (String.ofList cs)) scope ≠ .ok shown →
        (validate [⟨name, .presence⟩] scope.attributes scope.content = .ok () ↔
          Handler.printHtml (outputTemplate (defaultCall name cs)) scope = .ok shown) := by
  have hname := h.isIdentifier
  obtain ⟨r, hr, htruthy⟩ := h.exists_eval
  have hpresence : validate [⟨name, .presence⟩] scope.attributes scope.content = .ok () ↔
      r.isTruthy = true := by
    rw [validate_presence_eq_ok, htruthy, Bool.not_eq_true']
  have habsence : validate [⟨name, .absence⟩] scope.attributes scope.content ≠ .ok () ↔
      r.isTruthy = true := by
    rw [Ne, validate_absence_eq_ok, htruthy, Bool.not_eq_true', Bool.not_eq_true]
  have hif : Handler.printHtml (branchTemplate "if" name) scope = .ok ⟨"A"⟩ ↔ r.isTruthy = true := by
    have hprint : Handler.printHtml (branchTemplate "if" name) scope =
        .ok ⟨if r.isTruthy != false then "A" else "B"⟩ := printHtml_branchTemplate hname hr false
    rw [hprint]
    cases r.isTruthy <;> simp
  have hunless : Handler.printHtml (branchTemplate "unless" name) scope = .ok ⟨"B"⟩ ↔
      r.isTruthy = true := by
    have hprint : Handler.printHtml (branchTemplate "unless" name) scope =
        .ok ⟨if r.isTruthy != true then "A" else "B"⟩ := printHtml_branchTemplate hname hr true
    rw [hprint]
    cases r.isTruthy <;> simp
  have hdefault : ∀ cs o, IsLiteral cs o →
      Handler.printHtml (outputTemplate (String.ofList cs)) scope ≠ .ok r.escaped →
      (Handler.printHtml (outputTemplate (defaultCall name cs)) scope = .ok r.escaped ↔
        r.isTruthy = true) := by
    intro cs o hliteral hne
    obtain ⟨v, hv⟩ := hliteral.exists_eval scope
    rw [printHtml_literal hliteral hv] at hne
    rw [printHtml_defaultCall hname hliteral hr hv]
    cases r.isTruthy with
    | true => simp
    | false => simpa using hne
  -- Each of the statements says that the result of the name is truthy.
  refine ⟨r.escaped, printHtml_name hname hr, ?_, fun cs o hliteral hne =>
    hpresence.trans (hdefault cs o hliteral hne).symm⟩
  tfae_have 1 ↔ 2 := hpresence.trans habsence.symm
  tfae_have 1 ↔ 3 := hpresence.trans hif.symm
  tfae_have 1 ↔ 4 := hpresence.trans hunless.symm
  tfae_have 1 → 5 := fun h cs o hliteral hne => (hdefault cs o hliteral hne).2 (hpresence.1 h)
  -- The last statement says something only if there is a literal that is printed otherwise.
  tfae_have 5 → 1 := by
    intro h
    obtain ⟨cs, o, hliteral, hne⟩ := exists_literal_ne (.ok r.escaped) scope
    exact hpresence.2 ((hdefault cs o hliteral hne).1 (h cs o hliteral hne))
  tfae_finish

/-- Content that is one wide space, and an attribute that is zero. -/
def wideSpaceScope : Scope :=
  { component := "Badge", attributes := ⟨[("count", .int 0)]⟩, content := some ⟨"\u3000"⟩ }

/-- A wide space is blank to the rules and to the templates, and a zero is blank to neither. -/
theorem blankness_is_decided_alike_of_wide_space :
    validate [⟨"content", .presence⟩] wideSpaceScope.attributes wideSpaceScope.content ≠ .ok () ∧
    Handler.printHtml (branchTemplate "if" "content") wideSpaceScope ≠ .ok ⟨"A"⟩ ∧
    validate [⟨"count", .presence⟩] wideSpaceScope.attributes wideSpaceScope.content = .ok () ∧
    Handler.printHtml (branchTemplate "unless" "count") wideSpaceScope = .ok ⟨"B"⟩ := by
  have hcontent : wideSpaceScope.Has "content" := .inl rfl
  have hcount : wideSpaceScope.Has "count" := .inr ⟨by decide +kernel, _, rfl⟩
  obtain ⟨_, -, hspace, -⟩ := blankness_is_decided_alike hcontent
  obtain ⟨_, -, hzero, -⟩ := blankness_is_decided_alike hcount
  have hblank : ¬ validate [⟨"content", .presence⟩] wideSpaceScope.attributes
      wideSpaceScope.content = .ok () := by
    rw [validate_presence_eq_ok]
    decide +kernel
  have hthere : validate [⟨"count", .presence⟩] wideSpaceScope.attributes
      wideSpaceScope.content = .ok () := by
    rw [validate_presence_eq_ok]
    decide +kernel
  exact ⟨hblank, fun h => hblank ((hspace.out 0 2).2 h), hthere, (hzero.out 0 3).1 hthere⟩

end Stencil
