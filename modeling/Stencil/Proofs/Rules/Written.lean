import Stencil.Proofs.Markup.Shown
import Stencil.Proofs.Views.Frame

/-!
# Rules on content

Content reaches the rules as markup. A rule sees it as the text that the caller's block wrote: it is
checked as an attribute of that text would be, and as a missing attribute if there is no block. Main
statements: `Demand.check_content_ofText`, on one demand, and `content_is_checked_as_text`.
-/

namespace Stencil

/-- The block that writes some texts, one after another. -/
def Block.ofTexts (texts : List String) : Block := texts.foldr .text .done

section Capture

variable (r : Renderer) (texts : List String)

/-- What the block writes is the texts, each as the markup that shows it. -/
theorem Block.writes_ofTexts (routes : Routes) (s : Session) :
    (Block.ofTexts texts).writes r routes s = texts.map .ofText := by
  induction texts with
  | nil => rfl
  | cons t texts ih => exact congrArg (Markup.ofText t :: ·) ih

/-- Writing texts does not fail. -/
theorem Block.exec_ofTexts (v : View) (s : Session) :
    ((Block.ofTexts texts).exec r v s).1 = .ok () := by
  induction texts generalizing v with
  | nil => rfl
  | cons t texts ih => exact ih _

/-- What is captured of a block that writes texts is the markup of the text that they make up. -/
theorem captureWith_eq_of_writes {r : Renderer} {texts : List String} {b : Block} {v : View}
    {s : Session} {m : Markup} (hw : b.writes r v.routes s = texts.map .ofText)
    (hm : (View.captureWith (b.exec r) v s).1 = .ok m) : m = .ofText (String.join texts) := by
  rw [(b.adds_exec r).captureWith rfl, hw, Markup.join_ofText] at hm
  generalize (b.exec r v s).1 = result at hm
  cases result with
  | error f => cases hm
  | ok _ => exact (Except.ok.inj hm).symm

end Capture

section Subjects

/-- A demand looks at a subject in three ways, and at nothing else. -/
theorem Demand.check_congr {s t : Subject} (hblank : s.isBlank = t.isBlank)
    (hsize : s.size = t.size) (hamong : ∀ allowed, s.isAmong allowed = t.isAmong allowed)
    (demand : Demand) : demand.check s = demand.check t := by
  cases demand with
  | presence => simp only [check, hblank]
  | absence => simp only [check, hblank]
  | inclusion allowed => simp only [check, hamong]
  | length least most => simp only [check, hsize]

/-- Content that shows a text is checked as a value that is the text. -/
theorem Demand.check_content_ofText (demand : Demand) (text : String) :
    demand.check (.content (some (.ofText text))) = demand.check (.value (some (.str text))) := by
  have hshown : (Markup.ofText text).toText = text := Markup.toText_ofText text
  refine check_congr ?_ ?_ (fun allowed => ?_) demand
  · simp only [Subject.isBlank, Option.map_some, Option.getD_some, Markup.isBlank_ofText,
      Value.isBlank]
  · simp only [Subject.size, Option.map_some, Option.getD_some, hshown, Value.size]
  · simp only [Subject.isAmong, hshown]

/-- Content that is not there is checked as a value that is not there. -/
theorem Demand.check_content_none (demand : Demand) :
    demand.check (.content none) = demand.check (.value none) :=
  check_congr rfl rfl (fun _ => rfl) demand

/-- A rule on content fails as one on an attribute if the two subjects are checked alike. -/
theorem Rule.failure?_content {demand : Demand} {attributes other : Attributes}
    {content content' : Option Markup} {name : String} (hname : name ≠ contentName)
    (h : demand.check (.content content) = demand.check (.value (other.find? name))) :
    Rule.failure? attributes content ⟨contentName, demand⟩ =
      (Rule.failure? other content' ⟨name, demand⟩).map ({ · with name := contentName }) := by
  have hcontent : Subject.named attributes content contentName = .content content := if_pos rfl
  have hvalue : Subject.named other content' name = .value (other.find? name) := if_neg hname
  simp only [failure?, hcontent, hvalue, h, Option.map_map]
  rfl

/-- A rule looks at no attribute that has the name of the content. -/
theorem Rule.failure?_congr {a b : Attributes}
    (h : ∀ name, name ≠ contentName → a.find? name = b.find? name) (content : Option Markup)
    (rule : Rule) : rule.failure? a content = rule.failure? b content := by
  rw [failure?, failure?, Subject.named, Subject.named]
  split
  · rfl
  · rename_i hname
    rw [h rule.name hname]

end Subjects

/-- A rule on content gives the failure, or none, that it gives on an attribute that is the text
which the block wrote: this block may do anything as long as it writes texts only, and one that does
nothing else is captured. Without a block the failure is that of an attribute that is missing. No
attribute with the name of the content makes a difference. -/
theorem content_is_checked_as_text (r : Renderer) (v : View) (s : Session) (texts : List String) :
    ((Block.ofTexts texts).writes r v.routes s = texts.map .ofText ∧
      ∃ m, (View.captureWith ((Block.ofTexts texts).exec r) v s).1 = .ok m) ∧
    (∀ (b : Block) (m : Markup), b.writes r v.routes s = texts.map .ofText →
      (View.captureWith (b.exec r) v s).1 = .ok m →
      ∀ demand attributes other content name, name ≠ contentName →
        other.find? name = some (.str (String.join texts)) →
        Rule.failure? attributes (some m) ⟨contentName, demand⟩ =
          (Rule.failure? other content ⟨name, demand⟩).map ({ · with name := contentName })) ∧
    (∀ demand attributes other content name, name ≠ contentName → other.find? name = none →
      Rule.failure? attributes none ⟨contentName, demand⟩ =
        (Rule.failure? other content ⟨name, demand⟩).map ({ · with name := contentName })) ∧
    ∀ rules a b content, (∀ name, name ≠ contentName → a.find? name = b.find? name) →
      validate rules a content = validate rules b content := by
  refine ⟨⟨Block.writes_ofTexts r texts v.routes s, ?_⟩, ?_, ?_, ?_⟩
  · rw [((Block.ofTexts texts).adds_exec r).captureWith rfl, Block.exec_ofTexts]
    exact ⟨_, rfl⟩
  · intro b m hw hm demand attributes other content name hname hvalue
    rw [captureWith_eq_of_writes hw hm]
    apply Rule.failure?_content hname
    rw [hvalue]
    exact demand.check_content_ofText _
  · intro demand attributes other content name hname hvalue
    apply Rule.failure?_content hname
    rw [hvalue]
    exact demand.check_content_none
  · intro rules a b content h
    have hsame : rules.filterMap (Rule.failure? a content) =
        rules.filterMap (Rule.failure? b content) :=
      congrArg (rules.filterMap ·) (funext (Rule.failure?_congr h content))
    rw [validate, validate, hsame]

/-- A name that is written in two parts, with a question in between, is as long as it reads: it has
three characters, of which the ampersand is one. Without a block there is nothing to be long, whatever
the attribute says that has the name of the content. -/
theorem content_is_checked_as_text_in_parts :
    Rule.failure? {} (some ⟨"R&amp;D"⟩) ⟨contentName, .length (some 4) none⟩ =
        some ⟨contentName, .tooShort 4⟩ ∧
      Rule.failure? {} (some ⟨"R&amp;D"⟩) ⟨contentName, .length (some 3) (some 3)⟩ = none ∧
      Rule.failure? {} none ⟨contentName, .length (some 4) none⟩ =
        some ⟨contentName, .tooShort 4⟩ ∧
      validate [⟨contentName, .length (some 4) none⟩] ⟨[("content", .str "Sales")]⟩ none =
        validate [⟨contentName, .length (some 4) none⟩] {} none := by
  obtain ⟨-, htext, hnone, hother⟩ :=
    content_is_checked_as_text markupRenderer {} emptySession ["R&", "D"]
  have hname : ∀ demand,
      Rule.failure? {} (some ⟨"R&amp;D"⟩) ⟨contentName, demand⟩ =
        (Rule.failure? ⟨[("team", .str "R&D")]⟩ none ⟨"team", demand⟩).map
          ({ · with name := contentName }) := by
    intro demand
    exact htext (.text "R&" (.url "home" [] fun _ => .text "D" .done)) ⟨"R&amp;D"⟩ rfl rfl demand {} _
      none "team" (by decide) rfl
  refine ⟨hname _, hname _, ?_, ?_⟩
  · exact hnone (.length (some 4) none) {} {} none "team" (by decide) rfl
  · refine hother _ _ _ none fun name hname => ?_
    have hne : (name == "content") = false := beq_eq_false_iff_ne.2 hname
    rw [Attributes.find?, List.lookup_cons, hne]
    rfl

end Stencil
