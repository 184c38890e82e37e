import Stencil.Proofs.Printing.Stray
import Stencil.Proofs.Rendering.Literals
import Stencil.Proofs.Scanning.Patterns

/-!
# Plain sources as templates

Markup in which nothing opens a tag is a template that prints itself, and any text can be put between
quotes to be printed escaped. Main statement: `html_subsumes_plain`, by which the template language does
all that the handlers `raw` and `text` do.
-/

namespace Stencil

open Segment Pattern

variable {source : String}

/-- Where a tag is opened an opener stands. -/
theorem exists_opener_of_hasOpener {cs : List Char} (h : hasOpener cs = true) :
    ∃ o ∈ openers, o <:+: cs := by
  obtain ⟨before, c, after, rfl, hc, -, -⟩ := exists_opening h
  refine ⟨['{', c], ?_, before, after, by simp⟩
  rcases hc with rfl | rfl | rfl
  · simp [openers]
  · simp [openers]
  · simp [openers]

/-- A source that opens nothing is read as a single text, or as nothing if it is empty. -/
theorem exists_isReadFrom_of_hasOpener (h : hasOpener source.toList = false) :
    ∃ b : Body, b.IsReadFrom source ∧ b.unknownHelper? = none ∧
      ∀ scope, b.render scope = .ok ⟨source⟩ := by
  by_cases hempty : source = ""
  · subst hempty
    refine ⟨.nil, isReadFrom_of_tokens ?_, rfl, fun scope => rfl⟩
    rw [sourceTokens_eq, String.toList_empty, split_nil]
    rfl
  · have hne : source.toList ≠ [] := mt String.toList_eq_nil_iff.1 hempty
    -- All its segments are texts, and texts that touch one another are joined.
    have hsplit := split_append_of_hasOpener h hne (k := []) (.inl rfl)
    rw [List.append_nil, split_nil] at hsplit
    refine ⟨.text ⟨0, 0⟩ source .nil, isReadFrom_of_tokens ?_, rfl, fun scope => ?_⟩
    · rw [sourceTokens_eq, hsplit]
      simp [Segment.cons, Segment.tokens, Lexeme.ofSegment, Body.tokens]
    · exact Body.render_eq_ok.2 ⟨[⟨source⟩], rfl, by simp [Markup.join]⟩

/-- A source that opens nothing compiles to what prints it as it stands. -/
theorem compileHtml_of_hasOpener (h : hasOpener source.toList = false) :
    Handler.compileHtml source = .ok fun _ => .ok ⟨source⟩ := by
  obtain ⟨b, hread, hknown, hprints⟩ := exists_isReadFrom_of_hasOpener h
  rw [hread.compileHtml_eq hknown, funext hprints]

/-- A text between double quotes, with a backslash in front of its quotes and backslashes. -/
def quoted (s : String) : String := String.ofList ('"' :: Quoted.encode s.toList ++ ['"'])

/-- A quoted text is a literal that stands for the text. -/
theorem isLiteral_quoted (s : String) : IsLiteral (quoted s).toList (.str s) := by
  have hrun := Quoted.run_encode s.toList []
  have henclosed : Quoted.Enclosed '"' (Quoted.encode s.toList) := by
    have h := Quoted.enclosed_run '"' (Quoted.encode s.toList ++ ['"'])
    rwa [hrun] at h
  have hchars : (quoted s).toList = '"' :: Quoted.encode s.toList ++ ['"'] := String.toList_ofList
  have hstring := IsLiteral.string (q := '"') rfl henclosed
  rwa [Quoted.decode_encode, String.ofList_toList, ← hchars] at hstring

/-- The template of a quoted text compiles to what prints the text, escaped. -/
theorem compileHtml_quoted (s : String) :
    Handler.compileHtml (outputTemplate (quoted s)) = .ok fun _ => .ok (.ofText s) := by
  have h := (isLiteral_quoted s).compiles (v := .str s) fun _ => rfl
  rwa [String.ofList_toList] at h

/-- Markup that holds no opener of a tag or a comment is a template of the template language, and any
text is one in quotes between double braces. In every scope the former prints the markup as it stands,
which is what the handler of markup makes of it, and the latter prints the text escaped, which is what
the handler of plain text makes of it. -/
theorem html_subsumes_plain (kind other : String) :
    (∀ source : String, (∀ o ∈ openers, ¬ o <:+: source.toList) →
      ∃ routine, Handler.html.invoke Handler.html.convention ⟨source, kind⟩ = .ok routine ∧
        Handler.raw.invoke Handler.raw.convention ⟨source, other⟩ = .ok routine ∧
        ∀ scope, routine scope = .ok ⟨source⟩) ∧
    ∀ s : String, ∃ routine,
      Handler.html.invoke Handler.html.convention ⟨outputTemplate (quoted s), kind⟩ = .ok routine ∧
        Handler.text.invoke Handler.text.convention ⟨s, other⟩ = .ok routine ∧
        ∀ scope, routine scope = .ok (.ofText s) := by
  constructor
  · intro source hopeners
    have hplain : hasOpener source.toList = false := by
      rw [Bool.eq_false_iff]
      intro h
      obtain ⟨o, ho, hinfix⟩ := exists_opener_of_hasOpener h
      exact hopeners o ho hinfix
    exact ⟨_, compileHtml_of_hasOpener hplain, rfl, fun scope => rfl⟩
  · intro s
    exact ⟨_, compileHtml_quoted s, rfl, fun scope => rfl⟩

/-- Markup with lone braces and quotes prints itself, and a text that would close its quotes and its tag
is printed escaped. -/
theorem html_subsumes_plain_of_braces :
    (∀ o ∈ openers, ¬ o <:+: "<b>\x7b \"\x7d\x7d '</b>\x7b".toList) ∧
    (∃ routine, Handler.html.invoke .unary ⟨"<b>\x7b \"\x7d\x7d '</b>\x7b", "html"⟩ = .ok routine ∧
      ∀ scope, routine scope = .ok ⟨"<b>\x7b \"\x7d\x7d '</b>\x7b"⟩) ∧
    ∃ routine,
      Handler.html.invoke .unary ⟨"\x7b\x7b \"\\\" \x7d\x7d \\\\\" \x7d\x7d", "html"⟩ = .ok routine ∧
        ∀ scope, routine scope = .ok ⟨"&quot; \x7d\x7d \\"⟩ := by
  obtain ⟨hmarkup, htext⟩ := html_subsumes_plain "html" "text"
  have hopeners : ∀ o ∈ openers, ¬ o <:+: "<b>\x7b \"\x7d\x7d '</b>\x7b".toList := by decide +kernel
  obtain ⟨f, hf, -, hshown⟩ := hmarkup _ hopeners
  obtain ⟨g, hg, -, hescaped⟩ := htext "\" \x7d\x7d \\"
  have hquoted : outputTemplate (quoted "\" \x7d\x7d \\") =
      "\x7b\x7b \"\\\" \x7d\x7d \\\\\" \x7d\x7d" := by
    decide +kernel
  have hentity : Markup.ofText "\" \x7d\x7d \\" = ⟨"&quot; \x7d\x7d \\"⟩ := by decide +kernel
  rw [hquoted] at hg
  exact ⟨hopeners, ⟨f, hf, hshown⟩, g, hg, fun scope => (hescaped scope).trans (congrArg _ hentity)⟩

end Stencil
