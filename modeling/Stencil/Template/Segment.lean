import Stencil.Template.Quoted

/-!
# Segments

A source falls into text, comments, tags, and openings of tags that are never closed. A tag ends at
the first closing mark outside of quoted strings. Main statement: the segments, written out again,
are the source.
-/

namespace Stencil

/-- The three kinds of tag: escaped output, raw output, and the blocks of conditionals. -/
inductive TagForm where
  | output
  | raw
  | block
  deriving DecidableEq, Repr

/-- The characters that open a tag. -/
def TagForm.opener : TagForm → List Char
  | .output => ['{', '{']
  | .raw => ['{', '{', '{']
  | .block => ['{', '%']

/-- The characters that close a tag. -/
def TagForm.closer : TagForm → List Char
  | .output => ['}', '}']
  | .raw => ['}', '}', '}']
  | .block => ['%', '}']

/-- A part of a source. -/
inductive Segment where
  | text (cs : List Char)
  | comment (body : List Char)
  | tag (form : TagForm) (body : List Char)
  | unclosed (opener body : List Char)
  deriving DecidableEq, Repr

namespace Segment

/-- The characters of a segment. -/
def chars : Segment → List Char
  | .text cs => cs
  | .comment body => '{' :: '#' :: body ++ ['#', '}']
  | .tag form body => form.opener ++ body ++ form.closer
  | .unclosed opener body => opener ++ body

/-- Whether a character opens a string. -/
def isQuote (c : Char) : Bool := c = '"' || c = '\''

/-- The body of a tag up to the first `mark` outside of strings, and what follows from there on. If a
string has no end, the body stops where the string breaks off. -/
def body (mark : Char) (cs : List Char) : List Char × List Char :=
  match cs with
  | [] => ([], [])
  | c :: cs =>
    if c = mark then ([], c :: cs)
    else if isQuote c then
      match h : Quoted.run c cs with
      | (inside, q :: rest) =>
        if q = c then
          have : rest.length < cs.length + 1 := Quoted.length_lt_of_run h
          let (more, rest) := body mark rest
          (c :: inside ++ q :: more, rest)
        else (c :: inside, q :: rest)
      | (inside, []) => (c :: inside, [])
    else
      let (more, rest) := body mark cs
      (c :: more, rest)
termination_by cs.length

/-- The body of a comment and what follows it, when its end is found. -/
def comment? : List Char → Option (List Char × List Char)
  | '#' :: '}' :: cs => some ([], cs)
  | c :: cs => (comment? cs).map fun p => (c :: p.1, p.2)
  | [] => none

/-- The first segment of a source that goes on with `cs` after two opening braces. A single closing
brace, or the end of the source, leaves the tag open; with nothing before that brace the opening
braces are text. -/
def afterBraces (cs : List Char) : Segment × List Char :=
  match body '}' cs with
  | (inside, '}' :: '}' :: rest) => (.tag .output inside, rest)
  | ([], '}' :: rest) => (.text ['{', '{'], '}' :: rest)
  | (inside, rest) => (.unclosed ['{', '{'] inside, rest)

/-- The first segment of a source that goes on with `cs` after three opening braces. Closed by two
braces only it is an output tag whose body begins with the third brace, and not closed it is text. -/
def afterRawBraces (cs : List Char) : Segment × List Char :=
  match body '}' cs with
  | (inside, '}' :: '}' :: '}' :: rest) => (.tag .raw inside, rest)
  | (inside, '}' :: '}' :: rest) => (.tag .output ('{' :: inside), rest)
  | (inside, rest) => (.text ('{' :: '{' :: '{' :: inside), rest)

/-- The first segment of a source that goes on with `cs` after a brace and a percent sign. -/
def afterPercent (cs : List Char) : Segment × List Char :=
  match body '%' cs with
  | (inside, '%' :: '}' :: rest) => (.tag .block inside, rest)
  | ([], '%' :: rest) => (.text ['{', '%'], '%' :: rest)
  | (inside, rest) => (.unclosed ['{', '%'] inside, rest)

/-- The first segment of a source that goes on with `cs` after a brace and a number sign. -/
def afterHash (cs : List Char) : Segment × List Char :=
  match comment? cs with
  | some (inside, rest) => (.comment inside, rest)
  | none => (.unclosed ['{', '#'] cs, [])

/-- The first segment of the source `c :: cs`, and what follows it. -/
def first (c : Char) (cs : List Char) : Segment × List Char :=
  if c = '{' then
    match cs with
    | '{' :: '{' :: cs => afterRawBraces cs
    | '{' :: cs => afterBraces cs
    | '%' :: cs => afterPercent cs
    | '#' :: cs => afterHash cs
    | cs => (.text ['{'], cs)
  else (.text (c :: cs.takeWhile (· ≠ '{')), cs.dropWhile (· ≠ '{'))

/-- The two parts of a body make up its input. -/
theorem body_append (mark : Char) (cs : List Char) :
    (body mark cs).1 ++ (body mark cs).2 = cs := by
  fun_induction body mark cs with
  | case1 | case2 => rfl
  | case3 _ _ _ _ _ _ e _ _ h _ ih =>
    rw [e] at ih
    simp only at ih
    simp [← Quoted.append_of_run h, ← ih]
  | case4 _ _ _ _ _ _ _ h => simp [← Quoted.append_of_run h]
  | case5 _ _ _ _ _ h => simp [← Quoted.append_of_run h]
  | case6 _ _ _ _ _ _ e ih =>
    rw [e] at ih
    simp only at ih
    simp [← ih]

/-- The parts that a body gave make up its input. -/
theorem append_of_body {mark : Char} {cs inside rest : List Char}
    (h : body mark cs = (inside, rest)) : inside ++ rest = cs := by
  rw [← body_append mark cs, h]

/-- A comment's body, its end and what follows make up the input. -/
theorem append_of_comment? {cs inside rest : List Char} (h : comment? cs = some (inside, rest)) :
    inside ++ '#' :: '}' :: rest = cs := by
  fun_induction comment? cs generalizing inside rest with
  | case1 cs => simp_all
  | case2 c cs _ ih =>
    obtain ⟨p, hp, e⟩ := Option.map_eq_some_iff.1 h
    simp only [Prod.mk.injEq] at e
    rw [← e.1, ← e.2, List.cons_append, ih hp]
  | case3 => simp at h

/-- The first segment and what follows it make up the source. -/
theorem first_append (c : Char) (cs : List Char) :
    (first c cs).1.chars ++ (first c cs).2 = c :: cs := by
  unfold first
  split
  · rename_i hc
    subst hc
    split
    · rename_i cs
      unfold afterRawBraces
      split <;> rename_i h <;>
        simp [chars, TagForm.opener, TagForm.closer, ← append_of_body h]
    · rename_i cs _
      unfold afterBraces
      split <;> rename_i h <;>
        simp [chars, TagForm.opener, TagForm.closer, ← append_of_body h]
    · rename_i cs
      unfold afterPercent
      split <;> rename_i h <;>
        simp [chars, TagForm.opener, TagForm.closer, ← append_of_body h]
    · rename_i cs
      unfold afterHash
      split
      · rename_i h
        simp [chars, ← append_of_comment? h]
      · simp [chars]
    · simp [chars]
  · simp [chars]

/-- A segment holds at least one character. -/
theorem first_ne_nil (c : Char) (cs : List Char) : (first c cs).1.chars ≠ [] := by
  unfold first afterRawBraces afterBraces afterPercent afterHash
  repeat' split
  all_goals simp [chars, TagForm.opener]

/-- The source after its first segment is shorter than the source. -/
theorem length_first_lt (c : Char) (cs : List Char) :
    (first c cs).2.length < cs.length + 1 := by
  have h := congrArg List.length (first_append c cs)
  have := List.length_pos_iff.2 (first_ne_nil c cs)
  simp only [List.length_append, List.length_cons] at h
  omega

/-- A segment put in front of others; text joins the text that it touches. -/
def cons : Segment → List Segment → List Segment
  | .text cs, .text ds :: rest => .text (cs ++ ds) :: rest
  | s, rest => s :: rest

/-- The segments of a source. -/
def split : List Char → List Segment
  | [] => []
  | c :: cs =>
    have := length_first_lt c cs
    cons (first c cs).1 (split (first c cs).2)
termination_by cs => cs.length

/-- Joining text does not change what is written. -/
@[simp] theorem flatMap_chars_cons (s : Segment) (rest : List Segment) :
    (cons s rest).flatMap chars = s.chars ++ rest.flatMap chars := by
  unfold cons
  split <;> simp [chars]

/-- The segments, written out after one another, are the source. -/
theorem flatMap_chars_split (cs : List Char) : (split cs).flatMap chars = cs := by
  fun_induction split cs with
  | case1 => rfl
  | case2 c cs _ ih => rw [flatMap_chars_cons, ih, first_append]

end Segment

end Stencil
