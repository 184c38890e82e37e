import Stencil.Template.Segment
import Stencil.Template.Token
import Stencil.Text.Utf8
import Stencil.Word

/-!
# Lexemes

A source is a sequence of lexemes, each of which stands for a token or for nothing. Main statement:
the lexemes, written out, are the source, so that the place of a token is told by the lexemes before
it.
-/

namespace Stencil

/-- Characters of a source, and the token that they stand for. Comments, and blanks within tags, stand
for none. -/
structure Lexeme where
  token? : Option Token
  chars : List Char
  deriving DecidableEq, Repr

namespace Lexeme

/-- The characters that separate tokens within a tag. -/
def isSeparator (c : Char) : Bool := c = ' ' || c = '\t' || c = '\n' || c = '\r'

/-- The characters with which an identifier begins. -/
def isIdentStart (c : Char) : Bool := c.isAlpha || c = '_'

/-- The characters with which an identifier goes on. -/
def isIdentPart (c : Char) : Bool := c.isAlphanum || c = '_'

/-- The token of a whole word: a keyword or an identifier. -/
def word (cs : List Char) : Token :=
  let name := String.ofList cs
  if name = "if" then .kwIf
  else if name = "unless" then .kwUnless
  else if name = "else" then .kwElse
  else if name = "end" then .kwEnd
  else .ident name

/-- The number that decimal digits denote. -/
def natOfDigits (cs : List Char) : Nat := cs.foldl (fun n c => 10 * n + (c.toNat - 48)) 0

/-- The integer that is written as digits behind an optional minus sign. -/
def intOfChars : List Char → Int
  | '-' :: cs => -(natOfDigits cs : Int)
  | cs => natOfDigits cs

/-- The token of a number. One that does not fit in a word is not recognised. -/
def number (cs : List Char) : Token :=
  if Word.holdsInt (intOfChars cs) then .int (intOfChars cs) else .unknown (String.ofList cs)

/-- The token of one character that is a sign of the language, or that is not recognised. -/
def sign (c : Char) : Token :=
  if c = '.' then .dot
  else if c = ',' then .comma
  else if c = '(' then .parenOpen
  else if c = ')' then .parenClose
  else .unknown (String.ofList [c])

/-- The lexeme of one character. -/
def single (c : Char) : Lexeme := ⟨some (sign c), [c]⟩

/-- The first lexeme of the tag body `c :: cs`, and what follows it. -/
def first (c : Char) (cs : List Char) : Lexeme × List Char :=
  if isSeparator c then
    (⟨none, c :: cs.takeWhile isSeparator⟩, cs.dropWhile isSeparator)
  else if isIdentStart c then
    let name := c :: cs.takeWhile isIdentPart
    (⟨some (word name), name⟩, cs.dropWhile isIdentPart)
  else if c.isDigit || (c = '-' && (cs.head?.map Char.isDigit).getD false) then
    let digits := c :: cs.takeWhile Char.isDigit
    (⟨some (number digits), digits⟩, cs.dropWhile Char.isDigit)
  else if Segment.isQuote c then
    match Quoted.body? c cs with
    | some (inside, rest) =>
      (⟨some (.str (String.ofList (Quoted.decode inside))), c :: inside ++ [c]⟩, rest)
    | none => (single c, cs)
  else (single c, cs)

/-- The first lexeme and what follows it make up the body. -/
theorem first_append (c : Char) (cs : List Char) :
    (first c cs).1.chars ++ (first c cs).2 = c :: cs := by
  unfold first
  split
  · simp
  · split
    · simp
    · split
      · simp
      · split
        · split
          · rename_i h
            simp [← Quoted.append_of_body? h]
          · rfl
        · rfl

/-- A lexeme holds at least one character. -/
theorem first_ne_nil (c : Char) (cs : List Char) : (first c cs).1.chars ≠ [] := by
  unfold first
  repeat' split
  all_goals simp [single]

/-- The body after its first lexeme is shorter than the body. -/
theorem length_first_lt (c : Char) (cs : List Char) :
    (first c cs).2.length < cs.length + 1 := by
  have h := congrArg List.length (first_append c cs)
  have := List.length_pos_iff.2 (first_ne_nil c cs)
  simp only [List.length_append, List.length_cons] at h
  omega

/-- The lexemes of the body of a tag. -/
def ofTagBody : List Char → List Lexeme
  | [] => []
  | c :: cs =>
    have := length_first_lt c cs
    (first c cs).1 :: ofTagBody (first c cs).2
termination_by cs => cs.length

/-- The token that opens a tag. -/
def openToken : TagForm → Token
  | .output => .outputOpen
  | .raw => .rawOpen
  | .block => .blockOpen

/-- The lexemes of a segment. -/
def ofSegment : Segment → List Lexeme
  | .text cs => [⟨some (.text (String.ofList cs)), cs⟩]
  | .comment body => [⟨none, (Segment.comment body).chars⟩]
  | .tag form body =>
    ⟨some (openToken form), form.opener⟩ :: ofTagBody body ++ [⟨some .tagClose, form.closer⟩]
  | .unclosed opener body => [⟨some (.unclosed (String.ofList opener)), opener ++ body⟩]

/-- The lexemes of a source. -/
def ofSource (cs : List Char) : List Lexeme := (Segment.split cs).flatMap ofSegment

/-- The tokens of the lexemes that begin at the offset `start`, with their places. -/
def locate (start : Nat) : List Lexeme → List (Located Token)
  | [] => []
  | l :: ls =>
    let stop := start + Text.byteLength l.chars
    match l.token? with
    | some t => ⟨t, ⟨start, stop⟩⟩ :: locate stop ls
    | none => locate stop ls

/-- The lexemes of a tag's body, written out, are the body. -/
theorem flatMap_chars_ofTagBody (cs : List Char) : (ofTagBody cs).flatMap chars = cs := by
  fun_induction ofTagBody cs with
  | case1 => rfl
  | case2 c cs _ ih => rw [List.flatMap_cons, ih, first_append]

/-- The lexemes of a segment, written out, are the segment. -/
theorem flatMap_chars_ofSegment (s : Segment) : (ofSegment s).flatMap chars = s.chars := by
  cases s <;> simp [ofSegment, Segment.chars, flatMap_chars_ofTagBody]

/-- The lexemes of a source, written out, are the source. -/
theorem flatMap_chars_ofSource (cs : List Char) : (ofSource cs).flatMap chars = cs := by
  rw [ofSource, List.flatMap_assoc]
  simp only [flatMap_chars_ofSegment, Segment.flatMap_chars_split]

end Lexeme

/-- The tokens of a source, with their places. -/
def tokenize (source : String) : List (Located Token) :=
  Lexeme.locate 0 (Lexeme.ofSource source.toList)

end Stencil
