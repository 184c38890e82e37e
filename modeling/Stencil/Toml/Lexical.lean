/-!
# Words of TOML

White space, line ends, comments, strings and keys. A reader takes characters and gives what it read
with the characters after it, or nothing if the document is malformed.
-/

namespace Stencil.Toml

/-- What a reader of an `α` does. -/
abbrev Read (α : Type) := List Char → Option (α × List Char)

/-- The characters that may stand in a comment and, with the exception of their marks, in a string. -/
def isText (c : Char) : Bool := c = '\t' || (0x20 ≤ c.toNat && c.toNat ≠ 0x7F)

/-- The blanks within a line. -/
def isSpace (c : Char) : Bool := c = ' ' || c = '\t'

/-- The characters after blanks. -/
def skipSpace (cs : List Char) : List Char := cs.dropWhile isSpace

/-- The characters after one line end. -/
def lineEnd? : List Char → Option (List Char)
  | '\n' :: cs => some cs
  | '\r' :: '\n' :: cs => some cs
  | _ => none

/-- The characters after a comment, if there is one. -/
def skipComment : List Char → List Char
  | '#' :: cs => cs.dropWhile isText
  | cs => cs

/-- The characters after the rest of a line that holds no more than blanks and a comment. -/
def finishLine (cs : List Char) : Option (List Char) :=
  match skipComment (skipSpace cs) with
  | [] => some []
  | cs => lineEnd? cs

/-- The characters after blanks, line ends and whole-line comments, as they may stand in an array.
`fuel` bounds their number. -/
def skipTrivia : Nat → List Char → List Char
  | 0, cs => cs
  | fuel + 1, cs =>
    match skipSpace cs with
    | '#' :: rest =>
      match lineEnd? (rest.dropWhile isText) with
      | some rest => skipTrivia fuel rest
      | none => '#' :: rest
    | cs =>
      match lineEnd? cs with
      | some rest => skipTrivia fuel rest
      | none => cs

/-- The value of a hexadecimal digit. -/
def hexValue? (c : Char) : Option Nat :=
  if c.isDigit then some (c.toNat - 48)
  else if 'a' ≤ c ∧ c ≤ 'f' then some (c.toNat - 87)
  else if 'A' ≤ c ∧ c ≤ 'F' then some (c.toNat - 55)
  else none

/-- The character whose code point is written in exactly `count` hexadecimal digits. -/
def codePoint (count : Nat) (cs : List Char) : Option (Char × List Char) := do
  let digits := cs.take count
  if digits.length ≠ count then none
  let n ← digits.foldlM (fun n c => (hexValue? c).map (16 * n + ·)) 0
  if n < 0xD800 ∨ (0xDFFF < n ∧ n < 0x110000) then some (Char.ofNat n, cs.drop count) else none

/-- The character that an escape stands for, read after its backslash. -/
def escaped : Read Char
  | 'b' :: cs => some (Char.ofNat 8, cs)
  | 't' :: cs => some ('\t', cs)
  | 'n' :: cs => some ('\n', cs)
  | 'f' :: cs => some (Char.ofNat 12, cs)
  | 'r' :: cs => some ('\r', cs)
  | '"' :: cs => some ('"', cs)
  | '\\' :: cs => some ('\\', cs)
  | 'u' :: cs => codePoint 4 cs
  | 'U' :: cs => codePoint 8 cs
  | _ => none

/-- A basic string after its opening quote. -/
def basicBody : Nat → Read (List Char)
  | 0, _ => none
  | _ + 1, '"' :: cs => some ([], cs)
  | fuel + 1, '\\' :: cs => do
    let (c, cs) ← escaped cs
    let (more, cs) ← basicBody fuel cs
    some (c :: more, cs)
  | fuel + 1, c :: cs => do
    if !isText c then none
    let (more, cs) ← basicBody fuel cs
    some (c :: more, cs)
  | _ + 1, [] => none

/-- A literal string after its opening quote. -/
def literalBody : Read (List Char)
  | [] => none
  | c :: cs =>
    if c = '\'' then some ([], cs)
    else if isText c then (literalBody cs).map fun p => (c :: p.1, p.2)
    else none

/-- The marks with which a multi-line string ends: three, after up to two that belong to it. The result
is the number of those that belong to it. -/
def closingMarks? (mark : Char) (cs : List Char) : Option Nat :=
  let count := (cs.takeWhile (· = mark)).length
  if count < 3 then none else some (min count 5 - 3)

/-- The characters without the blanks and line ends in front. -/
def skipBlankLines : List Char → List Char
  | [] => []
  | '\r' :: '\n' :: cs => skipBlankLines cs
  | c :: cs => if isSpace c ∨ c = '\n' then skipBlankLines cs else c :: cs

/-- The characters after a backslash that ends its line, with all blanks and line ends that follow. -/
def joinedLine? (cs : List Char) : Option (List Char) := (lineEnd? (skipSpace cs)).map skipBlankLines

/-- A multi-line basic string after its opening marks. -/
def multiBasicBody : Nat → Read (List Char)
  | 0, _ => none
  | fuel + 1, cs =>
    match closingMarks? '"' cs with
    | some extra => some (List.replicate extra '"', cs.drop (extra + 3))
    | none =>
      match lineEnd? cs with
      | some cs => (multiBasicBody fuel cs).map fun p => ('\n' :: p.1, p.2)
      | none =>
        match cs with
        | '\\' :: cs =>
          match joinedLine? cs with
          | some cs => multiBasicBody fuel cs
          | none => do
            let (c, cs) ← escaped cs
            let (more, cs) ← multiBasicBody fuel cs
            some (c :: more, cs)
        | c :: cs => if isText c then (multiBasicBody fuel cs).map fun p => (c :: p.1, p.2) else none
        | [] => none

/-- A multi-line literal string after its opening marks. -/
def multiLiteralBody : Nat → Read (List Char)
  | 0, _ => none
  | fuel + 1, cs =>
    match closingMarks? '\'' cs with
    | some extra => some (List.replicate extra '\'', cs.drop (extra + 3))
    | none =>
      match lineEnd? cs with
      | some cs => (multiLiteralBody fuel cs).map fun p => ('\n' :: p.1, p.2)
      | none =>
        match cs with
        | c :: cs =>
          if isText c then (multiLiteralBody fuel cs).map fun p => (c :: p.1, p.2) else none
        | [] => none

/-- The characters after a line end that directly follows the opening marks. -/
def dropLineEnd (cs : List Char) : List Char := (lineEnd? cs).getD cs

/-- A string of any of the four kinds. -/
def string (cs : List Char) : Option (String × List Char) :=
  let read (body : Read (List Char)) (cs : List Char) : Option (String × List Char) :=
    (body cs).map fun p => (String.ofList p.1, p.2)
  match cs with
  | '"' :: '"' :: '"' :: cs => read (multiBasicBody (cs.length + 1)) (dropLineEnd cs)
  | '"' :: cs => read (basicBody (cs.length + 1)) cs
  | '\'' :: '\'' :: '\'' :: cs => read (multiLiteralBody (cs.length + 1)) (dropLineEnd cs)
  | '\'' :: cs => read literalBody cs
  | _ => none

/-- The characters of a key without quotes. -/
def isBare (c : Char) : Bool := c.isAlphanum || c = '_' || c = '-'

/-- One part of a key. -/
def keyPart (cs : List Char) : Option (String × List Char) :=
  match cs with
  | '"' :: cs => (basicBody (cs.length + 1) cs).map fun p => (String.ofList p.1, p.2)
  | '\'' :: cs => (literalBody cs).map fun p => (String.ofList p.1, p.2)
  | cs =>
    match cs.takeWhile isBare with
    | [] => none
    | name => some (String.ofList name, cs.dropWhile isBare)

/-- The parts of a key, with points between them and blanks around them. -/
def keyParts : Nat → Read (List String)
  | 0, _ => none
  | fuel + 1, cs => do
    let (part, cs) ← keyPart (skipSpace cs)
    match skipSpace cs with
    | '.' :: cs =>
      let (more, cs) ← keyParts fuel cs
      some (part :: more, cs)
    | cs => some ([part], cs)

/-- How deep tables and arrays may be nested. -/
def depthLimit : Nat := 80

/-- A key. -/
def key : Read (List String) := keyParts (depthLimit - 1)

end Stencil.Toml
