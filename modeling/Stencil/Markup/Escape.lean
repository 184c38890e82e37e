/-!
# Escaping

The five characters that mean something in markup are written as entities. Reading the entities back
undoes this, and an escaped text holds none of the five but the ampersands that begin an entity.
-/

namespace Stencil

/-- A character as it is written in markup. -/
def escapeChar (c : Char) : List Char :=
  if c = '&' then ['&', 'a', 'm', 'p', ';']
  else if c = '<' then ['&', 'l', 't', ';']
  else if c = '>' then ['&', 'g', 't', ';']
  else if c = '"' then ['&', 'q', 'u', 'o', 't', ';']
  else if c = '\'' then ['&', '#', '3', '9', ';']
  else [c]

/-- Characters as they are written in markup. -/
def escapeChars (cs : List Char) : List Char := cs.flatMap escapeChar

/-- The characters for which markup stands. Each of the five entities is read once and from the left,
so that what it yields is not read again. -/
def unescapeChars : List Char → List Char
  | '&' :: 'a' :: 'm' :: 'p' :: ';' :: cs => '&' :: unescapeChars cs
  | '&' :: 'l' :: 't' :: ';' :: cs => '<' :: unescapeChars cs
  | '&' :: 'g' :: 't' :: ';' :: cs => '>' :: unescapeChars cs
  | '&' :: 'q' :: 'u' :: 'o' :: 't' :: ';' :: cs => '"' :: unescapeChars cs
  | '&' :: '#' :: '3' :: '9' :: ';' :: cs => '\'' :: unescapeChars cs
  | c :: cs => c :: unescapeChars cs
  | [] => []

/-- The escaped form of a text. -/
def escape (s : String) : String := String.ofList (escapeChars s.toList)

/-- The text of which markup is the escaped form, if it is one; other markup keeps what is no entity. -/
def unescape (s : String) : String := String.ofList (unescapeChars s.toList)

/-- The characters that stand for themselves in an escaped text. -/
def isPlain (c : Char) : Bool := c ≠ '&' && c ≠ '<' && c ≠ '>' && c ≠ '"' && c ≠ '\''

/-- The entities without their ampersand. -/
def entityTails : List (List Char) :=
  [['a', 'm', 'p', ';'], ['l', 't', ';'], ['g', 't', ';'], ['q', 'u', 'o', 't', ';'],
    ['#', '3', '9', ';']]

/-- The escaped texts: plain characters and entities in any order. -/
inductive Escaped : List Char → Prop
  | nil : Escaped []
  | plain {c : Char} {cs : List Char} : isPlain c = true → Escaped cs → Escaped (c :: cs)
  | entity {tail cs : List Char} : tail ∈ entityTails → Escaped cs → Escaped ('&' :: tail ++ cs)

end Stencil
