import Stencil.Decimal.Shortest
import Stencil.Toml.Lexical
import Stencil.Word

/-!
# Numbers of TOML

Integers in four bases, which have to fit in 64 bits, and doubles.
-/

namespace Stencil.Toml

/-- The number that digits of a base denote. -/
def ofDigits (base : Nat) (digits : List Nat) : Nat := digits.foldl (fun n d => base * n + d) 0

/-- Digits of a base, with single underscores between them. -/
def digits (base : Nat) : Read (List Nat)
  | c :: cs =>
    match (hexValue? c).filter (· < base) with
    | none => none
    | some d =>
      match cs with
      | '_' :: rest => (digits base rest).map fun p => (d :: p.1, p.2)
      | cs =>
        match digits base cs with
        | some (more, rest) => some (d :: more, rest)
        | none => some ([d], cs)
  | [] => none

/-- A sign, and whether it is a minus. -/
def signed : List Char → Bool × List Char
  | '-' :: cs => (true, cs)
  | '+' :: cs => (false, cs)
  | cs => (false, cs)

/-- The digits of a decimal integer, which has no zeros in front. -/
def decimalDigits : Read (List Nat)
  | '0' :: cs => some ([0], cs)
  | cs => digits 10 cs

/-- The integer when it fits in a word. -/
def checked (n : Int) (rest : List Char) : Option (Int × List Char) :=
  if Word.holdsInt n then some (n, rest) else none

/-- An integer. -/
def integer (cs : List Char) : Option (Int × List Char) :=
  let based (base : Nat) (cs : List Char) : Option (Int × List Char) := do
    let (ds, rest) ← digits base cs
    checked (ofDigits base ds) rest
  match cs with
  | '0' :: 'x' :: cs => based 16 cs
  | '0' :: 'o' :: cs => based 8 cs
  | '0' :: 'b' :: cs => based 2 cs
  | cs => do
    let (negative, cs) := signed cs
    let (ds, rest) ← decimalDigits cs
    let n : Int := ofDigits 10 ds
    checked (if negative then -n else n) rest

/-- The digits after a point. -/
def fraction : Read (List Nat)
  | '.' :: cs => digits 10 cs
  | _ => none

/-- A power of ten. -/
def exponent : Read Int
  | c :: cs =>
    if c = 'e' ∨ c = 'E' then do
      let (negative, cs) := signed cs
      let (ds, rest) ← digits 10 cs
      let n : Int := ofDigits 10 ds
      some (if negative then -n else n, rest)
    else none
  | [] => none

/-- A double: digits with a fraction, an exponent or both, or one of the two words. -/
def double (cs : List Char) : Option (Float × List Char) :=
  let (negative, cs) := signed cs
  let withSign (x : Float) : Float := if negative then -x else x
  match cs with
  | 'i' :: 'n' :: 'f' :: cs => some (withSign (1.0 / 0.0), cs)
  | 'n' :: 'a' :: 'n' :: cs => some (withSign (0.0 / 0.0), cs)
  | cs => do
    let (whole, cs) ← decimalDigits cs
    let (part, power, cs) ←
      match cs with
      | '.' :: _ => do
        let (part, cs) ← fraction cs
        match exponent cs with
        | some (power, cs) => some (part, power, cs)
        | none => some (part, 0, cs)
      | cs => do
        let (power, cs) ← exponent cs
        some ([], power, cs)
    let x := withSign (Decimal.toFloat ⟨ofDigits 10 (whole ++ part), power - part.length⟩)
    if x == 1.0 / 0.0 then none else some (x, cs)

end Stencil.Toml
