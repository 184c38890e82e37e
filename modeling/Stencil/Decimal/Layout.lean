import Stencil.Decimal.Shortest

/-!
# Written doubles

How the digits of a number are laid out: positionally within a range of magnitudes, and with an
exponent outside of it.
-/

namespace Stencil.Decimal

/-- What a layout decides: the magnitudes from `least` up to but not including `most` are written
positionally, and a whole number then keeps `tail` after its digits. -/
structure Layout where
  least : Int
  most : Int
  tail : String
  mark : String
  plus : String
  zero : String

/-- Numbers have a point and at least one digit on both sides of it from `0.00001` to below `10 ^ 16`;
the others have an exponent with its sign and no more digits than it needs. -/
def Layout.plain : Layout := ⟨-5, 16, ".0", "e", "+", "0.0"⟩

/-- The decimal digits of a number. -/
def digitChars (n : Nat) : List Char := Nat.toDigits 10 n

/-- The layout of a positive number. -/
def Layout.place (w : Layout) (s : Scientific) : String :=
  let ds := digitChars s.digits
  let magnitude : Int := s.exponent + ds.length - 1
  if w.least ≤ magnitude ∧ magnitude < w.most then
    if 0 ≤ s.exponent then
      String.ofList (ds ++ List.replicate s.exponent.toNat '0') ++ w.tail
    else if 0 ≤ magnitude then
      let whole := (magnitude + 1).toNat
      String.ofList (ds.take whole ++ '.' :: ds.drop whole)
    else
      String.ofList ('0' :: '.' :: List.replicate (-magnitude - 1).toNat '0' ++ ds)
  else
    let fraction := if ds.length ≤ 1 then [] else '.' :: ds.drop 1
    String.ofList (ds.take 1 ++ fraction) ++ w.mark ++ (if magnitude < 0 then "" else w.plus) ++
      toString magnitude

/-- The bit that holds the sign of a double. -/
def signBit : Nat := 0x8000000000000000

/-- The text of a finite double. -/
def Layout.write (w : Layout) (x : Float) : String :=
  let bits := x.toBits.toNat
  let magnitude := bits % signBit
  (if bits < signBit then "" else "-") ++
    if magnitude = 0 then w.zero else w.place (Binary.ofBits magnitude).shortest

end Stencil.Decimal
