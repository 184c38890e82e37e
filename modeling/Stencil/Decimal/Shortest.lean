/-!
# Shortest decimals

A finite double is an interval of reals, those that round to it. Its shortest decimal is the one with
the fewest digits inside that interval, and of those the nearest to the double.
-/

namespace Stencil.Decimal

/-- The number `digits * 10 ^ exponent`. -/
structure Scientific where
  digits : Nat
  exponent : Int
  deriving DecidableEq, Repr

/-- A positive double `mantissa * 2 ^ exponent`. Next to a power of two the double below is half as
far away as the one above, and then `narrow` holds. -/
structure Binary where
  mantissa : Nat
  exponent : Int
  narrow : Bool
  deriving DecidableEq, Repr

/-- The leading bit of a mantissa, which is not stored. -/
def hiddenBit : Nat := 0x10000000000000

/-- The finite double that the low 63 bits of `bits` encode. -/
def Binary.ofBits (bits : Nat) : Binary :=
  let fraction := bits % hiddenBit
  let biased := bits / hiddenBit % 0x800
  if biased = 0 then ⟨fraction, -1074, false⟩
  else ⟨hiddenBit + fraction, (biased : Int) - 1075, decide (fraction = 0 ∧ biased ≠ 1)⟩

/-- The reals that round to a double, as quarters of its last place over a common denominator:
`low / den` to `high / den`, with `mid / den` the double itself. -/
structure Interval where
  low : Nat
  mid : Nat
  high : Nat
  den : Nat
  closed : Bool

/-- The interval of a double. Its ends belong to it when the mantissa is even, because a tie rounds
to the even neighbour. -/
def Binary.interval (b : Binary) : Interval :=
  let up := Nat.pow 2 (b.exponent - 2).toNat
  let mid := 4 * b.mantissa
  { low := (mid - if b.narrow then 1 else 2) * up
    mid := mid * up
    high := (mid + 2) * up
    den := Nat.pow 2 (2 - b.exponent).toNat
    closed := decide (b.mantissa % 2 = 0) }

/-- The same interval in units of `10 ^ k`. -/
def Interval.scale (i : Interval) (k : Int) : Interval :=
  let up := Nat.pow 10 (-k).toNat
  { i with
    low := i.low * up
    mid := i.mid * up
    high := i.high * up
    den := i.den * Nat.pow 10 k.toNat }

/-- Whether the integer `n` lies in the interval. -/
def Interval.holds (i : Interval) (n : Nat) : Bool :=
  let x := n * i.den
  if i.closed then i.low ≤ x && x ≤ i.high else i.low < x && x < i.high

/-- The integer of the interval nearest to its middle, when it holds one of the two beside it. Of two
equally near ones it is the even one. -/
def Interval.nearest? (i : Interval) : Option Nat :=
  let below := i.mid / i.den
  let above := below + 1
  match i.holds below, i.holds above with
  | false, false => none
  | true, false => some below
  | false, true => some above
  | true, true =>
    let down := i.mid - below * i.den
    let up := above * i.den - i.mid
    if down < up then some below
    else if up < down then some above
    else some (if below % 2 = 0 then below else above)

/-- The exponent `e` for which a positive double lies between `10 ^ e` and `10 ^ (e + 1)`. -/
def Binary.magnitude (b : Binary) : Int :=
  let guess := ((b.mantissa.log2 : Int) + b.exponent) * 30103 / 100000
  let reaches (e : Int) : Bool :=
    let i := b.interval.scale e
    i.den ≤ i.mid
  if reaches (guess + 1) then guess + 1 else if reaches guess then guess else guess - 1

/-- The nearest decimal with the fewest digits, tried from `count` digits on. -/
def Binary.search (b : Binary) (count : Nat) : Nat → Scientific
  | 0 => ⟨b.mantissa, b.exponent⟩
  | fuel + 1 =>
    let k := b.magnitude + 1 - count
    match (b.interval.scale k).nearest? with
    | some n => ⟨n, k⟩
    | none => b.search (count + 1) fuel

/-- The number without the zeros at the end of its digits; `fuel` bounds their count. -/
def Scientific.strip (s : Scientific) : Nat → Scientific
  | 0 => s
  | fuel + 1 =>
    if s.digits ≠ 0 ∧ s.digits % 10 = 0 then strip ⟨s.digits / 10, s.exponent + 1⟩ fuel else s

/-- The shortest decimal of a positive double. Seventeen digits always suffice. -/
def Binary.shortest (b : Binary) : Scientific := (b.search 1 17).strip 20

/-- The double nearest to a decimal. Exponents that are out of reach of every double give zero or
infinity without the power of ten being formed. -/
def toFloat (s : Scientific) : Float :=
  let size : Int := (Nat.toDigits 10 s.digits).length
  if s.digits = 0 then 0.0
  else if 400 < size + s.exponent then Float.ofScientific 1 false 400
  else if size + s.exponent < -400 then 0.0
  else if s.exponent < 0 then Float.ofScientific s.digits true (-s.exponent).toNat
  else Float.ofScientific s.digits false s.exponent.toNat

end Stencil.Decimal
