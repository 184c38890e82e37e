/-!
# Percent encoding

Each byte that may not stand in a segment of a URL is written as a percent sign and two hexadecimal
digits.
-/

namespace Stencil.Text

/-- The printable bytes of ASCII that are encoded within a segment: the space, the quote, the number
and percent signs, the slash, the angle brackets, the question mark, the backtick and the braces. -/
def reservedBytes : List UInt8 :=
  [0x20, 0x22, 0x23, 0x25, 0x2F, 0x3C, 0x3E, 0x3F, 0x60, 0x7B, 0x7D]

/-- A byte is encoded when it is a control, lies outside ASCII or is reserved. -/
def needsPercent (b : UInt8) : Bool := b < 0x20 || 0x7F ≤ b || reservedBytes.contains b

/-- The upper case hexadecimal digit of a number below sixteen. -/
def hexDigit (n : Nat) : Char := Char.ofNat (if n < 10 then 48 + n else 55 + n)

/-- One byte as it is written. -/
def percentByte (b : UInt8) : List Char :=
  if needsPercent b then ['%', hexDigit (b.toNat / 16), hexDigit (b.toNat % 16)]
  else [Char.ofNat b.toNat]

/-- The percent-encoded form of a text. -/
def percentEncode (s : String) : String :=
  String.ofList (s.toUTF8.toList.flatMap percentByte)

end Stencil.Text
