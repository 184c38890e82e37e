/-!
# Words

Numbers of 64 bits. The powers of two are written out.
-/

namespace Stencil.Word

/-- Whether an integer fits in a word with a sign. -/
def holdsInt (n : Int) : Bool := -0x8000000000000000 ≤ n && n < 0x8000000000000000

/-- Whether a number fits in a word without a sign. -/
def holdsNat (n : Nat) : Bool := n < 0x10000000000000000

end Stencil.Word
