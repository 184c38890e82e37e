import Stencil.Text.CaseTable

/-!
# Case mappings

The full upper and lower case of a text. A character may become several, and a capital sigma that
ends a word becomes the final form of the small letter.
-/

namespace Stencil.Text

/-- The code point to which `runs` moves `n`, if one of them holds it. -/
def shifted? (runs : Array CaseRun) (n : Nat) : Option Nat :=
  (runs.find? fun r => r.first ≤ n && n ≤ r.last && (n - r.first) % r.step == 0).map
    fun r => (Int.ofNat n + r.shift).toNat

/-- The image of one character under the mapping given by `runs` and `expansions`. -/
def caseOf (runs : Array CaseRun) (expansions : List (Nat × List Nat)) (c : Char) : List Char :=
  match shifted? runs c.toNat with
  | some n => [Char.ofNat n]
  | none => ((expansions.lookup c.toNat).map (·.map Char.ofNat)).getD [c]

/-- The upper case of one character. -/
def upperChar (c : Char) : List Char :=
  if c.toNat < 128 then [c.toUpper] else caseOf upperRuns upperExpansions c

/-- The lower case of one character, whatever stands beside it. -/
def lowerChar (c : Char) : List Char :=
  if c.toNat < 128 then [c.toLower] else caseOf lowerRuns lowerExpansions c

/-- Whether one of `ranges` holds the character. -/
def inRanges (ranges : Array (Nat × Nat)) (c : Char) : Bool :=
  ranges.any fun r => r.1 ≤ c.toNat && c.toNat ≤ r.2

/-- Whether the first character that case does not ignore is a cased one. -/
def startsCased (cs : List Char) : Bool :=
  match cs.dropWhile (inRanges caseIgnorableRanges) with
  | [] => false
  | c :: _ => inRanges casedRanges c

/-- The lower case of the characters after `before`, whose characters are given last first. A capital
sigma takes its final form when a cased character stands before it and none after it, with those
that case ignores passed over. -/
def lowerAfter (before : List Char) : List Char → List Char
  | [] => []
  | c :: cs =>
    let image :=
      if c = 'Σ' then [if startsCased before && !startsCased cs then 'ς' else 'σ'] else lowerChar c
    image ++ lowerAfter (c :: before) cs

/-- The full upper case of a text. -/
def upper (s : String) : String := String.ofList (s.toList.flatMap upperChar)

/-- The full lower case of a text. -/
def lower (s : String) : String := String.ofList (lowerAfter [] s.toList)

end Stencil.Text
