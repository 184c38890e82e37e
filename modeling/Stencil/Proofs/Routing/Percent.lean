import Mathlib.Tactic.SplitIfs
import Stencil.Text.Percent

/-!
# Reading percent encoding back

Percent encoding is read back byte by byte, and the bytes are read as UTF-8. Main statements:
`percentDecode_percentEncode`, by which encoding loses nothing, and `isSegmentChar_percentEncode`, by
which an encoded text holds no character that means something in a URL.
-/

namespace Stencil.Text

/-- The number for which a hexadecimal digit of either case stands. -/
def hexValue? (c : Char) : Option Nat :=
  if '0' ≤ c ∧ c ≤ '9' then some (c.toNat - 48)
  else if 'A' ≤ c ∧ c ≤ 'F' then some (c.toNat - 55)
  else if 'a' ≤ c ∧ c ≤ 'f' then some (c.toNat - 87)
  else none

/-- The bytes for which an encoded text stands: a percent sign and two hexadecimal digits for the byte
that the digits denote, and any other character for its own bytes. -/
def percentBytes : List Char → List UInt8
  | '%' :: a :: b :: cs =>
    match hexValue? a, hexValue? b with
    | some x, some y => UInt8.ofNat (16 * x + y) :: percentBytes cs
    | _, _ => String.utf8EncodeChar '%' ++ percentBytes (a :: b :: cs)
  | c :: cs => String.utf8EncodeChar c ++ percentBytes cs
  | [] => []

/-- The text for which an encoded text stands, if its bytes are one in UTF-8. -/
def percentDecode? (cs : List Char) : Option String :=
  String.fromUTF8? (percentBytes cs).toByteArray

/-- The characters of an encoded text: printable ones of ASCII that are not reserved. -/
def IsSegmentChar (c : Char) : Prop :=
  ' ' < c ∧ c < '\x7f' ∧ c ∉ ['"', '#', '/', '<', '>', '?', '`', '\x7b', '\x7d']

/-! ### Bytes -/

/-- The bytes of an array in order, behind those that have been collected. -/
theorem byteArray_toList_loop (bytes : ByteArray) (i : Nat) (found : List UInt8) :
    ByteArray.toList.loop bytes i found = found.reverse ++ bytes.data.toList.drop i := by
  induction i, found using ByteArray.toList.loop.induct bytes with
  | case1 i found hlt ih =>
    have hdrop : bytes.data.toList.drop i = bytes.data[i] :: bytes.data.toList.drop (i + 1) := by
      rw [List.drop_eq_getElem_cons (by simpa using hlt)]
      rfl
    have hget : bytes.get! i = bytes.data[i] := getElem!_pos bytes.data i hlt
    rw [ByteArray.toList.loop, if_pos hlt, ih, hdrop, hget, List.reverse_cons, List.append_assoc]
    rfl
  | case2 i found hge =>
    rw [ByteArray.toList.loop, if_neg hge, List.drop_of_length_le (by simpa using hge),
      List.append_nil]

/-- The bytes that are listed for an array are those of its data. -/
theorem byteArray_toList (bytes : ByteArray) : bytes.toList = bytes.data.toList := by
  rw [ByteArray.toList, byteArray_toList_loop]
  rfl

/-- An array is made of the bytes that are listed for it. -/
theorem toByteArray_toList (bytes : ByteArray) : bytes.toList.toByteArray = bytes := by
  apply ByteArray.ext
  apply Array.toList_inj.1
  rw [List.toList_data_toByteArray, byteArray_toList]

/-- What holds of the bytes that two hexadecimal digits denote holds of every byte. -/
theorem forall_byte {p : UInt8 → Prop} (h : ∀ x < 16, ∀ y < 16, p (UInt8.ofNat (16 * x + y)))
    (b : UInt8) : p b := by
  have hb := b.toNat_lt
  have hbyte := h (b.toNat / 16) (by omega) (b.toNat % 16) (by omega)
  rwa [Nat.div_add_mod, UInt8.ofNat_toNat] at hbyte

/-- A hexadecimal digit is read back. -/
theorem hexValue?_hexDigit {n : Nat} (h : n < 16) : hexValue? (hexDigit n) = some n := by
  revert n
  decide

/-- A byte that is written as a character is the one byte of that character, which is no percent sign.
-/
theorem utf8EncodeChar_of_needsPercent (b : UInt8) : needsPercent b = false →
    Char.ofNat b.toNat ≠ '%' ∧ String.utf8EncodeChar (Char.ofNat b.toNat) = [b] := by
  revert b
  exact forall_byte (by decide +kernel)

/-- A character that is no percent sign stands for its own bytes. -/
theorem percentBytes_cons {c : Char} (h : c ≠ '%') (cs : List Char) :
    percentBytes (c :: cs) = String.utf8EncodeChar c ++ percentBytes cs := by
  rw [percentBytes]
  rintro a b ds rfl
  exact absurd rfl h

/-- The written form of a byte is read back as that byte, whatever stands behind it. -/
theorem percentBytes_percentByte_append (b : UInt8) (cs : List Char) :
    percentBytes (percentByte b ++ cs) = b :: percentBytes cs := by
  rw [percentByte]
  split_ifs with h
  · have hb := b.toNat_lt
    have hhigh : hexValue? (hexDigit (b.toNat / 16)) = some (b.toNat / 16) :=
      hexValue?_hexDigit (by omega)
    have hlow : hexValue? (hexDigit (b.toNat % 16)) = some (b.toNat % 16) :=
      hexValue?_hexDigit (by omega)
    have hsum : 16 * (b.toNat / 16) + b.toNat % 16 = b.toNat := Nat.div_add_mod _ _
    simp only [List.cons_append, List.nil_append, percentBytes, hhigh, hlow, hsum,
      UInt8.ofNat_toNat]
  · obtain ⟨hne, hbytes⟩ := utf8EncodeChar_of_needsPercent b (by simpa using h)
    rw [List.singleton_append, percentBytes_cons hne, hbytes]
    rfl

/-- Encoded bytes are read back. -/
theorem percentBytes_flatMap (bytes : List UInt8) :
    percentBytes (bytes.flatMap percentByte) = bytes := by
  induction bytes with
  | nil => rfl
  | cons b bytes ih => rw [List.flatMap_cons, percentBytes_percentByte_append, ih]

/-- An encoded text is what its bytes are written as, one after another. -/
theorem toList_percentEncode (s : String) :
    (percentEncode s).toList = s.toUTF8.data.toList.flatMap percentByte := by
  rw [percentEncode, String.toList_ofList, byteArray_toList]

/-- An encoded text is read back. -/
theorem percentDecode_percentEncode (s : String) :
    percentDecode? (percentEncode s).toList = some s := by
  rw [percentDecode?, percentEncode, String.toList_ofList, percentBytes_flatMap, toByteArray_toList,
    String.fromUTF8?]
  exact dif_pos s.isValidUTF8

/-- A hexadecimal digit is printable and not reserved. -/
theorem isSegmentChar_hexDigit {n : Nat} (h : n < 16) : IsSegmentChar (hexDigit n) := by
  revert n
  unfold IsSegmentChar
  decide

/-- A byte that is written as a character is printable and not reserved. -/
theorem isSegmentChar_of_needsPercent (b : UInt8) :
    needsPercent b = false → IsSegmentChar (Char.ofNat b.toNat) := by
  revert b
  unfold IsSegmentChar
  exact forall_byte (by decide +kernel)

/-- Only printable characters of ASCII that are not reserved are written for a byte. -/
theorem isSegmentChar_percentByte (b : UInt8) : ∀ c ∈ percentByte b, IsSegmentChar c := by
  rw [percentByte]
  split_ifs with h
  · have hb := b.toNat_lt
    have hpercent : IsSegmentChar '%' := by
      unfold IsSegmentChar
      decide
    have hhigh : IsSegmentChar (hexDigit (b.toNat / 16)) := isSegmentChar_hexDigit (by omega)
    have hlow : IsSegmentChar (hexDigit (b.toNat % 16)) := isSegmentChar_hexDigit (by omega)
    simp [hpercent, hhigh, hlow]
  · exact List.forall_mem_singleton.2 (isSegmentChar_of_needsPercent b (by simpa using h))

/-- Only printable characters of ASCII that are not reserved are in an encoded text. -/
theorem isSegmentChar_percentEncode (s : String) :
    ∀ c ∈ (percentEncode s).toList, IsSegmentChar c := by
  intro c hc
  rw [toList_percentEncode, List.mem_flatMap] at hc
  obtain ⟨b, -, hb⟩ := hc
  exact isSegmentChar_percentByte b c hb

end Stencil.Text
