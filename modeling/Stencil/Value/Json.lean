import Stencil.Value.Basic
import Stencil.Decimal.Layout

/-!
# JSON text

The compact JSON text of a value: no spaces, and no escapes but those that a text needs.
-/

namespace Stencil

/-- One of the sixteen lower case hexadecimal digits. -/
def lowerHexDigit (n : Nat) : Char := Char.ofNat (if n < 10 then 48 + n else 87 + n)

/-- A character as it stands within a JSON text. Only the quote, the backslash and the controls below
the space are escaped. -/
def jsonChar (c : Char) : List Char :=
  if c = '"' then ['\\', '"']
  else if c = '\\' then ['\\', '\\']
  else if c = '\n' then ['\\', 'n']
  else if c = '\t' then ['\\', 't']
  else if c = '\r' then ['\\', 'r']
  else if c.toNat = 8 then ['\\', 'b']
  else if c.toNat = 12 then ['\\', 'f']
  else if c.toNat < 32 then
    ['\\', 'u', '0', '0', lowerHexDigit (c.toNat / 16), lowerHexDigit (c.toNat % 16)]
  else [c]

/-- The JSON text of a string. -/
def jsonString (s : String) : String :=
  String.ofList ('"' :: s.toList.flatMap jsonChar ++ ['"'])

/-- The text of an integer. -/
def intText (n : Int) : String := toString n

/-- The text of a double. -/
def floatText (x : Float) : String := Decimal.Layout.plain.write x

/-- The text of a truth value. -/
def boolText (b : Bool) : String := if b then "true" else "false"

mutual

/-- The JSON text of a value. -/
def Value.json : Value → String
  | .null => "null"
  | .bool b => boolText b
  | .int n => intText n
  | .float x => floatText x
  | .str s => jsonString s
  | .arr items => "[" ++ ",".intercalate (Value.jsonItems items) ++ "]"
  | .obj fields => "\x7b" ++ ",".intercalate (Value.jsonFields fields) ++ "\x7d"

/-- The JSON texts of the items of a list. -/
def Value.jsonItems : List Value → List String
  | [] => []
  | v :: vs => v.json :: Value.jsonItems vs

/-- The JSON texts of the fields of an object. -/
def Value.jsonFields : List (String × Value) → List String
  | [] => []
  | (name, v) :: rest => (jsonString name ++ ":" ++ v.json) :: Value.jsonFields rest

end

end Stencil
