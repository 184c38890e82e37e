import Stencil.Toml.Number

/-!
# Dates and times of TOML

A moment is a date, a time of day, or both with an optional offset. Where there are only tables and
texts, a moment is a table with one entry, its text under the key of moments.
-/

namespace Stencil.Toml

/-- A day of a year. -/
structure Date where
  year : Nat
  month : Nat
  day : Nat
  deriving DecidableEq, Repr

/-- A time of day, with parts of a second in billionths. -/
structure Time where
  hour : Nat
  minute : Nat
  second : Nat
  nanosecond : Nat
  deriving DecidableEq, Repr

/-- The distance of a clock from universal time. -/
inductive Offset where
  | universal
  | minutes (n : Int)
  deriving DecidableEq, Repr

/-- A moment. -/
structure Moment where
  date? : Option Date
  time? : Option Time
  offset? : Option Offset
  deriving DecidableEq, Repr

/-- A number of exactly `count` decimal digits between two bounds. -/
def fixed (count low high : Nat) (cs : List Char) : Option (Nat × List Char) := do
  let ds := cs.take count
  if ds.length ≠ count ∨ !ds.all Char.isDigit then none
  let n := ofDigits 10 (ds.map fun c => c.toNat - 48)
  if low ≤ n ∧ n ≤ high then some (n, cs.drop count) else none

/-- The characters after one that has to be `mark`. -/
def expect (mark : Char) : List Char → Option (List Char)
  | c :: cs => if c = mark then some cs else none
  | [] => none

/-- The number of days in a month. -/
def daysIn (year month : Nat) : Nat :=
  if month = 2 then
    if year % 4 = 0 ∧ (year % 100 ≠ 0 ∨ year % 400 = 0) then 29 else 28
  else if month = 4 ∨ month = 6 ∨ month = 9 ∨ month = 11 then 30
  else 31

/-- A date. -/
def date (cs : List Char) : Option (Date × List Char) := do
  let (year, cs) ← fixed 4 0 9999 cs
  let cs ← expect '-' cs
  let (month, cs) ← fixed 2 1 12 cs
  let cs ← expect '-' cs
  let (day, cs) ← fixed 2 1 (daysIn year month) cs
  some (⟨year, month, day⟩, cs)

/-- The billionths of a second that the digits after its point denote; further digits are dropped. -/
def nanoseconds (ds : List Char) : Nat :=
  let kept := ds.take 9
  ofDigits 10 (kept.map fun c => c.toNat - 48) * Nat.pow 10 (9 - kept.length)

/-- A time of day. The sixtieth second is a leap second. -/
def time (cs : List Char) : Option (Time × List Char) := do
  let (hour, cs) ← fixed 2 0 23 cs
  let cs ← expect ':' cs
  let (minute, cs) ← fixed 2 0 59 cs
  let cs ← expect ':' cs
  let (second, cs) ← fixed 2 0 60 cs
  match cs with
  | '.' :: c :: rest =>
    if c.isDigit then
      some (⟨hour, minute, second, nanoseconds (c :: rest.takeWhile Char.isDigit)⟩,
        rest.dropWhile Char.isDigit)
    else none
  | cs => some (⟨hour, minute, second, 0⟩, cs)

/-- An offset. -/
def offset : Read Offset
  | c :: cs =>
    if c = 'Z' ∨ c = 'z' then some (.universal, cs)
    else if c = '+' ∨ c = '-' then do
      let (hours, cs) ← fixed 2 0 23 cs
      let cs ← expect ':' cs
      let (minutes, cs) ← fixed 2 0 59 cs
      let n : Int := hours * 60 + minutes
      some (.minutes (if c = '-' then -n else n), cs)
    else none
  | [] => none

/-- The time and the offset after a date, behind the letter or the space that divides them. -/
def timeOfDate : Read (Time × Option Offset)
  | c :: cs =>
    if c = 'T' ∨ c = 't' ∨ c = ' ' then do
      let (t, cs) ← time cs
      match offset cs with
      | some (o, cs) => some ((t, some o), cs)
      | none => some ((t, none), cs)
    else none
  | [] => none

/-- A moment. -/
def moment (cs : List Char) : Option (Moment × List Char) :=
  match date cs with
  | some (d, cs) =>
    match timeOfDate cs with
    | some ((t, o), cs) => some (⟨some d, some t, o⟩, cs)
    | none => some (⟨some d, none, none⟩, cs)
  | none => (time cs).map fun p => (⟨none, some p.1, none⟩, p.2)

/-- A number with zeros in front up to a width. -/
def padded (width n : Nat) : String :=
  let ds := Nat.toDigits 10 n
  String.ofList (List.replicate (width - ds.length) '0' ++ ds)

/-- The text of a date. -/
def Date.text (d : Date) : String := padded 4 d.year ++ "-" ++ padded 2 d.month ++ "-" ++ padded 2 d.day

/-- The text of a time, without zeros at the end of its fraction. -/
def Time.text (t : Time) : String :=
  let fraction :=
    if t.nanosecond = 0 then ""
    else
      "." ++ String.ofList
        ((padded 9 t.nanosecond).toList.reverse.dropWhile (· = '0')).reverse
  padded 2 t.hour ++ ":" ++ padded 2 t.minute ++ ":" ++ padded 2 t.second ++ fraction

/-- The text of an offset. -/
def Offset.text : Offset → String
  | .universal => "Z"
  | .minutes n =>
    (if n < 0 then "-" else "+") ++ padded 2 (n.natAbs / 60) ++ ":" ++ padded 2 (n.natAbs % 60)

/-- The text of a moment. -/
def Moment.text (m : Moment) : String :=
  (m.date?.map Date.text).getD "" ++ (if m.date?.isSome ∧ m.time?.isSome then "T" else "") ++
    (m.time?.map Time.text).getD "" ++ (m.offset?.map Offset.text).getD ""

/-- The moment that a whole text denotes. -/
def Moment.ofText? (s : String) : Option Moment :=
  match moment s.toList with
  | some (m, []) => some m
  | _ => none

/-- The key of the one entry that a moment has where it stands for a table. -/
def Moment.key : String := "$__toml_private_datetime"

end Stencil.Toml
