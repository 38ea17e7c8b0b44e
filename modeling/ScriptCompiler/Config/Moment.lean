import ScriptCompiler.Number.Numeral

/-!
# Dates and times

The parts of a moment as configurations write it.  Each reader takes a part from the front of a text
and returns what follows.  A part is a number of two digits; where fields may be short, one digit is
enough.
-/

namespace ScriptCompiler.Moment

/-- A number of two digits, or of one where fields may be short. -/
def field? (short : Bool) (text : Bytes) : Option (Nat × Bytes) :=
  match text with
  | [] => none
  | first :: rest =>
      let second := (rest.take 1).filter fun byte => Rune.isDigit byte.toNat
      if second.isEmpty && !short then none
      else (Numeral.natural? (first :: second)).map fun value => (value, rest.drop second.length)

/-- A field that is at most a given number. -/
def boundedField? (short : Bool) (most : Nat) (text : Bytes) : Option Bytes :=
  match field? short text with
  | none => none
  | some (value, rest) => if value ≤ most then some rest else none

/-- A byte that must stand at the front. -/
def mark? (mark : UInt8) (text : Bytes) : Option Bytes :=
  if text.head? == some mark then some (text.drop 1) else none

/-- The number of days of a month. -/
def daysIn (year month : Nat) : Nat :=
  if month == 2 then
    if year % 4 == 0 && (year % 100 != 0 || year % 400 == 0) then 29 else 28
  else if month == 4 || month == 6 || month == 9 || month == 11 then 30
  else 31

/-- A date: a year of four digits, a month and a day. -/
def date? (short : Bool) (text : Bytes) : Option Bytes := do
  let year ← (Numeral.natural? (text.take 4)).filter fun _ => 4 ≤ text.length
  let (month, afterMonth) ← mark? 0x2D (text.drop 4) >>= field? short
  let (day, rest) ← mark? 0x2D afterMonth >>= field? short
  if 1 ≤ month && month ≤ 12 && 1 ≤ day && day ≤ daysIn year month then return rest else none

/-- The part of a second behind a point or a comma, if it is there. -/
def fraction (text : Bytes) : Bytes :=
  let rest := (text.drop 1).dropWhile fun byte => Rune.isDigit byte.toNat
  if (text.head? == some 0x2E || text.head? == some 0x2C) && rest.length + 1 < text.length then rest
  else text

/-- A time of day: hours, minutes and seconds. -/
def clock? (short : Bool) (text : Bytes) : Option Bytes := do
  let afterHour ← boundedField? short 23 text >>= mark? 0x3A
  let afterMinute ← boundedField? short 59 afterHour >>= mark? 0x3A
  let rest ← boundedField? short 59 afterMinute
  return fraction rest

/-- The distance from universal time. -/
def zone? (text : Bytes) : Option Bytes := do
  match text with
  | [] => none
  | sign :: rest =>
      if sign == 0x5A then return rest
      if sign != 0x2B && sign != 0x2D then none
      boundedField? false 24 rest >>= mark? 0x3A >>= boundedField? false 60

end ScriptCompiler.Moment
