import ScriptCompiler.Text.Rune

/-!
# Tables of code points

The data of a character property is written as a string of rows: rows are separated by blanks or
line ends, and a row is a few hexadecimal numbers separated by hyphens.  A property that is a set of
code points has rows of one number (a single code point) or two (the first and the last of a range).
-/

namespace ScriptCompiler.CodeTable

/-- The value of a hexadecimal digit, upper or lower case; any other character counts as zero. -/
def hexValue (char : Char) : Nat :=
  if '0' ≤ char && char ≤ '9' then char.toNat - '0'.toNat
  else if 'A' ≤ char && char ≤ 'F' then char.toNat - 'A'.toNat + 10
  else if 'a' ≤ char && char ≤ 'f' then char.toNat - 'a'.toNat + 10
  else 0

/-- A reader's state: the rows read, the numbers of the row begun and the number begun, all with
the latest first. -/
structure Reader where
  /-- Complete rows, latest first. -/
  rows : List (List Nat) := []
  /-- Complete numbers of the current row, latest first. -/
  row : List Nat := []
  /-- The value of the digits of the current number, if it has begun. -/
  number : Option Nat := none

/-- The rows read once the current one is complete. -/
def Reader.close (reader : Reader) : List (List Nat) :=
  match reader.number with
  | some number => (number :: reader.row).reverse :: reader.rows
  | none => reader.rows

/-- Reads one character of a table. -/
def Reader.read (reader : Reader) (char : Char) : Reader :=
  if char == ' ' || char == '\n' then ⟨reader.close, [], none⟩
  else if char == '-' then ⟨reader.rows, reader.number.getD 0 :: reader.row, none⟩
  else ⟨reader.rows, reader.row, some (reader.number.getD 0 * 16 + hexValue char)⟩

/-- The rows of a table, in order. -/
def rows (table : String) : List (List Nat) := (table.toList.foldl Reader.read {}).close.reverse

/-- The ranges of a table of a set: first and last code point of each. -/
def ranges (table : String) : List (Rune × Rune) :=
  (rows table).filterMap fun
    | [single] => some (single, single)
    | first :: last :: _ => some (first, last)
    | [] => none

/-- Whether a code point lies in one of the ranges. -/
def covers (ranges : List (Rune × Rune)) (rune : Rune) : Bool :=
  ranges.any fun range => range.1 ≤ rune && rune ≤ range.2

end ScriptCompiler.CodeTable
