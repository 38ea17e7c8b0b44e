import ScriptCompiler.Number.Binary64
import ScriptCompiler.Text.Rune

/-!
# Numerals

The reading of numbers from text.  An integer is an optional sign and decimal digits.  A double is a
decimal or hexadecimal numeral with an optional point and exponent, or the name of an infinity or of
the undefined value; digits may be grouped by single underscores.  A numeral denotes the double
nearest to it and is refused when it is beyond the largest one.
-/

namespace ScriptCompiler.Numeral

/-- A sign and the text after it. -/
def takeSign : Bytes → Bool × Bytes
  | 0x2B :: rest => (false, rest)
  | 0x2D :: rest => (true, rest)
  | text => (false, text)

/-- The value of decimal digits; nothing for an empty text or another character. -/
def natural? (text : Bytes) : Option Nat :=
  if text.isEmpty || !text.all fun byte => Rune.isDigit byte.toNat then none
  else some (text.foldl (fun value byte => value * 10 + (byte.toNat - 0x30)) 0)

/-- The value of an optional sign and decimal digits. -/
def integer? (text : Bytes) : Option Int :=
  let signed := takeSign text
  (natural? signed.2).map fun value => if signed.1 then -(value : Int) else value

/-- The least number above all integers of 64 bits. -/
def int64Limit : Int := 9223372036854775808

/-- Whether an integer fits in 64 bits. -/
def isInt64 (value : Int) : Bool := -int64Limit ≤ value && value < int64Limit

/-- An integer of 32 bits. -/
def int32? (text : Bytes) : Option Int :=
  (integer? text).filter fun value => -2147483648 ≤ value && value ≤ 2147483647

/-- The value of a digit in a base of at most sixteen. -/
def digit? (base : Nat) (byte : UInt8) : Option Nat :=
  let code := byte.toNat
  let value :=
    if 0x30 ≤ code && code ≤ 0x39 then code - 0x30
    else if 0x61 ≤ code && code ≤ 0x66 then code - 0x61 + 10
    else if 0x41 ≤ code && code ≤ 0x46 then code - 0x41 + 10
    else 16
  if value < base then some value else none

/-- The digits of a numeral: their value, how many there are, how many of them stand after the
point, and whether there is a point. -/
structure Digits where
  /-- The value of all digits, the point ignored. -/
  value : Nat := 0
  /-- The number of digits. -/
  count : Nat := 0
  /-- The number of digits after the point. -/
  fraction : Nat := 0
  /-- Whether the point was seen. -/
  point : Bool := false

/-- Reads digits, underscores and at most one point, and returns what follows them. -/
def readDigits (base : Nat) (digits : Digits) : Bytes → Digits × Bytes
  | [] => (digits, [])
  | byte :: rest =>
      if byte == 0x5F then readDigits base digits rest
      else if byte == 0x2E && !digits.point then readDigits base { digits with point := true } rest
      else
        match digit? base byte with
        | none => (digits, byte :: rest)
        | some value =>
            readDigits base
              { digits with
                value := digits.value * base + value
                count := digits.count + 1
                fraction := if digits.point then digits.fraction + 1 else digits.fraction } rest

/-- The value of the digits of an exponent.  It grows no further once it has five digits, which is
beyond the range of doubles either way. -/
def exponentValue (digits : Bytes) : Nat :=
  (digits.filter (· != 0x5F)).foldl
    (fun value byte => if value < 10000 then value * 10 + (byte.toNat - 0x30) else value) 0

/-- The exponent after the mark, which ends the numeral; nothing if there are no digits. -/
def exponent? (text : Bytes) : Option Int :=
  let signed := takeSign text
  match signed.2 with
  | [] => none
  | first :: _ =>
      if Rune.isDigit first.toNat &&
          signed.2.all fun byte => Rune.isDigit byte.toNat || byte == 0x5F then
        let value := exponentValue signed.2
        some (if signed.1 then -(value : Int) else value)
      else none

/-- What stands before a character of a numeral, as far as underscores are concerned. -/
inductive Before where
  /-- The beginning or another character. -/
  | other
  /-- A digit, or the mark of the base. -/
  | digit
  /-- An underscore. -/
  | underscore

/-- Whether every underscore stands between digits. -/
def underscoresSeparate (base : Nat) : Before → Bytes → Bool
  | .underscore, [] => false
  | _, [] => true
  | before, byte :: rest =>
      if (digit? base byte).isSome then underscoresSeparate base .digit rest
      else if byte == 0x5F then
        match before with
        | .digit => underscoresSeparate base .underscore rest
        | _ => false
      else
        match before with
        | .underscore => false
        | _ => underscoresSeparate base .other rest

/-- A text with the capitals of ASCII in lower case. -/
def lowerAscii (text : Bytes) : Bytes :=
  text.map fun byte => if 0x41 ≤ byte && byte ≤ 0x5A then byte + 0x20 else byte

/-- The names of the infinities, without the sign. -/
def isInfinityName (text : Bytes) : Bool :=
  lowerAscii text == Bytes.ofString "inf" || lowerAscii text == Bytes.ofString "infinity"

/-- The double of an unsigned decimal numeral. -/
def decimal? (negative : Bool) (text : Bytes) : Option Float :=
  let read := readDigits 10 {} text
  if read.1.count == 0 || !underscoresSeparate 10 .other text then none
  else
    let exponent? : Option Int :=
      match read.2 with
      | [] => some 0
      | mark :: rest => if mark == 0x65 || mark == 0x45 then exponent? rest else none
    exponent?.bind fun exponent =>
      let power := exponent - read.1.fraction
      Binary64.ofRatio? negative (read.1.value * Nat.pow 10 power.toNat) (Nat.pow 10 (-power).toNat)

/-- The double of an unsigned hexadecimal numeral, given without the mark of its base. -/
def hexadecimal? (negative : Bool) (text : Bytes) : Option Float :=
  let read := readDigits 16 {} text
  if read.1.count == 0 || !underscoresSeparate 16 .digit text then none
  else
    match read.2 with
    | [] => none
    | mark :: rest =>
        if mark == 0x70 || mark == 0x50 then
          (exponent? rest).bind fun exponent =>
            let power := exponent - 4 * read.1.fraction
            Binary64.ofRatio? negative (read.1.value * Nat.pow 2 power.toNat)
              (Nat.pow 2 (-power).toNat)
        else none

/-- The double that a numeral denotes. -/
def double? (text : Bytes) : Option Float :=
  if lowerAscii text == Bytes.ofString "nan" then some (Float.ofBits 0x7FF8000000000001)
  else
    let signed := takeSign text
    if isInfinityName signed.2 then some (Binary64.ofMagnitude signed.1 Binary64.infinityBits)
    else
      match signed.2 with
      | 0x30 :: mark :: next :: rest =>
          if mark == 0x78 || mark == 0x58 then hexadecimal? signed.1 (next :: rest)
          else decimal? signed.1 signed.2
      | _ => decimal? signed.1 signed.2

end ScriptCompiler.Numeral
