import ScriptCompiler.Text.Printable

/-!
# Quoted text

A text written between quotation marks on one line: the quotation mark and the backslash are
escaped, printable runes stand as they are, the usual control characters have a letter, other
control characters and ill-formed bytes two hexadecimal digits, and every other rune four or eight.
-/

namespace ScriptCompiler

/-- The lower-case hexadecimal digit of a number below sixteen. -/
def hexDigit (value : Nat) : UInt8 :=
  if value < 10 then (0x30 + value).toUInt8 else (0x61 + (value - 10)).toUInt8

/-- The last `width` hexadecimal digits of a number, in lower case. -/
def hexDigits : Nat → Nat → Bytes
  | 0, _ => []
  | width + 1, value => hexDigits width (value / 16) ++ [hexDigit (value % 16)]

namespace Quoted

/-- The letter of a control character that has one. -/
def controlLetter? (rune : Rune) : Option UInt8 :=
  match rune with
  | 0x07 => some 0x61
  | 0x08 => some 0x62
  | 0x0C => some 0x66
  | 0x0A => some 0x6E
  | 0x0D => some 0x72
  | 0x09 => some 0x74
  | 0x0B => some 0x76
  | _ => none

/-- A rune between the quotation marks `mark`. -/
def escapeRune (mark rune : Rune) : Bytes :=
  if rune == mark || rune == 0x5C then 0x5C :: Rune.encode rune
  else if Rune.isPrintable rune then Rune.encode rune
  else
    match controlLetter? rune with
    | some letter => [0x5C, letter]
    | none =>
        if rune < 0x20 || rune == 0x7F then 0x5C :: 0x78 :: hexDigits 2 rune
        else if rune < 0x10000 then 0x5C :: 0x75 :: hexDigits 4 rune
        else 0x5C :: 0x55 :: hexDigits 8 rune

/-- A glyph between double quotation marks. -/
def escapeGlyph (glyph : Glyph) : Bytes :=
  match glyph.isIllFormed, glyph.bytes with
  | true, [byte] => 0x5C :: 0x78 :: hexDigits 2 byte.toNat
  | _, _ => escapeRune 0x22 glyph.rune

/-- A text in double quotation marks. -/
def text (text : Bytes) : Bytes := 0x22 :: ((Bytes.glyphs text).flatMap escapeGlyph ++ [0x22])

/-- A rune in single quotation marks. -/
def rune (rune : Rune) : Bytes := 0x27 :: (escapeRune 0x27 rune ++ [0x27])

end Quoted

end ScriptCompiler
