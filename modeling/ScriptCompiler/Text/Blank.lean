import ScriptCompiler.Text.Rune

/-!
# Blank runes

The code points with the property White_Space, and the removal of blanks at both ends of a text.
-/

namespace ScriptCompiler

/-- A white-space rune. -/
def Rune.isBlank (rune : Rune) : Bool :=
  (0x09 ≤ rune && rune ≤ 0x0D) || rune == 0x20 || rune == 0x85 || rune == 0xA0 || rune == 0x1680 ||
    (0x2000 ≤ rune && rune ≤ 0x200A) || rune == 0x2028 || rune == 0x2029 || rune == 0x202F ||
    rune == 0x205F || rune == 0x3000

/-- A text without the blanks at its two ends. -/
def Bytes.trim (text : Bytes) : Bytes :=
  let blank : Glyph → Bool := fun glyph => Rune.isBlank glyph.rune
  Glyph.text ((((Bytes.glyphs text).dropWhile blank).reverse.dropWhile blank).reverse)

end ScriptCompiler
