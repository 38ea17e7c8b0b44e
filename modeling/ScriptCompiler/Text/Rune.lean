/-!
# Text as bytes and as runes

Source text, names and messages are byte lists, because a file may hold bytes that are no
well-formed UTF-8.  A text is read as a list of glyphs: a glyph is one rune together with the bytes
that spell it, and a byte that starts no well-formed sequence is a glyph of its own that reads as
the replacement rune.  The bytes of the glyphs of a text are the text again.
-/

namespace ScriptCompiler

/-- A text: its bytes, in order. -/
abbrev Bytes := List UInt8

/-- A Unicode code point. -/
abbrev Rune := Nat

namespace Rune

/-- The rune that an ill-formed byte reads as. -/
def replacement : Rune := 0xFFFD

/-- A code point that UTF-8 can spell: neither a surrogate nor beyond the last plane. -/
def isScalar (rune : Rune) : Bool :=
  rune < 0xD800 || (0xDFFF < rune && rune < 0x110000)

/-- The UTF-8 spelling of a rune; a code point that has none is spelt as the replacement rune. -/
def encode (rune : Rune) : Bytes :=
  let valid := if isScalar rune then rune else replacement
  if valid < 0x80 then [valid.toUInt8]
  else if valid < 0x800 then [(0xC0 + valid / 64).toUInt8, (0x80 + valid % 64).toUInt8]
  else if valid < 0x10000 then
    [(0xE0 + valid / 4096).toUInt8, (0x80 + valid / 64 % 64).toUInt8, (0x80 + valid % 64).toUInt8]
  else
    [(0xF0 + valid / 262144).toUInt8, (0x80 + valid / 4096 % 64).toUInt8,
      (0x80 + valid / 64 % 64).toUInt8, (0x80 + valid % 64).toUInt8]

/-- A decimal digit of ASCII. -/
def isDigit (rune : Rune) : Bool := 0x30 ≤ rune && rune ≤ 0x39

end Rune

/-- One rune of a text and the bytes that spell it. -/
structure Glyph where
  /-- The code point, or the replacement rune for an ill-formed byte. -/
  rune : Rune
  /-- The bytes read. -/
  bytes : Bytes
  deriving DecidableEq, Repr, Inhabited

namespace Glyph

/-- A byte in the range `0x80` to `0xBF`. -/
def isContinuation (byte : UInt8) : Bool := 0x80 ≤ byte && byte ≤ 0xBF

/-- Whether the second byte may follow the first one: the ranges that exclude overlong spellings,
surrogates and code points beyond the last plane. -/
def isSecond (lead second : UInt8) : Bool :=
  if lead == 0xE0 then 0xA0 ≤ second && second ≤ 0xBF
  else if lead == 0xED then 0x80 ≤ second && second ≤ 0x9F
  else if lead == 0xF0 then 0x90 ≤ second && second ≤ 0xBF
  else if lead == 0xF4 then 0x80 ≤ second && second ≤ 0x8F
  else isContinuation second

/-- The six payload bits of a continuation byte. -/
def payload (byte : UInt8) : Nat := byte.toNat % 64

/-- The glyph of a byte that starts no well-formed sequence. -/
def illFormed (byte : UInt8) : Glyph := ⟨Rune.replacement, [byte]⟩

/-- The first glyph of the nonempty text `lead :: rest`. -/
def first (lead : UInt8) (rest : Bytes) : Glyph :=
  if lead < 0x80 then ⟨lead.toNat, [lead]⟩
  else if lead < 0xC2 then illFormed lead
  else if lead < 0xE0 then
    match rest with
    | second :: _ =>
        if isContinuation second then
          ⟨(lead.toNat - 0xC0) * 64 + payload second, [lead, second]⟩
        else illFormed lead
    | [] => illFormed lead
  else if lead < 0xF0 then
    match rest with
    | second :: third :: _ =>
        if isSecond lead second && isContinuation third then
          ⟨((lead.toNat - 0xE0) * 64 + payload second) * 64 + payload third, [lead, second, third]⟩
        else illFormed lead
    | _ => illFormed lead
  else if lead < 0xF5 then
    match rest with
    | second :: third :: fourth :: _ =>
        if isSecond lead second && isContinuation third && isContinuation fourth then
          ⟨(((lead.toNat - 0xF0) * 64 + payload second) * 64 + payload third) * 64 + payload fourth,
            [lead, second, third, fourth]⟩
        else illFormed lead
    | _ => illFormed lead
  else illFormed lead

/-- Whether the glyph is an ill-formed byte and not a spelt rune. -/
def isIllFormed (glyph : Glyph) : Bool :=
  match glyph.bytes with
  | [byte] => 0x80 ≤ byte
  | _ => false

/-- The glyph that spells a rune. -/
def ofRune (rune : Rune) : Glyph := ⟨rune, Rune.encode rune⟩

/-- The text that a list of glyphs spells. -/
def text (glyphs : List Glyph) : Bytes := glyphs.flatMap Glyph.bytes

end Glyph

namespace Bytes

/-- The glyphs of a text after its first `skipped` bytes, which belong to a glyph already read. -/
def glyphsAfter : Nat → Bytes → List Glyph
  | _, [] => []
  | skipped + 1, _ :: rest => glyphsAfter skipped rest
  | 0, lead :: rest =>
      let glyph := Glyph.first lead rest
      glyph :: glyphsAfter (glyph.bytes.length - 1) rest

/-- The glyphs of a text. -/
def glyphs (text : Bytes) : List Glyph := glyphsAfter 0 text

/-- The runes of a text. -/
def runes (text : Bytes) : List Rune := (glyphs text).map Glyph.rune

/-- The number of runes of a text, an ill-formed byte counting as one. -/
def runeCount (text : Bytes) : Nat := (glyphs text).length

/-- The bytes of a string. -/
def ofString (string : String) : Bytes := string.toList.flatMap fun char => Rune.encode char.toNat

instance : Coe String Bytes := ⟨ofString⟩

/-- The decimal digits of a natural number. -/
def ofNat (number : Nat) : Bytes := ofString (Nat.repr number)

/-- The decimal digits of an integer, after a minus sign when it is negative. -/
def ofInt : Int → Bytes
  | .ofNat number => ofNat number
  | .negSucc number => 0x2D :: ofNat (number + 1)

/-- Texts put together with a separator between neighbours. -/
def join (separator : Bytes) (parts : List Bytes) : Bytes := separator.intercalate parts

/-- The text if the condition holds, and nothing otherwise. -/
def onlyIf (condition : Bool) (text : Bytes) : Bytes := if condition then text else []

/-- A text of `count` equal bytes. -/
def filled (count : Nat) (byte : UInt8) : Bytes := List.replicate count byte

/-- The parts of a text between occurrences of a byte; there is one part more than occurrences. -/
def splitOn (separator : UInt8) : Bytes → List Bytes
  | [] => [[]]
  | byte :: rest =>
      if byte == separator then [] :: splitOn separator rest
      else
        match splitOn separator rest with
        | [] => [[byte]]
        | part :: parts => (byte :: part) :: parts

/-- The text without `suffix`, if it ends with it. -/
def dropSuffix (suffix text : Bytes) : Bytes :=
  if suffix.isSuffixOf text then text.take (text.length - suffix.length) else text

/-- The text without `start`, if it begins with it. -/
def dropStart (start text : Bytes) : Bytes :=
  if start.isPrefixOf text then text.drop start.length else text

/-- Whether every glyph of the text is well formed. -/
def isWellFormed (text : Bytes) : Bool := (glyphs text).all fun glyph => !glyph.isIllFormed

/-- Order of texts by their bytes. -/
def le : Bytes → Bytes → Bool
  | [], _ => true
  | _ :: _, [] => false
  | left :: lefts, right :: rights => left < right || (left == right && le lefts rights)

end Bytes

end ScriptCompiler
