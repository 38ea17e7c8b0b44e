import ScriptCompiler.Text.Rune

/-!
# The text of a YAML stream

A stream is spelt in UTF-8 or, behind a byte order mark, in UTF-16.  Its runes are read through a
cursor, which knows the place that it has reached: what follows, the line and the column.  The kinds
of line ends that mean the same are one rune before any reading begins.
-/

namespace ScriptCompiler.Yaml

/-- A blank within a line. -/
def isBlank (rune : Rune) : Bool := rune == 0x20 || rune == 0x09

/-- A line end. -/
def isBreak (rune : Rune) : Bool := rune == 0x0A || rune == 0x2028 || rune == 0x2029

/-- A blank or a line end. -/
def isGap (rune : Rune) : Bool := isBlank rune || isBreak rune

/-- A letter, a digit, an underscore or a hyphen. -/
def isWord (rune : Rune) : Bool :=
  Rune.isDigit rune || (0x41 ≤ rune && rune ≤ 0x5A) || (0x61 ≤ rune && rune ≤ 0x7A) ||
    rune == 0x5F || rune == 0x2D

/-- Whether a text ends, or goes on with a blank or a line end. -/
def startsGap (text : List Rune) : Bool := text.head?.all isGap

/-- A rune that a stream may hold. -/
def isStreamRune (rune : Rune) : Bool :=
  rune == 0x09 || rune == 0x0A || rune == 0x0D || (0x20 ≤ rune && rune ≤ 0x7E) || rune == 0x85 ||
    (0xA0 ≤ rune && rune ≤ 0xD7FF) || (0xE000 ≤ rune && rune ≤ 0xFFFD) ||
    (0x10000 ≤ rune && rune ≤ 0x10FFFF)

/-- A carriage return, a line feed, both in this order and a next line are all one line feed. -/
def unifyLines : List Rune → List Rune
  | [] => []
  | rune :: rest =>
      if rune == 0x0D && rest.head? == some 0x0A then unifyLines rest
      else if rune == 0x0D || rune == 0x85 then 0x0A :: unifyLines rest
      else rune :: unifyLines rest

/-- The units of two bytes, the higher byte first or last. -/
def units? (higherFirst : Bool) : Bytes → Option (List Nat)
  | [] => some []
  | [_] => none
  | first :: second :: rest =>
      let unit :=
        if higherFirst then first.toNat * 256 + second.toNat else second.toNat * 256 + first.toNat
      (units? higherFirst rest).map (unit :: ·)

/-- The first half of a rune of two units. -/
def isHighHalf (unit : Nat) : Bool := 0xD800 ≤ unit && unit ≤ 0xDBFF

/-- The second half of a rune of two units. -/
def isLowHalf (unit : Nat) : Bool := 0xDC00 ≤ unit && unit ≤ 0xDFFF

/-- The runes that units spell; `half` is the first half of a rune that is waiting for the
second. -/
def joinUnits? : Option Nat → List Nat → Option (List Rune)
  | none, [] => some []
  | some _, [] => none
  | none, unit :: rest =>
      if isLowHalf unit then none
      else if isHighHalf unit then joinUnits? (some unit) rest
      else (joinUnits? none rest).map (unit :: ·)
  | some half, unit :: rest =>
      if isLowHalf unit then
        (joinUnits? none rest).map ((0x10000 + (half - 0xD800) * 1024 + (unit - 0xDC00)) :: ·)
      else none

/-- The runes that a stream spells. -/
def spelled? (stream : Bytes) : Option (List Rune) :=
  match stream with
  | 0xFF :: 0xFE :: rest => units? false rest >>= joinUnits? none
  | 0xFE :: 0xFF :: rest => units? true rest >>= joinUnits? none
  | _ =>
      let text := Bytes.dropStart [0xEF, 0xBB, 0xBF] stream
      if Bytes.isWellFormed text then some (Bytes.runes text) else none

/-- The runes of a stream with unified line ends. -/
def streamRunes? (stream : Bytes) : Option (List Rune) :=
  match spelled? stream with
  | none => none
  | some runes => if runes.all isStreamRune then some (unifyLines runes) else none

/-- The bytes of a text. -/
def encode (text : List Rune) : Bytes := text.flatMap Rune.encode

/-- A place in a stream. -/
structure Cursor where
  /-- What follows. -/
  rest : List Rune
  /-- The number of lines before this one. -/
  line : Nat
  /-- The number of runes before this one in its line. -/
  column : Nat
  /-- Whether there are only blanks between the last line end and this place. -/
  fresh : Bool
  deriving DecidableEq, Repr

namespace Cursor

/-- The place behind the next rune. -/
def next (cursor : Cursor) : Cursor :=
  match cursor.rest with
  | [] => cursor
  | rune :: rest =>
      if isBreak rune then ⟨rest, cursor.line + 1, 0, true⟩
      else ⟨rest, cursor.line, cursor.column + 1, cursor.fresh && isBlank rune⟩

/-- The place behind a number of runes. -/
def skip : Nat → Cursor → Cursor
  | 0, cursor => cursor
  | count + 1, cursor => cursor.next.skip count

/-- The place behind the runes that satisfy a test. -/
def skipWhile (test : Rune → Bool) (cursor : Cursor) : Cursor :=
  cursor.skip (cursor.rest.takeWhile test).length

/-- The place at the end of the line. -/
def skipLine (cursor : Cursor) : Cursor := cursor.skipWhile fun rune => !isBreak rune

/-- Whether the next rune is a given one. -/
def isAt (rune : Rune) (cursor : Cursor) : Bool := cursor.rest.head? == some rune

/-- The place at the beginning of a text.  A byte order mark there is skipped. -/
def start (text : List Rune) : Cursor :=
  let cursor : Cursor := ⟨text, 0, 0, false⟩
  if cursor.isAt 0xFEFF then cursor.next else cursor

/-- Whether three runes at the beginning of a line are a mark between documents. -/
def atMarkOf (rune : Rune) (cursor : Cursor) : Bool :=
  cursor.column == 0 && cursor.rest.take 3 == [rune, rune, rune] && startsGap (cursor.rest.drop 3)

/-- Whether a mark between documents is next. -/
def atMark (cursor : Cursor) : Bool := cursor.atMarkOf 0x2D || cursor.atMarkOf 0x2E

/-- How far away a comment may be to be read together with what is before it. -/
def commentReach : Nat := 512

/-- The place behind a comment and the comments below it. -/
def skipComments : Nat → Cursor → Cursor
  | 0, cursor => cursor
  | fuel + 1, cursor =>
      let line := cursor.skipLine
      let gap := (line.rest.takeWhile isGap).length
      let below := line.skip gap
      if gap < commentReach && below.isAt 0x23 then below.skipComments fuel else line

/-- The place behind a comment on the same line; where there is none, the same place. -/
def skipLineComment (cursor : Cursor) : Cursor :=
  let gap := (cursor.rest.takeWhile isBlank).length
  let behind := cursor.skip gap
  if !cursor.fresh && gap < commentReach && behind.isAt 0x23 then behind.skipLine else cursor

/-- The place of the next content, and whether a key may begin there.  A tab may stand before the
content only where no key may begin or in a flow collection, and a new line lets a key begin again
unless it is in a flow collection. -/
def toContent (flow : Bool) : Nat → Bool → Cursor → Bool × Cursor
  | 0, keyAllowed, cursor => (keyAllowed, cursor)
  | fuel + 1, keyAllowed, cursor =>
      let behind :=
        cursor.skipWhile fun rune => rune == 0x20 || (rune == 0x09 && (flow || !keyAllowed))
      let here := if behind.isAt 0x23 then behind.skipComments (behind.rest.length + 1) else behind
      if here.rest.head?.any isBreak then toContent flow fuel (keyAllowed || !flow) here.next
      else (keyAllowed, here)

end Cursor

end ScriptCompiler.Yaml
