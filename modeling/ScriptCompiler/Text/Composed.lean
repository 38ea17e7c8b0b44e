import ScriptCompiler.Text.Decomposition

/-!
# Composed text

Two spellings of one character, such as a letter with an accent and the letter followed by the
accent, are made equal by composing a text canonically.  The text is cut into segments, a starter
and the combining runes after it; the runes of a segment are decomposed, ordered by combining class
and composed again.  A segment holds at most thirty combining runes: a longer one is cut by a
grapheme joiner.  A text that ends within a multi-byte sequence keeps its tail from there on as it
is.
-/

namespace ScriptCompiler

namespace Segment

/-- The largest number of combining runes in a segment. -/
def combiningLimit : Nat := 30

/-- The joiner put at the end of a segment that is full. -/
def graphemeJoiner : Glyph := Glyph.ofRune 0x034F

/-- Puts a glyph before the first neighbour from the right that has no higher combining class; the
list is given from right to left. -/
def insertFromRight (glyph : Glyph) : List Glyph → List Glyph
  | [] => [glyph]
  | last :: others =>
      if Rune.combiningClass glyph.rune != 0 &&
          Rune.combiningClass glyph.rune < Rune.combiningClass last.rune then
        last :: insertFromRight glyph others
      else glyph :: last :: others

/-- The decomposition of a glyph. -/
def decomposeGlyph (glyph : Glyph) : List Glyph :=
  if Rune.isHangulSyllable glyph.rune || (Rune.decomposeOnce glyph.rune).isSome then
    (Rune.decompose glyph.rune).map Glyph.ofRune
  else [glyph]

/-- The decomposed glyphs of a segment in canonical order. -/
def ordered (segment : List Glyph) : List Glyph :=
  ((segment.flatMap decomposeGlyph).foldl (fun before glyph => insertFromRight glyph before)
    []).reverse

/-- A composition in progress: what is complete, the latest starter, and the glyphs after that
starter that did not combine with it, latest first. -/
structure Composition where
  /-- The glyphs before the latest starter. -/
  complete : List Glyph := []
  /-- The latest starter. -/
  starter : Option Glyph := none
  /-- The glyphs kept after the starter, latest first. -/
  pending : List Glyph := []

/-- The glyphs of a composition, in order. -/
def Composition.glyphs (composition : Composition) : List Glyph :=
  composition.complete ++ composition.starter.toList ++ composition.pending.reverse

/-- Keeps a glyph uncombined: a starter begins anew, another glyph stays behind the starter. -/
def Composition.keep (composition : Composition) (glyph : Glyph) : Composition :=
  if Rune.combiningClass glyph.rune == 0 then ⟨composition.glyphs, some glyph, []⟩
  else { composition with pending := glyph :: composition.pending }

/-- Whether a glyph kept after the starter stands between it and a glyph of the given class. -/
def Composition.blocks (composition : Composition) (combiningClass : Nat) : Bool :=
  match composition.pending with
  | [] => false
  | last :: _ => combiningClass ≤ Rune.combiningClass last.rune

/-- Adds the next glyph of a segment. -/
def Composition.add (composition : Composition) (glyph : Glyph) : Composition :=
  match composition.starter with
  | none => composition.keep glyph
  | some starter =>
      if Rune.combinesBackward glyph.rune &&
          !composition.blocks (Rune.combiningClass glyph.rune) then
        match Rune.composePair starter.rune glyph.rune with
        | some rune => { composition with starter := some (Glyph.ofRune rune) }
        | none => composition.keep glyph
      else composition.keep glyph

/-- The composed glyphs of a segment. -/
def compose (segment : List Glyph) : List Glyph :=
  ((ordered segment).foldl Composition.add {}).glyphs

end Segment

namespace Bytes

/-- The number of bytes of the sequence that a lead byte begins. -/
def sequenceLength (lead : UInt8) : Nat :=
  if lead < 0xC2 then 1
  else if lead < 0xE0 then 2
  else if lead < 0xF0 then 3
  else if lead < 0xF8 then 4
  else 1

/-- Whether a list of glyphs begins with a lead byte whose sequence the text is too short for. -/
def endsTruncated (glyphs : List Glyph) : Bool :=
  match glyphs with
  | glyph :: rest =>
      match glyph.bytes with
      | [lead] => 1 + ((rest.take 3).flatMap Glyph.bytes).length < sequenceLength lead
      | _ => false
  | [] => false

/-- Composes a list of glyphs; `segment` holds the glyphs of the segment begun, latest first, and
`combining` counts its combining runes. -/
def composeFrom (segment : List Glyph) (combining : Nat) : List Glyph → List Glyph
  | [] => Segment.compose segment.reverse
  | glyph :: rest =>
      if endsTruncated (glyph :: rest) then Segment.compose segment.reverse ++ glyph :: rest
      else
        let ends := Rune.combiningEnds glyph.rune
        if Segment.combiningLimit < combining + ends.1 then
          Segment.compose (segment.reverse ++ [Segment.graphemeJoiner]) ++
            composeFrom [glyph] ends.1 rest
        else if ends.1 == 0 then
          Segment.compose segment.reverse ++ composeFrom [glyph] ends.2 rest
        else composeFrom (glyph :: segment) (combining + ends.1) rest

/-- The canonically composed form of a text.  A text of ASCII bytes is its own composed form. -/
def composed (text : Bytes) : Bytes :=
  if text.all (· < 0x80) then text else Glyph.text (composeFrom [] 0 (glyphs text))

end Bytes

end ScriptCompiler
