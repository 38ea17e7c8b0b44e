import ScriptCompiler.Text.Rune

/-!
# Positions and spans

A position names a place in a source file by line, column and byte offset.  A position without a
line number means that no place is known.
-/

namespace ScriptCompiler

/-- A place in a source file. -/
structure Position where
  /-- The name of the file. -/
  file : Bytes := []
  /-- The line, counted from one. -/
  line : Int := 0
  /-- The column, counted from one in runes. -/
  column : Int := 0
  /-- The number of bytes before the place. -/
  offset : Int := 0
  deriving DecidableEq, Repr, Inhabited

namespace Position

/-- `file:line:column`. -/
def text (position : Position) : Bytes :=
  position.file ++ ":" ++ Bytes.ofInt position.line ++ ":" ++ Bytes.ofInt position.column

/-- Whether a place is known. -/
def isKnown (position : Position) : Bool := 0 < position.line

/-- Whether a position comes before another one of the same file. -/
def before (position other : Position) : Bool := position.offset < other.offset

/-- Whether a position comes after another one of the same file. -/
def after (position other : Position) : Bool := other.offset < position.offset

end Position

/-- A range between two positions, both included. -/
structure Span where
  /-- The first position. -/
  first : Position
  /-- The last position. -/
  last : Position
  deriving DecidableEq, Repr

namespace Span

/-- `file:line:column-column` within one line, and `file:line:column-line:column` otherwise. -/
def text (span : Span) : Bytes :=
  if span.first.line == span.last.line then
    span.first.text ++ "-" ++ Bytes.ofInt span.last.column
  else
    span.first.text ++ "-" ++ Bytes.ofInt span.last.line ++ ":" ++ Bytes.ofInt span.last.column

/-- Whether both ends are known and in order. -/
def isKnown (span : Span) : Bool :=
  span.first.isKnown && span.last.isKnown && !span.last.before span.first

/-- Whether a position lies within the span. -/
def contains (span : Span) (position : Position) : Bool :=
  !position.before span.first && !position.after span.last

end Span

end ScriptCompiler
