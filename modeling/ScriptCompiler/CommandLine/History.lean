import ScriptCompiler.Text.Rune

/-!
# Lines of input and the history of entries

How a stream of bytes is cut into lines, and the record of earlier entries that dialogues keep in a
file: one entry on each line, the oldest first.
-/

namespace ScriptCompiler.CommandLine

/-- The number of bytes that are read ahead; a longer line is taken in pieces. -/
def lineLimit : Nat := 4096

/-- A line, and whether its end was beyond what is read ahead. -/
structure Line where
  /-- The content. -/
  content : Bytes
  /-- Whether the line goes on. -/
  isPart : Bool := false
  deriving DecidableEq, Repr

/-- A text without a carriage return at its end. -/
def withoutReturn (text : Bytes) : Bytes := Bytes.dropSuffix [0x0D] text

/-- The first line of a text and what follows it.  A carriage return before the end of the line does
not belong to it. -/
def firstLine (text : Bytes) : Line × Bytes :=
  let ahead := text.take lineLimit
  let content := ahead.takeWhile (· != 0x0A)
  if content.length < ahead.length then
    (⟨withoutReturn content, false⟩, text.drop (content.length + 1))
  else if ahead.length < lineLimit then (⟨content, false⟩, [])
  else
    let piece := withoutReturn content
    (⟨piece, true⟩, text.drop piece.length)

/-- At most `count` lines of a text. -/
def linesWithin : Nat → Bytes → List Line
  | 0, _ => []
  | _, [] => []
  | count + 1, text =>
      let (line, rest) := firstLine text
      line :: linesWithin count rest

/-- The lines of a text. -/
def lines (text : Bytes) : List Line := linesWithin text.length text

/-- The entries of earlier dialogues. -/
abbrev History := List Bytes

namespace History

/-- The most entries that a history holds. -/
def limit : Nat := 1000

/-- The newest entries, as many as a history holds. -/
def bounded (entries : List Bytes) : History := entries.drop (entries.length - limit)

/-- The history that a file holds, up to the first line that is too long or not text. -/
def ofFile (contents : Bytes) : History :=
  bounded (((lines contents).takeWhile fun line => !line.isPart &&
    Bytes.isWellFormed line.content).map Line.content)

/-- The history with another entry, unless that is the newest one already. -/
def add (history : History) (entry : Bytes) : History :=
  if history.getLast? == some entry then history else bounded (history ++ [entry])

/-- The content of the file that keeps the history. -/
def contents (history : History) : Bytes := history.flatMap fun entry => entry ++ "\n"

end History

end ScriptCompiler.CommandLine
