import ScriptCompiler.Text.Composed
import ScriptCompiler.Text.Path

/-!
# Source files

A source file is a name and a canonically composed text, so that identifiers spelt with different
code points are the same.
-/

namespace ScriptCompiler

/-- A named source text. -/
structure SourceFile where
  /-- The name of the file as given. -/
  name : Bytes
  /-- The text, canonically composed. -/
  text : Bytes
  deriving DecidableEq, Repr

namespace SourceFile

/-- The extension of source files. -/
def extension : Bytes := ".tss"

/-- The file with the given name and contents. -/
def ofContents (name contents : Bytes) : SourceFile := ⟨name, Bytes.composed contents⟩

/-- The last part of the name without its extension. -/
def stem (file : SourceFile) : Bytes := Path.stem file.name

/-- The line with a number counted from one, without its line end; nothing beyond the last line. -/
def line (file : SourceFile) (number : Int) : Bytes :=
  if number < 1 then []
  else Bytes.dropSuffix [0x0D] ((Bytes.splitOn 0x0A file.text).getD (number - 1).toNat [])

end SourceFile

end ScriptCompiler
