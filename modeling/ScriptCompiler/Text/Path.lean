import ScriptCompiler.Text.LowerCase

/-!
# File paths

Paths are texts whose parts are divided by slashes.
-/

namespace ScriptCompiler.Path

/-- The last part of a path.  Trailing slashes do not count; the empty path has the part `.` and a
path of slashes only the part `/`. -/
def base (path : Bytes) : Bytes :=
  if path.isEmpty then "."
  else
    let parts := (path.reverse.dropWhile (· == 0x2F)).takeWhile (· != 0x2F)
    if parts.isEmpty then "/" else parts.reverse

/-- The extension of a path: its last part from the last dot on, or nothing. -/
def extension (path : Bytes) : Bytes :=
  let last := path.reverse.takeWhile (· != 0x2F)
  if last.contains 0x2E then (last.takeWhile (· != 0x2E) ++ [0x2E]).reverse else []

/-- The last part of a path without its extension. -/
def stem (path : Bytes) : Bytes := Bytes.dropSuffix (extension (base path)) (base path)

end ScriptCompiler.Path
