import ScriptCompiler.Diagnostic

/-!
# Reports

How a failure is shown to the user: a diagnostic on one line, with the offending source line and a
caret below it when the source is at hand; any other failure after the word "error".
-/

namespace ScriptCompiler

/-- A tab in an excerpt is shown as four blanks. -/
def excerptLine (line : Bytes) : Bytes :=
  let shown : UInt8 → Bytes := fun byte => if byte == 0x09 then Bytes.filled 4 0x20 else [byte]
  "  " ++ line.flatMap shown ++ "\n"

namespace Diagnostic

/-- The excerpt of a diagnostic, indented; nothing without a source or a place. -/
def shownExcerpt (diagnostic : Diagnostic) (file : Option SourceFile) : Bytes :=
  match file.map diagnostic.excerpt with
  | some (byte :: text) => (Bytes.splitOn 0x0A (byte :: text)).flatMap excerptLine
  | _ => []

/-- A diagnostic as shown.  Without a source, the one that its position names is looked for. -/
def report (diagnostic : Diagnostic) (file : Option SourceFile)
    (read : Bytes → Option SourceFile) : Bytes :=
  let source :=
    match file with
    | some known => some known
    | none => if diagnostic.position.file.isEmpty then none else read diagnostic.position.file
  diagnostic.message ++ "\n" ++ diagnostic.shownExcerpt source

end Diagnostic

/-- A failure as shown. -/
def Failure.report (failure : Failure) (file : Option SourceFile)
    (read : Bytes → Option SourceFile) : Bytes :=
  match failure.diagnostic with
  | none => "error: " ++ failure.message ++ "\n"
  | some diagnostic => diagnostic.report file read

end ScriptCompiler
