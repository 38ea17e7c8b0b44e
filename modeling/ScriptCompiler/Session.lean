import ScriptCompiler.Compilation.Executable

/-!
# Sessions

Statements that are entered one after the other and compiled together as one file.  An entry that
does not compile leaves no trace.
-/

namespace ScriptCompiler

/-- The entries that have been accepted, and the unit of them all. -/
structure Session where
  /-- The compiler. -/
  compiler : Compiler
  /-- The accepted entries, in order. -/
  entries : List Bytes := []
  /-- The unit of the entries; nothing while there are none. -/
  unit : Option CompiledUnit := none

namespace Session

/-- The name that the entries are compiled under. -/
def fileName : Bytes := "repl" ++ SourceFile.extension

/-- The accepted entries, line after line. -/
def source (session : Session) : Bytes := Bytes.join "\n" session.entries

/-- The text of the accepted entries followed by another one, which stands alone while there are
none. -/
def followedBy (session : Session) (entry : Bytes) : Bytes :=
  if session.entries.isEmpty then entry else session.source ++ "\n" ++ entry

/-- The accepted entries followed by another one. -/
def file (session : Session) (entry : Bytes) : SourceFile :=
  .ofContents fileName (session.followedBy entry)

/-- What keeps an entry from being parsed after the accepted ones. -/
def check (session : Session) (entry : Bytes) : Option Diagnostic :=
  match (session.file entry).parse with
  | .ok _ => none
  | .error diagnostic => some diagnostic

/-- The session with an entry accepted. -/
def accept (session : Session) (entry : Bytes) (unit : CompiledUnit) : Session :=
  { session with entries := session.entries ++ [entry], unit := some unit }

/-- Compile the accepted entries followed by another one, and accept it if that succeeds. -/
def add (session : Session) (entry : Bytes) : Job (CompiledUnit × Session) := do
  let unit ← session.compiler.unit (session.file entry)
  return (unit, session.accept entry unit)

/-- Run the accepted entries. -/
def run (session : Session) : Job Int := do
  match session.unit with
  | none => return 0
  | some unit =>
      let listing ← session.compiler.generate unit
      session.compiler.run unit listing

/-- The session without its entries. -/
def reset (session : Session) : Session := { compiler := session.compiler }

end Session

end ScriptCompiler
