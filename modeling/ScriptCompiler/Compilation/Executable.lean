import ScriptCompiler.Compilation.Unit
import ScriptCompiler.LLVM.Generate
import ScriptCompiler.Syntax.Dump
import ScriptCompiler.Toolchain.Tools

/-!
# Executables

What becomes of a compilation unit: LLVM code, dumps, an executable, or the result of running the
program.
-/

namespace ScriptCompiler

/-- A compiler with its options and tools. -/
structure Compiler where
  /-- The options. -/
  options : CompilerOptions
  /-- The tools. -/
  toolchain : Toolchain := {}
  /-- Whether executables can be linked. -/
  links : Bool := true
  deriving DecidableEq, Repr

/-- What a compilation produces. -/
structure Product where
  /-- The unit. -/
  unit : CompiledUnit
  /-- The executable; empty when the program was run instead. -/
  output : Bytes := []
  /-- The result of the program when it was run. -/
  code : Int := 0
  /-- The dumps that were written. -/
  dumps : List Bytes := []

/-- The executable that a source file is linked into: the name without its extension. -/
def outputPath (path : Bytes) : Bytes :=
  let stripped := Bytes.dropSuffix SourceFile.extension path
  if stripped == path then path ++ ".out" else stripped

namespace Compiler

/-- The machine that code is generated for. -/
def target (compiler : Compiler) : Target :=
  ⟨if compiler.options.triple.isEmpty then Target.hostTriple else compiler.options.triple, []⟩

/-- The unit of a file.  The records that compiling it leaves go to the log of the workspace. -/
def unit (compiler : Compiler) (file : SourceFile) : Job CompiledUnit := do
  let (result, records) := (CompiledUnit.compile compiler.options file).outcome
  modify fun workspace => workspace.log records
  match result with
  | .ok unit => return unit
  | .error failure => throw failure

/-- The LLVM code of a unit, before the external optimizer. -/
def listing (compiler : Compiler) (unit : CompiledUnit) : Except Failure LLVM.Listing :=
  match LLVM.generate ⟨compiler.target.triple, true⟩ unit.module with
  | .ok module => .ok (.ofModule module)
  | .error stop => .error (.plain ("generating LLVM IR: " ++ stop.message?.getD []))

/-- The LLVM code of a unit. -/
def generate (compiler : Compiler) (unit : CompiledUnit) : Job LLVM.Listing := do
  match compiler.listing unit with
  | .error failure => throw failure
  | .ok listing =>
      if compiler.options.optimize then
        compiler.toolchain.optimize compiler.options.optLevel listing
      else return listing

/-- The function that running a unit starts at: the first candidate that its LLVM code defines. -/
def startingPoint? (unit : CompiledUnit) (listing : LLVM.Listing) : Option Bytes :=
  unit.entryCandidates.find? listing.defines

/-- Run a unit with its LLVM code. -/
def run (compiler : Compiler) (unit : CompiledUnit) (listing : LLVM.Listing) : Job Int := do
  let engine ← Engine.prepare compiler.toolchain compiler.target listing
  match startingPoint? unit listing with
  | some name =>
      Job.log .debug "running" [("unit", CompiledUnit.label), ("entry", name)]
      engine.run name
  | none =>
      throw (.ofDiagnostic
        { category := .runtimeException, details := "no entry function in " ++ unit.file.name
          position := unit.program.last, origin := unit.file.origin })

/-- Write a dump beside the executable if it is asked for.  Returns its path in that case. -/
def dump (asked : Bool) (path : Bytes) (content : Job Bytes) : Job (List Bytes) := do
  if asked then
    let text ← content
    match (← get).files.write path text with
    | .error fault => throw (.plain ("writing dump: open " ++ path ++ ": " ++ fault.reason))
    | .ok files =>
        modify fun workspace => { workspace with files }
        Job.log .debug "wrote dump" [("path", path)]
        return [path]
  else return []

/-- The source file at a path. -/
def readSource (path : Bytes) : Job SourceFile := do
  match (← get).files.read path with
  | .ok contents => return .ofContents path contents
  | .error fault => throw (.plain ("reading source: " ++ Files.readMessage path fault))

/-- The executable that a compilation produces: the one that is named, or else the one in the
options, or else the one derived from the source file. -/
def chosenOutput (compiler : Compiler) (path output : Bytes) : Bytes :=
  if !output.isEmpty then output
  else if !compiler.options.outputPath.isEmpty then compiler.options.outputPath
  else outputPath path

/-- Compile the source file at a path, and link it or run it as the options say. -/
def compile (compiler : Compiler) (path named : Bytes) : Job Product := do
  let options := compiler.options
  let file ← readSource path
  let output := compiler.chosenOutput path named
  let unit ← compiler.unit file
  let tokens ← dump options.dumpTokens (output ++ ".tokens") (pure (Token.dump unit.tokens))
  let tree ← dump options.dumpAst (output ++ ".ast") (pure unit.program.dump)
  let listing ← compiler.generate unit
  let code ← dump options.dumpIr (output ++ ".ll") (pure listing.text)
  let assembly ← dump options.dumpAsm (output ++ ".s")
    (compiler.toolchain.generate .assembly compiler.target listing)
  let dumps := tokens ++ tree ++ code ++ assembly
  if options.executeImmediately then
    return { unit, code := ← compiler.run unit listing, dumps }
  let _ ← compiler.toolchain.generate .object compiler.target listing
  if !compiler.links then throw (.plain ("no linker configured for " ++ output))
  compiler.toolchain.link output
  Job.log .debug "linked" [("unit", CompiledUnit.label), ("output", output)]
  return { unit, output, dumps }

end Compiler

end ScriptCompiler
