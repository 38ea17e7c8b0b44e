import ScriptCompiler.Config.Options
import ScriptCompiler.Log
import ScriptCompiler.Lowering.Program
import ScriptCompiler.Optimize.Pipeline
import ScriptCompiler.Syntax.Parser
import ScriptCompiler.Token.Scanner

/-!
# Compilation units

A source file and what each stage up to the optimizer makes of it.  Compiling a file leaves records
in the log, also when a stage fails; apart from them the unit depends on the options and the file
alone.
-/

namespace ScriptCompiler

namespace SourceFile

/-- The origin of diagnostics about the text of a file. -/
def origin (file : SourceFile) : Origin := ⟨file.stem, "<main>"⟩

/-- The tokens of a file. -/
def tokens (file : SourceFile) : Except Diagnostic (List Token) :=
  ScanTarget.tokens ⟨file.name, file.origin⟩ file.text

/-- The tokens of a file and its program. -/
def parse (file : SourceFile) : Except Diagnostic (List Token × Program) := do
  let tokens ← file.tokens
  return (tokens, ← Program.ofTokens file.origin tokens)

end SourceFile

/-- A compiled source file. -/
structure CompiledUnit where
  /-- The file. -/
  file : SourceFile
  /-- Its tokens. -/
  tokens : List Token
  /-- Its program. -/
  program : Program
  /-- The scopes of the program. -/
  table : ScopeTable
  /-- The optimized module. -/
  module : IR.Module
  /-- The variables that nothing refers to. -/
  unused : List Symbol
  /-- What the optimizer did. -/
  stats : IR.Stats

/-- Work that may fail and that leaves records in the log either way. -/
abbrev Logged := ExceptT Failure (StateM (List LogRecord))

namespace Logged

/-- Leave records in the log. -/
def note (records : List LogRecord) : Logged Unit := modify fun earlier => earlier ++ records

/-- Go on with a result, or fail with a diagnostic. -/
def lift {α : Type} : Except Diagnostic α → Logged α
  | .ok value => pure value
  | .error diagnostic => throw (.ofDiagnostic diagnostic)

/-- The outcome of the work and the records that it left. -/
def outcome {α : Type} (work : Logged α) : Except Failure α × List LogRecord := work.run.run []

end Logged

namespace CompiledUnit

/-- The name of a unit in the log.  Units are compiled one at a time, so that one name serves. -/
def label : Bytes := "U"

/-- Fail if a module breaks a rule, naming the first one. -/
def verify (moment : Bytes) (module : IR.Module) : Logged Unit :=
  match module.violations with
  | [] => pure ()
  | violation :: _ =>
      throw (.plain ("IR verification" ++ moment ++ " failed: " ++ violation.message))

/-- The optimizer that options ask for. -/
def optimizer (options : CompilerOptions) : IR.Optimizer :=
  .ofLevel (if options.optimize then options.optLevel else 0)

/-- A record about the unit of a file. -/
def record (file : SourceFile) (severity : Severity) (message : Bytes)
    (fields : List (Bytes × Bytes)) : LogRecord :=
  ⟨severity, message, ("unit", label) :: ("file", file.name) :: fields⟩

/-- The record of a file that has been parsed. -/
def parsedRecord (file : SourceFile) (tokens : List Token) (program : Program) : LogRecord :=
  record file .debug "parsed"
    [("tokens", Bytes.ofNat tokens.length), ("statements", Bytes.ofNat program.items.length)]

/-- The records of a program that has been lowered: one for the module and one for each variable
that nothing refers to. -/
def builtRecords (file : SourceFile) (built : Lowering.Built) : List LogRecord :=
  record file .debug "built"
      [("functions", Bytes.ofNat built.module.functions.length), ("entry", built.module.entry)] ::
    built.unused.map fun symbol =>
      record file .warn "variable declared and not used"
        [("name", symbol.name), ("pos", symbol.position.text)]

/-- The record of a change by a pass of the optimizer. -/
def changeRecord (file : SourceFile) (change : IR.PassChange) : LogRecord :=
  record file .debug "pass changed function"
    [("pass", change.pass), ("function", change.function), ("round", Bytes.ofNat change.round)]

/-- Compile a source file up to the optimizer. -/
def compile (options : CompilerOptions) (file : SourceFile) : Logged CompiledUnit := do
  let (tokens, program) ← Logged.lift file.parse
  Logged.note [parsedRecord file tokens program]
  let built ← Logged.lift (Lowering.build options.entry file program)
  verify [] built.module
  Logged.note (builtRecords file built)
  let (module, outcome) := (optimizer options).optimize built.module
  Logged.note (outcome.changes.map (changeRecord file))
  match outcome.failure with
  | some message => throw (.plain ("optimization failed: " ++ message))
  | none => pure ()
  verify " after optimization" module
  let stats := outcome.optimizer.stats
  Logged.note [record file .debug "optimized" [("stats", stats.text)]]
  return { file, tokens, program, table := built.table, module, unused := built.unused, stats }

/-- The functions at which a run may start, in the order of preference: the entry function of the
module, the usual name, and the name made from that of the file. -/
def entryCandidates (unit : CompiledUnit) : List Bytes :=
  ([unit.module.entry, EntryOptions.defaultName, synthesizedEntry unit.file.stem].filter
    fun name => !name.isEmpty).eraseDups

end CompiledUnit

end ScriptCompiler
